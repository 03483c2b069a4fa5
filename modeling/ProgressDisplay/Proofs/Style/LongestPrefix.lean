import Mathlib.Data.List.Infix
import ProgressDisplay.Proofs.Style.Truncation

/-!
# What is kept of a cut line

The characters of a line, each with its style, are its `glyphs`. A cut line holds the first glyphs
of the line that it was cut from, whatever they are. Where the spans are `Separable`, so that every
beginning of a span takes the columns of its characters, it also holds as many of them as fit.

* `glyphs_truncate_isPrefix`, `truncate_truncate`: a cut line is a beginning, and cutting it again
  changes nothing.
* `Separable.exists_dropped`: the first character with a column that is left out would not fit.
* `truncate_keeps_longest`: all of it for every line and every limit.
-/

namespace ProgressDisplay

open Text

namespace Text

/-- Every beginning of the text takes the columns of its characters taken one by one. -/
def Separable (text : List Char) : Prop :=
  ∀ first, first <+: text → width (String.ofList first) = widthApart first

instance (text : List Char) : Decidable (Separable text) :=
  decidable_of_iff (∀ first ∈ text.inits, width (String.ofList first) = widthApart first)
    ⟨fun h first hfirst => h first ((List.mem_inits first text).mpr hfirst),
      fun h first hfirst => h first ((List.mem_inits first text).mp hfirst)⟩

theorem Separable.whole {text : List Char} (h : Separable text) :
    width (String.ofList text) = widthApart text := h text (List.prefix_refl text)

theorem Separable.of_isPrefix {first text : List Char} (h : Separable text)
    (hfirst : first <+: text) : Separable first := fun _ hp => h _ (hp.trans hfirst)

theorem widthApart_append (first second : List Char) :
    widthApart (first ++ second) = widthApart first + widthApart second := by
  induction first with
  | nil => exact (Nat.zero_add _).symm
  | cons c rest ih => rw [List.cons_append, widthApart_cons, widthApart_cons, ih, Nat.add_assoc]

end Text

namespace Line

/-- The characters of a line, each with its style. -/
def glyphs (line : Line) : List (Style × Char) :=
  line.flatMap fun s => s.text.toList.map (s.style, ·)

theorem glyphs_cons (s : Span) (line : Line) :
    glyphs (s :: line) = s.text.toList.map (s.style, ·) ++ glyphs line := rfl

theorem map_snd_glyphs (line : Line) : line.glyphs.map Prod.snd = line.characters := by
  induction line with
  | nil => rfl
  | cons s rest ih =>
    rw [glyphs_cons, List.map_append, List.map_map, ih, characters_cons]
    exact congrArg (· ++ _) (List.map_id s.text.toList)

/-! ## A beginning of the line -/

theorem glyphs_cutSpan (columns : Nat) (s : Span) :
    glyphs (cutSpan columns s) = (fitting columns s.text.toList).map (s.style, ·) := by
  unfold cutSpan
  split
  · rename_i hnone
    rw [hnone]
    rfl
  · rw [glyphs_cons, String.toList_ofList]
    exact List.append_nil _

theorem glyphs_cut_isPrefix (columns : Nat) (line : Line) :
    (cut columns line).glyphs <+: line.glyphs := by
  induction line generalizing columns with
  | nil => exact List.prefix_refl []
  | cons s rest ih =>
    unfold cut
    split
    · exact List.nil_prefix
    · rw [glyphs_cons]
      split
      · rw [glyphs_cons]
        exact (List.prefix_append_right_inj _).mpr (ih _)
      · rw [glyphs_cutSpan]
        exact ((fitting_isPrefix columns s.text.toList).map _).trans (List.prefix_append _ _)

/-- A cut line begins as the line that it was cut from. -/
theorem glyphs_truncate_isPrefix (columns : Nat) (line : Line) :
    (truncate columns line).glyphs <+: line.glyphs := by
  unfold truncate
  split
  · exact List.prefix_refl _
  · exact glyphs_cut_isPrefix columns line

/-! ## Cutting again -/

theorem fitting_fitting (columns : Nat) (text : List Char) :
    fitting columns (fitting columns text) = fitting columns text := by
  induction text generalizing columns with
  | nil => rfl
  | cons c rest ih =>
    by_cases hfits : charWidth c ≤ columns
    · simp only [fitting, if_pos hfits, ih]
    · simp only [fitting, if_neg hfits]

theorem cut_cutSpan {columns : Nat} (hcolumns : columns ≠ 0) (s : Span) :
    cut columns (cutSpan columns s) = cutSpan columns s := by
  unfold cutSpan
  split
  · rfl
  · rename_i kept hkept
    have hagain : cutSpan columns { s with text := String.ofList (fitting columns s.text.toList) } =
        [{ s with text := String.ofList (fitting columns s.text.toList) }] := by
      unfold cutSpan
      rw [String.toList_ofList, fitting_fitting]
      split
      · rename_i hnone
        exact absurd hnone hkept
      · rfl
    rw [cut, if_neg hcolumns]
    split
    · rfl
    · exact hagain

theorem cut_cut (columns : Nat) (line : Line) :
    cut columns (cut columns line) = cut columns line := by
  induction line generalizing columns with
  | nil => rfl
  | cons s rest ih =>
    by_cases hnone : columns = 0
    · simp only [cut, if_pos hnone]
    · by_cases hfits : s.width ≤ columns
      · simp only [cut, if_neg hnone, if_pos hfits, ih]
      · simp only [cut, if_neg hnone, if_neg hfits]
        exact cut_cutSpan hnone s

/-- Cutting a cut line to the same limit changes nothing. -/
theorem truncate_truncate (columns : Nat) (line : Line) :
    truncate columns (truncate columns line) = truncate columns line := by
  by_cases hfits : width line ≤ columns
  · rw [truncate_of_fits hfits, truncate_of_fits hfits]
  · have hcut : truncate columns line = cut columns line := if_neg hfits
    rw [hcut]
    unfold truncate
    split
    · rfl
    · exact cut_cut columns line

/-! ## As much as fits -/

/-- Every beginning of every span takes the columns of its characters taken one by one. -/
def Separable (line : Line) : Prop := ∀ s ∈ line, Text.Separable s.text.toList

instance (line : Line) : Decidable line.Separable :=
  inferInstanceAs (Decidable (∀ s ∈ line, Text.Separable s.text.toList))

theorem separable_cons {s : Span} {line : Line} :
    Separable (s :: line) ↔ Text.Separable s.text.toList ∧ line.Separable := List.forall_mem_cons

/-- Of a text that does not fit, the first character that is left out would not fit. -/
theorem fitting_next {columns : Nat} {text : List Char} (h : columns < widthApart text) :
    ∃ c rest, text = fitting columns text ++ c :: rest ∧
      columns < widthApart (fitting columns text) + charWidth c := by
  induction text generalizing columns with
  | nil => exact absurd h (Nat.not_lt_zero columns)
  | cons d others ih =>
    by_cases hfits : charWidth d ≤ columns
    · rw [widthApart_cons] at h
      have hothers : columns - charWidth d < widthApart others := by omega
      obtain ⟨c, rest, htext, hnext⟩ := ih hothers
      refine ⟨c, rest, ?_, ?_⟩
      · rw [fitting, if_pos hfits, List.cons_append, ← htext]
      · rw [fitting, if_pos hfits, widthApart_cons]
        omega
    · refine ⟨d, others, ?_, ?_⟩
      · rw [fitting, if_neg hfits, List.nil_append]
      · rw [fitting, if_neg hfits]
        exact Nat.lt_of_lt_of_le (Nat.lt_of_not_le hfits) (Nat.le_add_left _ _)

/-- What takes columns holds a character that does. -/
theorem exists_wide {glyphs : List (Style × Char)}
    (h : 0 < widthApart (glyphs.map Prod.snd)) :
    ∃ i, glyphs.find? (fun i => 0 < charWidth i.2) = some i ∧ 0 < charWidth i.2 := by
  induction glyphs with
  | nil => cases h
  | cons i rest ih =>
    rw [List.find?_cons]
    split
    · rename_i hwide
      exact ⟨i, rfl, of_decide_eq_true hwide⟩
    · rename_i hnone
      refine ih ?_
      have hzero : ¬0 < charWidth i.2 := of_decide_eq_false hnone
      rw [List.map_cons, widthApart_cons] at h
      omega

namespace Separable

variable {columns : Nat} {line : Line}

theorem width_eq (h : line.Separable) : width line = widthApart line.characters := by
  induction line with
  | nil => rfl
  | cons s rest ih =>
    obtain ⟨hs, hrest⟩ := separable_cons.mp h
    have hspan := hs.whole
    rw [String.ofList_toList] at hspan
    rw [width_cons, characters_cons, widthApart_append, ih hrest, Span.width, hspan]

theorem cut (h : line.Separable) (columns : Nat) : (Line.cut columns line).Separable := by
  induction line generalizing columns with
  | nil => exact h
  | cons s rest ih =>
    obtain ⟨hs, hrest⟩ := separable_cons.mp h
    unfold Line.cut
    split
    · exact List.forall_mem_nil _
    · split
      · exact separable_cons.mpr ⟨hs, ih hrest _⟩
      · rcases cutSpan_eq columns s with hcut | hcut
        · rw [hcut]
          exact List.forall_mem_nil _
        · rw [hcut]
          refine List.forall_mem_singleton.mpr ?_
          rw [String.toList_ofList]
          exact hs.of_isPrefix (fitting_isPrefix columns s.text.toList)

theorem width_cutSpan {s : Span} (h : Text.Separable s.text.toList) (columns : Nat) :
    width (cutSpan columns s) = widthApart (fitting columns s.text.toList) := by
  have hkept := (h.of_isPrefix (fitting_isPrefix columns s.text.toList)).whole
  unfold cutSpan
  split
  · rename_i hnone
    rw [hnone]
    rfl
  · rw [width_cons, width_nil, Nat.add_zero, Span.width, hkept]

theorem width_cut_le (h : line.Separable) (columns : Nat) :
    width (Line.cut columns line) ≤ columns := by
  induction line generalizing columns with
  | nil => exact Nat.zero_le columns
  | cons s rest ih =>
    obtain ⟨hs, hrest⟩ := separable_cons.mp h
    unfold Line.cut
    split
    · exact Nat.zero_le columns
    · split
      · have := ih hrest (columns - s.width)
        rw [width_cons]
        omega
      · rw [width_cutSpan hs]
        exact widthApart_fitting_le columns s.text.toList

/-- A cut line keeps its limit. -/
theorem width_truncate_le (h : line.Separable) (columns : Nat) :
    width (truncate columns line) ≤ columns := by
  unfold truncate
  split
  · rename_i hfits
    exact hfits
  · exact h.width_cut_le columns

/-- Of a line that does not fit, the first character with a column that is left out would not fit
behind what is kept. -/
theorem exists_dropped (h : line.Separable) (hwide : columns < width line) :
    ∃ dropped i, line.glyphs = (Line.cut columns line).glyphs ++ dropped ∧
      dropped.find? (fun i => 0 < charWidth i.2) = some i ∧
      columns < width (Line.cut columns line) + charWidth i.2 := by
  induction line generalizing columns with
  | nil => exact absurd hwide (Nat.not_lt_zero columns)
  | cons s rest ih =>
    obtain ⟨hs, hrest⟩ := separable_cons.mp h
    by_cases hnone : columns = 0
    · -- nothing is kept
      have hpos : 0 < widthApart ((glyphs (s :: rest)).map Prod.snd) := by
        rw [map_snd_glyphs, ← h.width_eq]
        omega
      obtain ⟨i, hfirst, hi⟩ := exists_wide hpos
      refine ⟨glyphs (s :: rest), i, ?_, hfirst, ?_⟩
      · rw [Line.cut, if_pos hnone]
        rfl
      · omega
    · by_cases hfits : s.width ≤ columns
      · -- the span is kept whole, and the first character that is left out stands in a later one
        rw [width_cons] at hwide
        have hlater : columns - s.width < width rest := by omega
        obtain ⟨dropped, i, hglyphs, hfirst, hnext⟩ := ih hrest hlater
        refine ⟨dropped, i, ?_, hfirst, ?_⟩
        · rw [Line.cut, if_neg hnone, if_pos hfits, glyphs_cons, glyphs_cons, hglyphs,
            List.append_assoc]
        · rw [Line.cut, if_neg hnone, if_pos hfits, width_cons]
          omega
      · -- the span is cut, at the first character that does not fit
        have hspan := hs.whole
        rw [String.ofList_toList] at hspan
        have hlong : columns < widthApart s.text.toList := by
          rw [← hspan]
          exact Nat.lt_of_not_le hfits
        obtain ⟨c, left, htext, hnext⟩ := fitting_next hlong
        have hfew := widthApart_fitting_le columns s.text.toList
        refine ⟨(c :: left).map (s.style, ·) ++ glyphs rest, (s.style, c), ?_, ?_, ?_⟩
        · rw [Line.cut, if_neg hnone, if_neg hfits, glyphs_cutSpan, glyphs_cons,
            ← List.append_assoc, ← List.map_append, ← htext]
        · have hc : 0 < charWidth c := by omega
          simp [hc]
        · rw [Line.cut, if_neg hnone, if_neg hfits, width_cutSpan hs]
          exact hnext

end Separable

/-- A cut line holds the first characters of the line, in their styles, and is not changed by being
cut again. If every beginning of a span takes the columns of its characters, then just the lines
that fit stay as they are, and of any other a character with a column is left out, the first of
which would not fit behind what is kept. -/
theorem truncate_keeps_longest (columns : Nat) (line : Line) :
    (truncate columns line).glyphs <+: line.glyphs ∧
    truncate columns (truncate columns line) = truncate columns line ∧
    (line.Separable →
      (truncate columns line = line ↔ width line ≤ columns) ∧
      (columns < width line →
        ∃ dropped i, line.glyphs = (truncate columns line).glyphs ++ dropped ∧
          dropped.find? (fun i => 0 < charWidth i.2) = some i ∧
          columns < width (truncate columns line) + charWidth i.2)) := by
  refine ⟨glyphs_truncate_isPrefix columns line, truncate_truncate columns line, fun h => ⟨?_, ?_⟩⟩
  · constructor
    · intro hsame
      rw [← hsame]
      exact h.width_truncate_le columns
    · exact truncate_of_fits
  · intro hwide
    rw [truncate, if_neg (Nat.not_le_of_lt hwide)]
    exact h.exists_dropped hwide

/-- The second span begins with an accent that takes no column and is kept, and goes on with a wide
character for which one column is left. -/
theorem truncate_keeps_longest_of_straddling :
    let line : Line := [⟨.of .header, "a日"⟩, Span.plain "\u0301本b"]
    line.Separable ∧ 4 < width line ∧
    truncate 4 line = [⟨.of .header, "a日"⟩, Span.plain "\u0301"] ∧ truncate 4 line ≠ line ∧
    ∃ dropped i, line.glyphs = (truncate 4 line).glyphs ++ dropped ∧
      dropped.find? (fun i => 0 < charWidth i.2) = some i ∧
      4 < width (truncate 4 line) + charWidth i.2 := by
  intro line
  have hseparable : line.Separable := by decide +kernel
  have hwide : 4 < width line := by decide +kernel
  obtain ⟨-, -, hlongest⟩ := truncate_keeps_longest 4 line
  obtain ⟨hsame, hdropped⟩ := hlongest hseparable
  refine ⟨hseparable, hwide, by decide +kernel, fun h => ?_, hdropped hwide⟩
  exact absurd (hsame.mp h) (Nat.not_le_of_lt hwide)

end Line

end ProgressDisplay
