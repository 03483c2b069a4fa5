import ProgressDisplay.Proofs.Screen.Measured
import ProgressDisplay.Proofs.Text.Surplus

/-!
# How wide a cut line is

`Line.truncate` decides by the widths of whole spans, but inside a span it cuts by the widths of
characters taken one by one. So only the span that is cut can be too wide, and only by the surplus
of what is kept of it.

* `width_truncate_le`: a cut line exceeds its limit by its surplus at most.
* `width_truncate_le_iff`: over which characters every line keeps every limit.
-/

namespace ProgressDisplay

open Text

namespace Line

/-- The places of a line where a span may be wider than its characters. -/
def surplus (line : Line) : Nat :=
  line.foldr (fun s places => Text.surplus s.text.toList + places) 0

theorem surplus_cons (s : Span) (line : Line) :
    surplus (s :: line) = Text.surplus s.text.toList + surplus line := rfl

/-! ## The characters that are kept -/

theorem fitting_isPrefix (columns : Nat) (text : List Char) : fitting columns text <+: text := by
  induction text generalizing columns with
  | nil => exact List.prefix_refl []
  | cons c rest ih =>
    unfold fitting
    split
    · exact List.prefix_cons_iff.mpr (.inr ⟨_, rfl, ih _⟩)
    · exact List.nil_prefix

theorem widthApart_fitting_le (columns : Nat) (text : List Char) :
    widthApart (fitting columns text) ≤ columns := by
  induction text generalizing columns with
  | nil => exact Nat.zero_le columns
  | cons c rest ih =>
    unfold fitting
    split
    · have := ih (columns - charWidth c)
      rw [widthApart_cons]
      omega
    · exact Nat.zero_le columns

/-- What is kept of the span that is cut: characters of it, in its style. -/
theorem cutSpan_eq (columns : Nat) (s : Span) :
    cutSpan columns s = [] ∨
      cutSpan columns s = [{ s with text := String.ofList (fitting columns s.text.toList) }] := by
  unfold cutSpan
  split
  · exact .inl rfl
  · exact .inr rfl

theorem width_cutSpan_le (columns : Nat) (s : Span) :
    width (cutSpan columns s) ≤ columns + surplus (cutSpan columns s) := by
  rcases cutSpan_eq columns s with h | h
  · rw [h, width_nil]
    exact Nat.zero_le _
  · have hmeasure := measure_le (fitting columns s.text.toList)
    have hfits := widthApart_fitting_le columns s.text.toList
    have hwidth := width_eq_measure (String.ofList (fitting columns s.text.toList))
    rw [String.toList_ofList] at hwidth
    rw [h, width_cons, width_nil, surplus_cons, String.toList_ofList]
    simp only [Span.width]
    omega

theorem width_cut_le (columns : Nat) (line : Line) :
    width (cut columns line) ≤ columns + surplus (cut columns line) := by
  induction line generalizing columns with
  | nil => exact Nat.zero_le _
  | cons s rest ih =>
    unfold cut
    split
    · exact Nat.zero_le _
    · split
      · have := ih (columns - s.width)
        rw [width_cons, surplus_cons]
        omega
      · exact width_cutSpan_le columns s

/-- A cut line exceeds its limit by its surplus at most. -/
theorem width_truncate_le (columns : Nat) (line : Line) :
    width (truncate columns line) ≤ columns + surplus (truncate columns line) := by
  unfold truncate
  split
  · omega
  · exact width_cut_le columns line

/-! ## Lines over a set of characters -/

theorem Over.cut {allowed : Char → Prop} {line : Line} (h : line.Over allowed) (columns : Nat) :
    (cut columns line).Over allowed := by
  induction line generalizing columns with
  | nil => exact h
  | cons s rest ih =>
    obtain ⟨hs, hrest⟩ := over_cons.mp h
    unfold Line.cut
    split
    · exact over_nil allowed
    · split
      · exact over_cons.mpr ⟨hs, ih hrest _⟩
      · rcases cutSpan_eq columns s with hcut | hcut
        · rw [hcut]
          exact over_nil allowed
        · rw [hcut]
          refine over_cons.mpr ⟨fun c hc => hs c ?_, over_nil allowed⟩
          rw [String.toList_ofList] at hc
          exact (fitting_isPrefix columns s.text.toList).subset hc

theorem Over.truncate {allowed : Char → Prop} {line : Line} (h : line.Over allowed)
    (columns : Nat) : (truncate columns line).Over allowed := by
  unfold Line.truncate
  split
  · exact h
  · exact h.cut columns

theorem surplus_eq_zero {allowed : Char → Prop} {line : Line} (h : line.Over allowed)
    (hstray : ∀ c, allowed c → isStray c = false)
    (hwidens : allowed emojiSelector → ∀ c, allowed c → widens c = false) : surplus line = 0 := by
  induction line with
  | nil => rfl
  | cons s rest ih =>
    obtain ⟨hs, hrest⟩ := over_cons.mp h
    have hzero : Text.surplus s.text.toList = 0 :=
      Text.surplus_eq_zero (fun c hc => hstray c (hs c hc))
        fun hselector c hc => hwidens (hs _ hselector) c (hs c hc)
    rw [surplus_cons, hzero, ih hrest]

/-! ## The characters that keep a line within its limit -/

/-- A span of two columns is kept whole in one if it fits there character by character. -/
theorem width_truncate_one {s : Span} {c d : Char} (htext : s.text = String.ofList [c, d])
    (hwidth : (Text.measure [c, d]).1 = 2) (hfitting : fitting 1 [c, d] = [c, d]) :
    width (truncate 1 [s]) = 2 := by
  have htwo : s.width = 2 := by
    simp only [Span.width, htext, Text.width, String.toList_ofList, hwidth]
    rfl
  have hkept : cutSpan 1 s = [s] := by
    simp only [cutSpan, htext, String.toList_ofList, hfitting]
    rw [← htext]
  have hcut : cut 1 [s] = [s] := by simp [cut, htwo, hkept]
  have hline : width [s] = 2 := by rw [width_cons, htwo, width_nil]
  simp [truncate, hcut, hline]

/-- Cut lines keep every limit over just those characters of which none is a control character
other than the line feed, and none is narrow with an emoji form while the selector of that form is
among them too. -/
theorem width_truncate_le_iff (allowed : Char → Prop) :
    (∀ (columns : Nat) (line : Line), line.Over allowed → width (truncate columns line) ≤ columns) ↔
      (∀ c, allowed c → isStray c = false) ∧
        (allowed emojiSelector → ∀ c, allowed c → widens c = false) := by
  constructor
  · intro hlimit
    -- a text of two characters breaks the limit of one column
    have hpair : ∀ c d, allowed c → allowed d → (Text.measure [c, d]).1 = 2 →
        fitting 1 [c, d] ≠ [c, d] := by
      intro c d hc hd hwidth hfitting
      have htext : (Span.plain (String.ofList [c, d])).text = String.ofList [c, d] := rfl
      have htwo := width_truncate_one htext hwidth hfitting
      have hpair : Over allowed [Span.plain (String.ofList [c, d])] := by
        refine over_cons.mpr ⟨?_, over_nil allowed⟩
        rw [htext, String.toList_ofList]
        simp [hc, hd]
      have hone := hlimit 1 _ hpair
      omega
    constructor
    · intro c hc
      cases hstray : isStray c with
      | false => rfl
      | true =>
        refine absurd ?_ (hpair c c hc hc (measure_of_isStray hstray))
        simp [fitting, charWidth_of_isStray hstray]
    · intro hselector c hc
      cases hwidens : widens c with
      | false => rfl
      | true =>
        simp only [widens, Bool.and_eq_true, beq_iff_eq] at hwidens
        refine absurd ?_ (hpair c emojiSelector hc hselector (measure_of_hasVariants hwidens.1))
        simp [fitting, hwidens.2, charWidth_emojiSelector]
  · rintro ⟨hstray, hwidens⟩ columns line hline
    have hbound := width_truncate_le columns line
    rw [surplus_eq_zero (hline.truncate columns) hstray hwidens] at hbound
    exact hbound

/-- Two bells stay within a limit of one column: they count nothing when the line is cut, and two
columns in the line that is left. -/
theorem not_width_truncate_le :
    ¬∀ (columns : Nat) (line : Line), width (truncate columns line) ≤ columns := by
  intro h
  have hbells := h 1 [Span.plain "a\x07\x07b"]
  revert hbells
  decide +kernel

end Line

end ProgressDisplay
