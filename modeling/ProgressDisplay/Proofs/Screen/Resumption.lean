import ProgressDisplay.Proofs.Screen.Printout

/-!
# Text that is written in two parts

Text may be cut anywhere. The pen that writes the second part goes on in the column in which the
first one has stopped. It then does what a single pen would have done, provided that the stretch of
text which the cut falls into is as wide as its two parts together.

* `Text.pieces_append`: the pieces of a text are those of its parts, joined at the cut.
* `Pen.resumes_tabbed`: a pen that goes on behind another.
-/

namespace ProgressDisplay

theorem Position.advance_add (p : Position) (m n : Nat) :
    (p.advance m).advance n = p.advance (m + n) := by
  simp only [advance, Position.mk.injEq, true_and]
  omega

namespace Text

/-- The pieces of two texts as those of one: the last of the first and the first of the second
become one piece. -/
def joinEnds : List (List Char) → List (List Char) → List (List Char)
  | [], second => second
  | [last], second => (last ++ second.headD []) :: second.tail
  | part :: rest, second => part :: joinEnds rest second

theorem joinEnds_cons (part : List Char) {rest : List (List Char)} (h : rest ≠ [])
    (second : List (List Char)) :
    joinEnds (part :: rest) second = part :: joinEnds rest second := by
  cases rest with
  | nil => exact absurd rfl h
  | cons next others => rfl

theorem joinEnds_ne_nil {first : List (List Char)} (h : first ≠ []) (second : List (List Char)) :
    joinEnds first second ≠ [] := by
  match first with
  | [] => exact absurd rfl h
  | [_] => exact List.cons_ne_nil _ _
  | _ :: _ :: _ => exact List.cons_ne_nil _ _

theorem joinEnds_consToFirst (c : Char) {first : List (List Char)} (h : first ≠ [])
    (second : List (List Char)) :
    joinEnds (consToFirst c first) second = consToFirst c (joinEnds first second) := by
  match first with
  | [] => exact absurd rfl h
  | [_] => rfl
  | _ :: _ :: _ => rfl

theorem pieces_append (sep : Char) (first second : List Char) :
    pieces sep (first ++ second) = joinEnds (pieces sep first) (pieces sep second) := by
  induction first with
  | nil =>
    cases h : pieces sep second with
    | nil => exact absurd h (pieces_ne_nil sep second)
    | cons part rest => simpa [pieces, joinEnds] using h
  | cons c rest ih =>
    have hne := pieces_ne_nil sep rest
    rw [List.cons_append, pieces, pieces]
    split
    · rw [joinEnds_cons [] hne, ih]
    · rw [joinEnds_consToFirst c hne, ih]

theorem getLastD_suffix_intercalate (sep : Char) (parts : List (List Char)) :
    parts.getLastD [] <:+ [sep].intercalate parts := by
  induction parts with
  | nil => exact List.nil_suffix
  | cons part rest ih =>
    cases rest with
    | nil =>
      rw [List.intercalate_singleton]
      exact List.suffix_rfl
    | cons next others =>
      rw [List.intercalate_cons_cons]
      exact ih.trans (List.suffix_append _ _)

/-- A text ends with its last piece. -/
theorem getLastD_pieces_suffix (sep : Char) (text : List Char) :
    (pieces sep text).getLastD [] <:+ text := by
  have hlast := getLastD_suffix_intercalate sep (pieces sep text)
  rwa [intercalate_pieces] at hlast

end Text

namespace Pen

variable {p q : Pen} {earlier : List Emission}

theorem tabbed_cons (p : Pen) (piece : List Char) {rest : List (List Char)} (h : rest ≠ []) :
    p.tabbed (piece :: rest) = (p.text (String.ofList piece)).tab.tabbed rest := by
  cases rest with
  | nil => exact absurd rfl h
  | cons next others => rfl

/-- The pen `q` has come to where the pen `p` is, and what it has emitted since other emissions
reads like what that pen has emitted. -/
structure Resumes (earlier : List Emission) (q p : Pen) : Prop where
  cursor : q.cursor = p.cursor
  emitted : Emission.renderAll (earlier ++ q.emitted) = Emission.renderAll p.emitted

namespace Resumes

theorem text (h : q.Resumes earlier p) (content : String) :
    (q.text content).Resumes earlier (p.text content) := by
  refine ⟨?_, ?_⟩
  · unfold Pen.text
    split
    · exact h.cursor
    · exact congrArg (·.advance (Text.width content)) h.cursor
  · rw [emitted_text, emitted_text, ← List.append_assoc, Emission.renderAll_append, h.emitted,
      ← Emission.renderAll_append]

theorem tab (h : q.Resumes earlier p) : q.tab.Resumes earlier p.tab := by
  have hcolumn : q.column = p.column := congrArg Position.col h.cursor
  rw [Pen.tab, hcolumn]
  exact h.text _

theorem tabbed (h : q.Resumes earlier p) (pieces : List (List Char)) :
    (q.tabbed pieces).Resumes earlier (p.tabbed pieces) := by
  induction pieces generalizing p q with
  | nil => exact h
  | cons piece rest ih =>
    cases rest with
    | nil => exact h.text _
    | cons next others =>
      have hne := List.cons_ne_nil next others
      rw [tabbed_cons q piece hne, tabbed_cons p piece hne]
      exact ih (h.text _).tab

end Resumes

theorem text_nil (p : Pen) : p.text (String.ofList []) = p := if_pos rfl

theorem text_ofList_cursor (p : Pen) {content : List Char} (h : content ≠ []) :
    (p.text (String.ofList content)).cursor = p.cursor.advance (Text.columns content) :=
  p.text_cursor _ fun hempty => h (String.ofList_eq_empty_iff.mp hempty)

/-- A pen that is taken up where another has stopped writes the rest of its text. -/
theorem resumes_text {first second : List Char}
    (hcursor : q.cursor = (p.text (String.ofList first)).cursor) (hnew : q.emitted = [])
    (hcut : Text.columns (first ++ second) = Text.columns first + Text.columns second) :
    (q.text (String.ofList second)).Resumes (p.text (String.ofList first)).emitted
      (p.text (String.ofList (first ++ second))) where
  cursor := by
    by_cases hfirst : first = []
    · subst hfirst
      have hresumes : q.Resumes p.emitted p := ⟨hcursor, by rw [hnew, List.append_nil]⟩
      rw [List.nil_append]
      exact (hresumes.text _).cursor
    by_cases hsecond : second = []
    · subst hsecond
      rw [List.append_nil, text_nil, hcursor]
    rw [text_ofList_cursor q hsecond, hcursor, text_ofList_cursor p hfirst,
      text_ofList_cursor p (List.append_ne_nil_of_left_ne_nil hfirst second), hcut,
      Position.advance_add]
  emitted := by
    refine String.toList_injective ?_
    rw [Emission.renderAll_append, String.toList_append, renderAll_text, renderAll_text,
      renderAll_text, hnew, List.append_assoc]
    rfl

/-- A pen that is taken up where another has stopped writes the rest of its pieces. The piece that
was cut takes as many columns as its two parts. -/
theorem resumes_tabbed {first second : List (List Char)} (hfirst : first ≠ [])
    (hsecond : second ≠ []) (hcursor : q.cursor = (p.tabbed first).cursor) (hnew : q.emitted = [])
    (hcut : Text.columns (first.getLastD [] ++ second.headD []) =
      Text.columns (first.getLastD []) + Text.columns (second.headD [])) :
    (q.tabbed second).Resumes (p.tabbed first).emitted
      (p.tabbed (Text.joinEnds first second)) := by
  induction first generalizing p with
  | nil => exact absurd rfl hfirst
  | cons piece rest ih =>
    cases rest with
    | nil =>
      cases second with
      | nil => exact absurd rfl hsecond
      | cons head tail =>
        have hhead : (q.text (String.ofList head)).Resumes (p.text (String.ofList piece)).emitted
            (p.text (String.ofList (piece ++ head))) := resumes_text hcursor hnew hcut
        show (q.tabbed (head :: tail)).Resumes _ (p.tabbed ((piece ++ head) :: tail))
        cases tail with
        | nil => exact hhead
        | cons next others =>
          have hne := List.cons_ne_nil next others
          rw [tabbed_cons q head hne, tabbed_cons p (piece ++ head) hne]
          exact hhead.tab.tabbed _
    | cons next others =>
      have hne := List.cons_ne_nil next others
      rw [Text.joinEnds_cons piece hne, tabbed_cons p piece (Text.joinEnds_ne_nil hne second)]
      rw [tabbed_cons p piece hne] at hcursor ⊢
      exact ih hne hcursor hcut

end Pen

end ProgressDisplay
