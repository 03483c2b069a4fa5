import ProgressDisplay.Proofs.Screen.Measured
import ProgressDisplay.Screen.Position
import ProgressDisplay.Text.Pieces

/-!
# What was asked for

A `Transcript` holds the lines that were ended and the one that is being written, with tabs filled
up to the next multiple of eight columns, and the contents that the status lines were given. It is
what a reader of the screen should find.

* `typeAll_of_not_mem`: text without a line end goes on the current line.
* `Fits.of_typeAll`: lines never get shorter.
-/

namespace ProgressDisplay

structure Transcript where
  ended : List (List Char) := []
  current : List Char := []
  /-- the contents of the status lines, top first -/
  contents : List Line := []

namespace Transcript

/-- Blanks up to the next tab stop. -/
def padding (column : Nat) : List Char := List.replicate (8 - column % 8) ' '

/-- Ends the current line. -/
def endLine (t : Transcript) : Transcript :=
  { t with ended := t.ended ++ [t.current], current := [] }

/-- One more character. A carriage return only stands in front of a line end and adds nothing. -/
def type (t : Transcript) (c : Char) : Transcript :=
  if c = '\n' then t.endLine
  else if c = '\t' then { t with current := t.current ++ padding t.current.length }
  else if c = '\r' then t
  else { t with current := t.current ++ [c] }

def typeAll (t : Transcript) (text : List Char) : Transcript := text.foldl type t

/-- Text without line ends as it stands from a column on. -/
def expand (column : Nat) : List Char → List Char
  | [] => []
  | c :: rest =>
    if c = '\t' then padding column ++ expand (column + (padding column).length) rest
    else if c = '\r' then expand column rest
    else c :: expand (column + 1) rest

/-- No line is too long for the columns to be counted. -/
def Fits (t : Transcript) : Prop :=
  (∀ line ∈ t.ended, line.length < Position.limit) ∧ t.current.length < Position.limit

instance (t : Transcript) : Decidable t.Fits :=
  inferInstanceAs (Decidable (_ ∧ _))

variable {t : Transcript} {c : Char} {column : Nat} {text part : List Char}

theorem typeAll_append (t : Transcript) (first second : List Char) :
    t.typeAll (first ++ second) = (t.typeAll first).typeAll second := List.foldl_append

theorem typeAll_of_not_mem (h : '\n' ∉ text) :
    t.typeAll text = { t with current := t.current ++ expand t.current.length text } := by
  induction text generalizing t with
  | nil => simp [typeAll, expand]
  | cons c rest ih =>
    have hc : c ≠ '\n' := fun hc => h (hc ▸ List.mem_cons_self)
    have hrest : '\n' ∉ rest := fun hm => h (List.mem_cons_of_mem c hm)
    have hstep : t.typeAll (c :: rest) = (t.type c).typeAll rest := rfl
    rw [hstep, ih hrest, expand, type, if_neg hc]
    by_cases htab : c = '\t'
    · simp [htab]
    · by_cases hreturn : c = '\r'
      · simp [hreturn]
      · simp [htab, hreturn]

theorem expand_append (column : Nat) (first second : List Char) :
    expand column (first ++ second) =
      expand column first ++ expand (column + (expand column first).length) second := by
  induction first generalizing column with
  | nil => rfl
  | cons c rest ih =>
    simp only [List.cons_append, expand]
    by_cases htab : c = '\t'
    · simp only [htab, if_true, ih, List.append_assoc, List.length_append, Nat.add_assoc]
    · by_cases hreturn : c = '\r'
      · simp [hreturn, ih]
      · simp only [htab, hreturn, if_false, ih, List.cons_append, List.length_cons]
        rw [Nat.add_right_comm, Nat.add_assoc]

theorem expand_tab (column : Nat) (rest : List Char) :
    expand column ('\t' :: rest) =
      padding column ++ expand (column + (padding column).length) rest := by
  simp [expand]

theorem expand_of_measured (h : Text.Measured part) : expand column part = part := by
  have hplain : ∀ c ∈ part, c ≠ '\t' ∧ c ≠ '\r' := fun c hc =>
    ⟨h.ne_of_isControl hc rfl, h.ne_of_isControl hc rfl⟩
  clear h
  induction part generalizing column with
  | nil => rfl
  | cons c rest ih =>
    obtain ⟨htab, hreturn⟩ := hplain c List.mem_cons_self
    rw [expand, if_neg htab, if_neg hreturn, ih fun d hd => hplain d (List.mem_cons_of_mem c hd)]

theorem measured_padding (column : Nat) : Text.Measured (padding column) := by
  refine Text.measured_of_plain fun c hc => ?_
  obtain rfl := List.eq_of_mem_replicate hc
  rfl

theorem Fits.of_type (h : (t.type c).Fits) : t.Fits := by
  unfold type endLine at h
  split at h
  · exact ⟨fun line hl => h.1 line (List.mem_append_left _ hl),
      h.1 t.current (List.mem_append_right _ List.mem_cons_self)⟩
  · split at h
    · have hlength := h.2
      simp only [List.length_append] at hlength
      exact ⟨h.1, by omega⟩
    · split at h
      · exact h
      · have hlength := h.2
        simp only [List.length_append] at hlength
        exact ⟨h.1, by omega⟩

theorem Fits.of_typeAll (h : (t.typeAll text).Fits) : t.Fits := by
  induction text generalizing t with
  | nil => exact h
  | cons c rest ih =>
    have htyped : (t.type c).Fits := ih h
    exact htyped.of_type

/-- Text without line ends, measured between its tabs. -/
def MeasuredLine (line : List Char) : Prop := ∀ part ∈ Text.pieces '\t' line, Text.Measured part

instance (line : List Char) : Decidable (MeasuredLine line) :=
  inferInstanceAs (Decidable (∀ part ∈ Text.pieces '\t' line, Text.Measured part))

theorem measuredLine_of_measured {text : List Char} (h : Text.Measured text) :
    MeasuredLine text := by
  intro part hpart
  rw [Text.pieces_of_not_mem (h.not_mem rfl)] at hpart
  obtain rfl := List.mem_singleton.mp hpart
  exact h

namespace MeasuredLine

variable {line : List Char}

theorem control_eq_tab (h : MeasuredLine line) (hc : c ∈ line)
    (hcontrol : Text.isControl c = true) : c = '\t' := by
  by_cases htab : c = '\t'
  · exact htab
  · obtain ⟨part, hpart, hmem⟩ := Text.exists_piece_of_mem hc htab
    exact absurd rfl ((h part hpart).ne_of_isControl hmem hcontrol)

theorem typeAll (h : MeasuredLine line) :
    t.typeAll line = { t with current := t.current ++ expand t.current.length line } := by
  refine typeAll_of_not_mem fun hmem => ?_
  have htab := h.control_eq_tab hmem rfl
  cases htab

theorem expand_ne_nil (h : MeasuredLine line) (hne : line ≠ []) : expand column line ≠ [] := by
  cases line with
  | nil => exact absurd rfl hne
  | cons c rest =>
    have hreturn : c ≠ '\r' := by
      rintro rfl
      have htab := h.control_eq_tab List.mem_cons_self rfl
      cases htab
    have hpadding : padding column ≠ [] := by
      have hlength : (padding column).length = 8 - column % 8 := List.length_replicate
      intro hnil
      rw [hnil, List.length_nil] at hlength
      omega
    unfold expand
    split
    · simp [hpadding]
    · simp

end MeasuredLine

end Transcript

end ProgressDisplay
