import ProgressDisplay.Style.Line

/-!
# Text that takes one cell for each character

`Text.Measured` text has characters of width one only, and as many columns as characters. The
second does not follow from the first: some pairs of letters are counted as one sign.
-/

namespace ProgressDisplay

namespace Text

/-- Every character alone takes one column. -/
def SingleWidth (text : List Char) : Prop := ∀ c ∈ text, charWidth c = 1

instance (text : List Char) : Decidable (SingleWidth text) := List.decidableBAll _ text

structure Measured (text : List Char) : Prop where
  single : SingleWidth text
  whole : width (String.ofList text) = text.length

instance (text : List Char) : Decidable (Measured text) :=
  decidable_of_iff (SingleWidth text ∧ width (String.ofList text) = text.length)
    ⟨fun h => ⟨h.1, h.2⟩, fun h => ⟨h.1, h.2⟩⟩

theorem measured_of_plain {text : List Char} (h : ∀ c ∈ text, isPlain c = true) :
    Measured text where
  single := fun c hc => charWidth_of_plain (h c hc)
  whole := by rw [width, String.toList_ofList, measure_of_plain h, Int.toNat_natCast]

theorem isControl_of_charWidth {c : Char} (h : charWidth c = 1) : isControl c = false := by
  cases hc : isControl c with
  | false => rfl
  | true => simp [charWidth, hc] at h

theorem Measured.ne_of_isControl {text : List Char} (h : Measured text) {c d : Char}
    (hc : c ∈ text) (hd : isControl d = true) : c ≠ d := by
  rintro rfl
  rw [isControl_of_charWidth (h.single c hc)] at hd
  cases hd

theorem Measured.not_mem {text : List Char} (h : Measured text) {c : Char}
    (hc : isControl c = true) : c ∉ text := fun hm => h.ne_of_isControl hm hc rfl

end Text

namespace Line

/-- The characters of a line, without their styles. -/
def characters (line : Line) : List Char := line.flatMap fun s => s.text.toList

def Measured (line : Line) : Prop := ∀ s ∈ line, Text.Measured s.text.toList

instance (line : Line) : Decidable line.Measured :=
  inferInstanceAs (Decidable (∀ s ∈ line, Text.Measured s.text.toList))

theorem characters_cons (s : Span) (line : Line) :
    characters (s :: line) = s.text.toList ++ characters line := rfl

/-- Whether a line consists of the characters that are allowed. -/
def Over (allowed : Char → Prop) (line : Line) : Prop := ∀ c ∈ line.characters, allowed c

theorem over_nil (allowed : Char → Prop) : Over allowed [] := by
  intro c hc
  cases hc

theorem over_cons {allowed : Char → Prop} {s : Span} {line : Line} :
    Over allowed (s :: line) ↔ (∀ c ∈ s.text.toList, allowed c) ∧ line.Over allowed := by
  rw [Over, characters_cons]
  exact List.forall_mem_append

end Line

end ProgressDisplay
