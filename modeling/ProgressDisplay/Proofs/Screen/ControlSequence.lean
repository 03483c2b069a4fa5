import ProgressDisplay.Screen.Emission

/-!
# Reading control sequences

What is sent to a terminal is text and control sequences, which a terminal has to tell apart
character by character. `Reads` lists what a reader does with single characters. From this it
follows how it reads an emission, whatever it makes of it.

* `foldl_repr`: how a reader reads a number.
* `Reads.render`, `Reads.renderAll`: a reader that is between two sequences reads emissions as the
  changes that they stand for.
-/

namespace ProgressDisplay

/-- How far a terminal has read a control sequence. -/
inductive Reading where
  /-- between two sequences -/
  | ground
  /-- after the escape character -/
  | escape
  /-- after the introducer, with the number read so far -/
  | number (value : Nat)
  deriving DecidableEq

namespace Emission

/-- Text that holds nothing that a terminal acts on. -/
def Quiet : Emission → Prop
  | .text content => ∀ c ∈ content.toList, c ≠ '\x1b' ∧ c ≠ '\r' ∧ c ≠ '\n'
  | _ => True

/-- Emissions that only switch the rendition. -/
def Switches : Emission → Prop
  | bold | italic | reverse | foreground _ | reset => True
  | _ => False

end Emission

namespace Rendition

theorem switches_on (r : Rendition) : ∀ e ∈ r.on, e.Switches := by
  intro e he
  simp only [on, List.mem_append] at he
  rcases he with ((he | he) | he) | he
  all_goals
    split at he
    · obtain rfl := List.mem_singleton.mp he
      trivial
    · cases he

theorem switches_off (r : Rendition) : ∀ e ∈ r.off, e.Switches := by
  intro e he
  unfold off at he
  split at he
  · cases he
  · obtain rfl := List.mem_singleton.mp he
    trivial

end Rendition

variable {σ τ : Type} {read : τ → Char → τ} {reader : σ → Reading → τ}
  {put : σ → Char → σ} {perform : σ → Emission → σ}

section

variable {number : Nat → τ} (hdigit : ∀ value c, c.isDigit = true →
  read (number value) c = number (10 * value + (c.toNat - '0'.toNat)))

include hdigit

theorem foldl_digits {digits : List Char} (hdigits : ∀ c ∈ digits, c.isDigit = true)
    (value : Nat) :
    digits.foldl read (number value) = number (Nat.ofDigitChars 10 digits value) := by
  induction digits generalizing value with
  | nil => rfl
  | cons c rest ih =>
    have hrest := ih fun d hd => hdigits d (List.mem_cons_of_mem c hd)
    rw [Nat.ofDigitChars_cons, ← hrest, List.foldl_cons,
      hdigit value c (hdigits c List.mem_cons_self)]

/-- A reader that takes each digit into the number before it reads numerals. -/
theorem foldl_repr (n : Nat) : n.repr.toList.foldl read (number 0) = number n := by
  rw [Nat.toList_repr, foldl_digits hdigit fun c hc => Nat.isDigit_of_mem_toDigits (by decide)
    (by decide) hc, Nat.ofDigitChars_ten_toDigits]

end

/-- A reader in a state, with part of a control sequence read, goes on to read as terminals do.
Of the renditions that are switched it takes no notice. -/
structure Reads (read : τ → Char → τ) (reader : σ → Reading → τ) (put : σ → Char → σ)
    (perform : σ → Emission → σ) : Prop where
  escape : ∀ s, read (reader s .ground) '\x1b' = reader s .escape
  bracket : ∀ s, read (reader s .escape) '[' = reader s (.number 0)
  digit : ∀ s value c, c.isDigit = true →
    read (reader s (.number value)) c =
      reader s (.number (10 * value + (c.toNat - '0'.toNat)))
  separator : ∀ s value, read (reader s (.number value)) ';' = reader s (.number 0)
  up : ∀ s n, read (reader s (.number n)) 'A' = reader (perform s (.up n)) .ground
  down : ∀ s n, read (reader s (.number n)) 'B' = reader (perform s (.down n)) .ground
  right : ∀ s n, read (reader s (.number n)) 'C' = reader (perform s (.right n)) .ground
  left : ∀ s n, read (reader s (.number n)) 'D' = reader (perform s (.left n)) .ground
  eraseRest : ∀ s, read (reader s (.number 0)) 'K' = reader (perform s .eraseRest) .ground
  rendition : ∀ s value, read (reader s (.number value)) 'm' = reader s .ground
  switch : ∀ s e, e.Switches → perform s e = s
  quiet : ∀ s c, c ≠ '\x1b' ∧ c ≠ '\r' ∧ c ≠ '\n' →
    read (reader s .ground) c = reader (put s c) .ground
  text : ∀ s content, perform s (.text content) = content.toList.foldl put s
  lineBreak : ∀ s, read (read (reader s .ground) '\r') '\n' =
    reader (perform s .lineBreak) .ground

namespace Reads

variable (h : Reads read reader put perform) (s : σ)

include h

theorem introducer : Emission.introducer.toList.foldl read (reader s .ground) =
    reader s (.number 0) := by
  show read (read (reader s .ground) '\x1b') '[' = reader s (.number 0)
  rw [h.escape, h.bracket]

theorem repr (n : Nat) :
    n.repr.toList.foldl read (reader s (.number 0)) = reader s (.number n) :=
  foldl_repr (h.digit s) n

theorem motion (n : Nat) (final : String) :
    (Emission.introducer ++ n.repr ++ final).toList.foldl read (reader s .ground) =
      final.toList.foldl read (reader s (.number n)) := by
  rw [String.toList_append, String.toList_append, List.foldl_append, List.foldl_append,
    h.introducer, h.repr]

theorem selection (c : Char) (hc : c.isDigit = true) :
    (Emission.introducer ++ String.ofList [c, 'm']).toList.foldl read (reader s .ground) =
      reader s .ground := by
  rw [String.toList_append, String.toList_ofList, List.foldl_append, h.introducer]
  show read (read (reader s (.number 0)) c) 'm' = reader s .ground
  rw [h.digit s 0 c hc, h.rendition]

theorem foreground (color : Rgb) :
    (Emission.foreground color).render.toList.foldl read (reader s .ground) =
      reader s .ground := by
  have hkind : "38;2;".toList.foldl read (reader s (.number 0)) = reader s (.number 0) := by
    show read (read (read (read (read (reader s (.number 0)) '3') '8') ';') '2') ';' = _
    rw [h.digit s 0 '3' rfl, h.digit s _ '8' rfl, h.separator, h.digit s 0 '2' rfl, h.separator]
  have hnext (n : Nat) : ";".toList.foldl read (reader s (.number n)) = reader s (.number 0) :=
    h.separator s n
  have hend (n : Nat) : "m".toList.foldl read (reader s (.number n)) = reader s .ground :=
    h.rendition s n
  simp only [Emission.render, String.toList_append, List.foldl_append, h.introducer, hkind,
    h.repr, hnext, hend]

theorem switched {e : Emission} (he : e.Switches) :
    e.render.toList.foldl read (reader s .ground) = reader (perform s e) .ground := by
  rw [h.switch s e he]
  cases e with
  | bold => exact h.selection s '1' rfl
  | italic => exact h.selection s '3' rfl
  | reverse => exact h.selection s '7' rfl
  | foreground color => exact h.foreground s color
  | reset => exact h.selection s '0' rfl
  | _ => exact he.elim

theorem quietText {text : List Char} (htext : ∀ c ∈ text, c ≠ '\x1b' ∧ c ≠ '\r' ∧ c ≠ '\n') :
    text.foldl read (reader s .ground) = reader (text.foldl put s) .ground := by
  induction text generalizing s with
  | nil => rfl
  | cons c rest ih =>
    rw [List.foldl_cons, h.quiet s c (htext c List.mem_cons_self), List.foldl_cons]
    exact ih (put s c) fun d hd => htext d (List.mem_cons_of_mem c hd)

theorem render {e : Emission} (hquiet : e.Quiet) :
    e.render.toList.foldl read (reader s .ground) = reader (perform s e) .ground := by
  cases e with
  | up n => exact (h.motion s n "A").trans (h.up s n)
  | down n => exact (h.motion s n "B").trans (h.down s n)
  | right n => exact (h.motion s n "C").trans (h.right s n)
  | left n => exact (h.motion s n "D").trans (h.left s n)
  | eraseRest =>
    rw [Emission.render, String.toList_append, List.foldl_append, h.introducer]
    exact h.eraseRest s
  | bold | italic | reverse | foreground _ | reset => exact h.switched s trivial
  | text content =>
    rw [h.text]
    exact h.quietText s hquiet
  | lineBreak => exact h.lineBreak s

theorem renderAll {emissions : List Emission} (hquiet : ∀ e ∈ emissions, e.Quiet) :
    (Emission.renderAll emissions).toList.foldl read (reader s .ground) =
      reader (emissions.foldl perform s) .ground := by
  induction emissions generalizing s with
  | nil => rfl
  | cons e rest ih =>
    rw [Emission.renderAll, List.map_cons, String.join_cons, String.toList_append,
      List.foldl_append, h.render s (hquiet e List.mem_cons_self)]
    exact ih (perform s e) fun d hd => hquiet d (List.mem_cons_of_mem e hd)

end Reads

end ProgressDisplay
