import ProgressDisplay.Proofs.Screen.ControlSequence

/-!
# The rendition that is on

A `Plotter` is a terminal of which nothing is kept but renditions. It reads what is sent to it
character by character, selects renditions as it is told, and notes in which of them each character
is printed, each part of a line is erased, each line feed is done and the cursor is moved.

* `readAll_renderAll`: a plotter that is between two sequences reads emissions as the changes that
  `Ink.perform` gives.
* `Ink.performAll_on`, `Ink.performAll_off`: a rendition is switched on from the default one, and
  what switches it off ends in the default one.
-/

namespace ProgressDisplay

/-- What a terminal does in the rendition that is on. -/
inductive Mark where
  | character (c : Char)
  | erasure
  | lineFeed
  /-- a motion of the cursor, also to the start of its line -/
  | motion
  deriving DecidableEq

/-- The rendition that is on, and what was done before, each with the rendition that was on. -/
structure Ink where
  rendition : Rendition := .plain
  marks : List (Mark × Rendition) := []
  deriving DecidableEq

/-- The rendition after a selection by numbers. A number that stands for nothing is passed over. -/
def Rendition.select : List Nat → Rendition → Rendition
  | [], r => r
  | 38 :: 2 :: red :: green :: blue :: rest, r =>
    select rest { r with foreground := some ⟨.ofNat red, .ofNat green, .ofNat blue⟩ }
  | 0 :: rest, _ => select rest .plain
  | 1 :: rest, r => select rest { r with emphasis := { r.emphasis with bold := true } }
  | 3 :: rest, r => select rest { r with emphasis := { r.emphasis with italic := true } }
  | 7 :: rest, r => select rest { r with emphasis := { r.emphasis with reverse := true } }
  | _ :: rest, r => select rest r

namespace Ink

variable (s : Ink)

def mark (m : Mark) : Ink := { s with marks := s.marks ++ [(m, s.rendition)] }

def put (c : Char) : Ink := s.mark (.character c)

def select (numbers : List Nat) : Ink := { s with rendition := s.rendition.select numbers }

/-- The change that an emission stands for. -/
def perform (s : Ink) : Emission → Ink
  | .up _ | .down _ | .right _ | .left _ => s.mark .motion
  | .eraseRest => s.mark .erasure
  | .bold => s.select [1]
  | .italic => s.select [3]
  | .reverse => s.select [7]
  | .foreground c => s.select [38, 2, c.red.toNat, c.green.toNat, c.blue.toNat]
  | .reset => s.select [0]
  | .text content => content.toList.foldl put s
  | .lineBreak => (s.mark .motion).mark .lineFeed

def performAll (s : Ink) (emissions : List Emission) : Ink := emissions.foldl perform s

theorem performAll_append (first second : List Emission) :
    s.performAll (first ++ second) = (s.performAll first).performAll second :=
  List.foldl_append

theorem foldl_put (text : List Char) :
    text.foldl put s =
      { s with marks := s.marks ++ text.map fun c => (.character c, s.rendition) } := by
  induction text generalizing s with
  | nil => simp
  | cons c rest ih =>
    rw [List.foldl_cons, ih]
    simp [put, mark]

theorem performAll_text (content : String) :
    s.performAll (if content = "" then [] else [.text content]) =
      { s with marks := s.marks ++ content.toList.map fun c => (.character c, s.rendition) } := by
  rw [← foldl_put]
  split
  · rename_i hempty
    rw [hempty]
    rfl
  · rfl

/-- From the default rendition, all that a rendition consists of is switched on. -/
theorem performAll_on (r : Rendition) (marks : List (Mark × Rendition)) :
    performAll ⟨.plain, marks⟩ r.on = ⟨r, marks⟩ := by
  obtain ⟨foreground, ⟨bold, italic, reverse⟩⟩ := r
  cases foreground with
  | none => cases bold <;> cases italic <;> cases reverse <;> rfl
  | some color =>
    have hcolor : (⟨.ofNat color.red.toNat, .ofNat color.green.toNat, .ofNat color.blue.toNat⟩ :
        Rgb) = color := by
      simp only [UInt8.ofNat_toNat]
    cases bold <;> cases italic <;> cases reverse
    all_goals
      conv => rhs; rw [← hcolor]
      rfl

theorem performAll_off (r : Rendition) (marks : List (Mark × Rendition)) :
    performAll ⟨r, marks⟩ r.off = ⟨.plain, marks⟩ := by
  unfold Rendition.off
  split
  · rename_i hplain
    obtain rfl := eq_of_beq hplain
    rfl
  · rfl

end Ink

/-- How far a plotter has read a control sequence. -/
inductive Scan where
  /-- between two sequences -/
  | ground
  /-- after the escape character -/
  | escape
  /-- after the introducer, with the numbers before the latest separator and the one behind it as
  far as it was read -/
  | numbers (before : List Nat) (last : Nat)
  deriving DecidableEq

structure Plotter where
  ink : Ink := {}
  scan : Scan := .ground
  deriving DecidableEq

namespace Plotter

/-- The end of a control sequence. -/
def finish (s : Ink) (numbers : List Nat) : Char → Ink
  | 'A' | 'B' | 'C' | 'D' => s.mark .motion
  | 'K' => s.mark .erasure
  | 'm' => s.select numbers
  | _ => s

/-- Reads one character. -/
def read (t : Plotter) (c : Char) : Plotter :=
  match t.scan with
  | .ground =>
    if c = '\x1b' then { t with scan := .escape }
    else if c = '\r' then { t with ink := t.ink.mark .motion }
    else if c = '\n' then { t with ink := t.ink.mark .lineFeed }
    else { t with ink := t.ink.put c }
  | .escape => { t with scan := if c = '[' then .numbers [] 0 else .ground }
  | .numbers before last =>
    if c.isDigit then { t with scan := .numbers before (10 * last + (c.toNat - '0'.toNat)) }
    else if c = ';' then { t with scan := .numbers (before ++ [last]) 0 }
    else { ink := finish t.ink (before ++ [last]) c }

def readAll (t : Plotter) (text : List Char) : Plotter := text.foldl read t

/-- A fresh plotter that everything was sent to. -/
def replay (output : List Emission) : Plotter := readAll {} (Emission.renderAll output).toList

variable (t : Plotter) (s : Ink) (before : List Nat)

theorem readAll_append (first second : String) :
    readAll t (first ++ second).toList = (readAll t first.toList).readAll second.toList := by
  rw [String.toList_append]
  exact List.foldl_append

theorem readAll_repr (n : Nat) :
    readAll ⟨s, .numbers before 0⟩ n.repr.toList = ⟨s, .numbers before n⟩ := by
  have hdigit (value : Nat) (c : Char) (hc : c.isDigit = true) :
      read ⟨s, .numbers before value⟩ c =
        ⟨s, .numbers before (10 * value + (c.toNat - '0'.toNat))⟩ := by
    simp only [read, hc, if_true]
  exact foldl_repr hdigit n

theorem readAll_sequence (body : String) :
    readAll { ink := s } (Emission.introducer ++ body).toList =
      readAll ⟨s, .numbers [] 0⟩ body.toList := by
  rw [readAll_append]
  rfl

theorem readAll_motion (n : Nat) (final : String) :
    readAll { ink := s } (Emission.introducer ++ n.repr ++ final).toList =
      readAll ⟨s, .numbers [] n⟩ final.toList := by
  rw [String.append_assoc, readAll_sequence, readAll_append, readAll_repr]

theorem readAll_foreground (color : Rgb) :
    readAll { ink := s } (Emission.foreground color).render.toList =
      { ink := s.perform (.foreground color) } := by
  have hkind : readAll ⟨s, .numbers [] 0⟩ "38;2;".toList = ⟨s, .numbers [38, 2] 0⟩ := rfl
  have hnext (before : List Nat) (n : Nat) : readAll ⟨s, .numbers before n⟩ ";".toList =
      ⟨s, .numbers (before ++ [n]) 0⟩ := rfl
  have hend (before : List Nat) (n : Nat) : readAll ⟨s, .numbers before n⟩ "m".toList =
      { ink := s.select (before ++ [n]) } := rfl
  have hintroducer : readAll { ink := s } Emission.introducer.toList = ⟨s, .numbers [] 0⟩ := rfl
  simp only [Emission.render, readAll_append, hintroducer, hkind, readAll_repr, hnext, hend]
  rfl

theorem readAll_quietText {text : List Char}
    (htext : ∀ c ∈ text, c ≠ '\x1b' ∧ c ≠ '\r' ∧ c ≠ '\n') :
    readAll { ink := s } text = { ink := text.foldl Ink.put s } := by
  induction text generalizing s with
  | nil => rfl
  | cons c rest ih =>
    obtain ⟨hescape, hreturn, hfeed⟩ := htext c List.mem_cons_self
    have hread : read { ink := s } c = { ink := s.put c } := by
      simp only [read, if_neg hescape, if_neg hreturn, if_neg hfeed]
    rw [readAll, List.foldl_cons, hread]
    exact ih (s.put c) fun d hd => htext d (List.mem_cons_of_mem c hd)

theorem readAll_render {e : Emission} (hquiet : e.Quiet) :
    readAll { ink := s } e.render.toList = { ink := s.perform e } := by
  cases e with
  | up n => exact readAll_motion s n "A"
  | down n => exact readAll_motion s n "B"
  | right n => exact readAll_motion s n "C"
  | left n => exact readAll_motion s n "D"
  | eraseRest => exact readAll_sequence s "K"
  | bold => exact readAll_sequence s "1m"
  | italic => exact readAll_sequence s "3m"
  | reverse => exact readAll_sequence s "7m"
  | reset => exact readAll_sequence s "0m"
  | foreground color => exact readAll_foreground s color
  | text content => exact readAll_quietText s hquiet
  | lineBreak => rfl

theorem readAll_renderAll {emissions : List Emission} (hquiet : ∀ e ∈ emissions, e.Quiet) :
    readAll { ink := s } (Emission.renderAll emissions).toList =
      { ink := s.performAll emissions } := by
  induction emissions generalizing s with
  | nil => rfl
  | cons e rest ih =>
    rw [Emission.renderAll, List.map_cons, String.join_cons, readAll_append,
      readAll_render s (hquiet e List.mem_cons_self)]
    exact ih (s.perform e) fun d hd => hquiet d (List.mem_cons_of_mem e hd)

/-- What was sent to a fresh plotter is read as the changes that it stands for. -/
theorem replay_eq {output : List Emission} (hquiet : ∀ e ∈ output, e.Quiet) :
    replay output = { ink := Ink.performAll {} output } := readAll_renderAll {} hquiet

end Plotter

end ProgressDisplay
