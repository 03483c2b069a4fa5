import ProgressDisplay.Proofs.Screen.Delivery
import ProgressDisplay.Proofs.Screen.Plotter
import ProgressDisplay.Proofs.Style.LongestPrefix
import ProgressDisplay.Text.Pieces

/-!
# Strokes of the pen

What a pen does falls into strokes: it moves, erases or breaks the line, draws a line of spans, or
writes text in a style. `Stroke.marks` says what a terminal notes of a stroke. Everything but spans
and text is done in the default rendition, and each stroke ends in it, where the next one starts.

* `Text.Expands`: text as it is printed, with blanks for its tabs.
* `Pen.Made.line`, `Pen.Made.tabbed`: a pen draws spans and text in the renditions of their styles.
-/

namespace ProgressDisplay

/-- One step of drawing. -/
inductive Stroke where
  | motion
  | erasure
  | lineBreak
  | line (content : Line)
  | text (style : Style) (characters : List Char)

namespace Stroke

/-- What a stroke is on a terminal: each character is printed in the rendition of its style, and
everything else is done in the default rendition. -/
def marks (palette : Palette) : Stroke → List (Mark × Rendition)
  | motion => [(.motion, .plain)]
  | erasure => [(.erasure, .plain)]
  | lineBreak => [(.motion, .plain), (.lineFeed, .plain)]
  | line content => content.glyphs.map fun g => (.character g.2, palette g.1)
  | text style characters => characters.map fun c => (.character c, palette style)

/-- The text that is written by a stroke. -/
def written : Stroke → List Char
  | text _ characters => characters
  | _ => []

def erasureIf (erase : Bool) : List Stroke := if erase then [erasure] else []

theorem written_replicate (count : Nat) {k : Stroke} (hk : k.written = []) :
    (List.replicate count k).flatMap written = [] := by
  rw [List.flatMap_eq_nil_iff]
  intro l hl
  rw [List.eq_of_mem_replicate hl, hk]

theorem written_erasureIf (erase : Bool) : (erasureIf erase).flatMap written = [] := by
  cases erase <;> rfl

theorem marks_line_cons (palette : Palette) (s : Span) (rest : Line) :
    marks palette (line (s :: rest)) =
      marks palette (text s.style s.text.toList) ++ marks palette (line rest) := by
  rw [marks, Line.glyphs_cons, List.map_append, List.map_map]
  rfl

end Stroke

/-- Read in the default rendition, the emissions are the strokes, and they end in it. -/
def Paints (palette : Palette) (strokes : List Stroke) (emissions : List Emission) : Prop :=
  ∀ marks, Ink.performAll ⟨.plain, marks⟩ emissions =
    ⟨.plain, marks ++ strokes.flatMap (Stroke.marks palette)⟩

section

variable {palette : Palette} {strokes more : List Stroke} {emissions others : List Emission}

theorem paints_nil : Paints palette [] [] := by
  intro marks
  rw [List.flatMap_nil, List.append_nil]
  rfl

theorem Paints.append (h : Paints palette strokes emissions) (h' : Paints palette more others) :
    Paints palette (strokes ++ more) (emissions ++ others) := by
  intro marks
  rw [Ink.performAll_append, h, h', List.flatMap_append, List.append_assoc]

/-- Strokes that leave the same marks. -/
theorem Paints.congr (h : Paints palette strokes emissions)
    (hsame : more.flatMap (Stroke.marks palette) = strokes.flatMap (Stroke.marks palette)) :
    Paints palette more emissions := by
  intro marks
  rw [hsame]
  exact h marks

theorem paints_singleton {k : Stroke} {e : Emission}
    (h : ∀ marks, Ink.perform ⟨.plain, marks⟩ e = ⟨.plain, marks ++ k.marks palette⟩) :
    Paints palette [k] [e] := by
  intro marks
  rw [List.flatMap_singleton]
  exact h marks

theorem paints_lineBreak : Paints palette [.lineBreak] [.lineBreak] := by
  refine paints_singleton fun marks => ?_
  simp [Ink.perform, Ink.mark, Stroke.marks]

theorem Position.perform_motions (start target : Position) :
    ∀ e ∈ start.motions target, ∀ s : Ink, s.perform e = s.mark .motion := by
  intro e he s
  unfold motions at he
  split at he
  · split at he
    · obtain rfl := List.mem_singleton.mp he
      rfl
    · split at he
      · obtain rfl := List.mem_singleton.mp he
        rfl
      · cases he
  · simp only [List.mem_append] at he
    rcases he with (he | he) | he
    all_goals
      split at he
      all_goals simp only [List.mem_singleton, List.not_mem_nil] at he
      all_goals
        subst he
        rfl

theorem paints_motions (start target : Position) :
    Paints palette (List.replicate (start.motions target).length .motion)
      (start.motions target) := by
  have hmotions := start.perform_motions target
  generalize start.motions target = emissions at hmotions
  induction emissions with
  | nil => exact paints_nil
  | cons e rest ih =>
    have hfirst : Paints palette [.motion] [e] :=
      paints_singleton fun marks => hmotions e List.mem_cons_self ⟨.plain, marks⟩
    exact hfirst.append (ih fun d hd => hmotions d (List.mem_cons_of_mem e hd))

end

namespace Text

/-- The characters are those of the text, with one to eight blanks for each tab. -/
inductive Expands : List Char → List Char → Prop
  | nil : Expands [] []
  | character {c : Char} {text characters : List Char} (hc : c ≠ '\t')
      (rest : Expands text characters) : Expands (c :: text) (c :: characters)
  | tab {text characters : List Char} {n : Nat} (hn : n < 8) (rest : Expands text characters) :
      Expands ('\t' :: text) (List.replicate (n + 1) ' ' ++ characters)

namespace Expands

variable {first second text characters others : List Char}

theorem append (h : Expands first characters) (h' : Expands second others) :
    Expands (first ++ second) (characters ++ others) := by
  induction h with
  | nil => exact h'
  | character hc _ ih => exact .character hc ih
  | tab hn _ ih =>
    rw [List.append_assoc]
    exact .tab hn ih

theorem of_not_mem (h : '\t' ∉ text) : Expands text text := by
  induction text with
  | nil => exact .nil
  | cons c rest ih =>
    refine .character ?_ (ih fun hrest => h (List.mem_cons_of_mem c hrest))
    rintro rfl
    exact h List.mem_cons_self

end Expands

end Text

/-! ## Pens -/

/-- The motions with which a writer comes to a place. -/
def Writer.approach (w : Writer) (place : Position) : List Stroke :=
  List.replicate (w.cursor.motions place).length .motion

namespace Pen

variable {palette : Palette} {strokes more : List Stroke} {characters others : List Char}
  {p q r : Pen}

/-- From one pen to another, characters were printed in the rendition that was on. -/
structure Prints (characters : List Char) (p q : Pen) : Prop where
  palette : q.palette = p.palette
  emitted : ∃ emissions, q.emitted = p.emitted ++ emissions ∧ ∀ s : Ink,
    s.performAll emissions =
      { s with marks := s.marks ++ characters.map fun c => (.character c, s.rendition) }

namespace Prints

theorem refl (p : Pen) : p.Prints [] p where
  palette := rfl
  emitted := ⟨[], (List.append_nil _).symm, fun s => by simp [Ink.performAll]⟩

theorem trans (h : p.Prints characters q) (h' : q.Prints others r) :
    p.Prints (characters ++ others) r where
  palette := h'.palette.trans h.palette
  emitted := by
    obtain ⟨first, hfirst, hread⟩ := h.emitted
    obtain ⟨second, hsecond, hread'⟩ := h'.emitted
    refine ⟨first ++ second, ?_, fun s => ?_⟩
    · rw [hsecond, hfirst, List.append_assoc]
    · rw [Ink.performAll_append, hread, hread', List.map_append, List.append_assoc]

theorem text (p : Pen) (content : String) : p.Prints content.toList (p.text content) where
  palette := by
    unfold Pen.text
    split <;> rfl
  emitted := ⟨_, emitted_text p content, fun s => s.performAll_text content⟩

theorem piece (p : Pen) (piece : List Char) : p.Prints piece (p.text (String.ofList piece)) := by
  have htext := text p (String.ofList piece)
  rwa [String.toList_ofList] at htext

theorem tab (p : Pen) : ∃ n < 8, p.Prints (List.replicate (n + 1) ' ') p.tab := by
  have hblanks : tabWidth - p.column % tabWidth = 7 - p.column % 8 + 1 := by
    unfold tabWidth
    omega
  refine ⟨7 - p.column % 8, by omega, ?_⟩
  rw [Pen.tab, hblanks]
  exact piece p _

/-- Pieces with tabs between them are printed as the text that they are the pieces of. -/
theorem tabbed (p : Pen) {pieces : List (List Char)} (h : ∀ piece ∈ pieces, '\t' ∉ piece) :
    ∃ characters, Text.Expands (['\t'].intercalate pieces) characters ∧
      p.Prints characters (p.tabbed pieces) := by
  induction pieces generalizing p with
  | nil => exact ⟨[], .nil, refl p⟩
  | cons first rest ih =>
    have hfirst : Text.Expands first first := .of_not_mem (h first List.mem_cons_self)
    cases rest with
    | nil =>
      rw [List.intercalate_singleton]
      exact ⟨first, hfirst, piece p first⟩
    | cons next others =>
      obtain ⟨n, hn, htab⟩ := tab (p.text (String.ofList first))
      obtain ⟨characters, hexpands, hrest⟩ := ih (p.text (String.ofList first)).tab
        fun d hd => h d (List.mem_cons_of_mem first hd)
      refine ⟨first ++ (List.replicate (n + 1) ' ' ++ characters), ?_,
        (piece p first).trans (htab.trans hrest)⟩
      rw [List.intercalate_cons_cons, List.append_assoc]
      exact hfirst.append (.tab hn hexpands)

end Prints

/-- What the pen has emitted so far are these strokes. -/
structure Made (palette : Palette) (strokes : List Stroke) (p : Pen) : Prop where
  colors : p.palette = palette
  emitted : Paints palette strokes p.emitted

theorem made_penAt (w : Writer) (place : Position) :
    (w.penAt place).Made w.palette (w.approach place) := ⟨rfl, paints_motions w.cursor place⟩

namespace Made

theorem emit {emissions : List Emission} (h : p.Made palette strokes)
    (hemissions : Paints palette more emissions) :
    (p.emit emissions).Made palette (strokes ++ more) :=
  ⟨h.colors, h.emitted.append hemissions⟩

theorem eraseRest (h : p.Made palette strokes) :
    p.eraseRest.Made palette (strokes ++ [.erasure]) :=
  h.emit (paints_singleton fun _ => rfl)

theorem eraseRestIf (h : p.Made palette strokes) (erase : Bool) :
    (p.eraseRestIf erase).Made palette (strokes ++ Stroke.erasureIf erase) := by
  cases erase with
  | true => exact h.eraseRest
  | false => exact ⟨h.colors, h.emitted.congr (by simp [Stroke.erasureIf])⟩

theorem breakLine (h : p.Made palette strokes) :
    p.breakLine.Made palette (strokes ++ [.lineBreak]) := by
  have hemitted := h.emit paints_lineBreak
  unfold Pen.breakLine
  split
  all_goals exact ⟨hemitted.colors, hemitted.emitted⟩

theorem breakLines (h : p.Made palette strokes) (rows : Nat) :
    (Pen.breakLines rows p).Made palette (strokes ++ List.replicate rows .lineBreak) := by
  induction rows generalizing p strokes with
  | zero =>
    rw [List.replicate_zero, List.append_nil]
    exact h
  | succ rows ih =>
    rw [List.replicate_succ, List.append_cons]
    exact ih h.breakLine

/-- What is printed between the two switches of a style is drawn in its rendition. -/
theorem styled {body : Pen → Pen} (h : p.Made palette strokes) (style : Style)
    (hbody : (p.emit (p.palette style).on).Prints characters
      (body (p.emit (p.palette style).on))) :
    (p.styled style body).Made palette (strokes ++ [.text style characters]) where
  colors := hbody.palette.trans h.colors
  emitted := by
    obtain ⟨emissions, hemitted, hread⟩ := hbody.emitted
    intro marks
    have hpen : (p.styled style body).emitted =
        p.emitted ++ (palette style).on ++ emissions ++ (palette style).off := by
      rw [← h.colors]
      exact congrArg (· ++ _) hemitted
    rw [hpen, Ink.performAll_append, Ink.performAll_append, Ink.performAll_append, h.emitted,
      Ink.performAll_on, hread, Ink.performAll_off, List.flatMap_append, List.flatMap_singleton,
      List.append_assoc]
    rfl

theorem line (h : p.Made palette strokes) (content : Line) :
    (p.line content).Made palette (strokes ++ [.line content]) := by
  induction content generalizing p strokes with
  | nil =>
    refine ⟨h.colors, h.emitted.congr ?_⟩
    rw [List.flatMap_append]
    exact List.append_nil _
  | cons s rest ih =>
    have hspan : (p.styled s.style fun p => p.text s.text).Made palette
        (strokes ++ [.text s.style s.text.toList]) := h.styled s.style (Prints.text _ s.text)
    have hrest := ih hspan
    refine ⟨hrest.colors, hrest.emitted.congr ?_⟩
    simp only [List.flatMap_append, List.flatMap_singleton, Stroke.marks_line_cons,
      List.append_assoc]

theorem tabbed (h : p.Made palette strokes) (style : Style) (text : List Char) :
    ∃ characters, Text.Expands text characters ∧
      (p.styled style fun p => p.tabbed (Text.pieces '\t' text)).Made palette
        (strokes ++ [.text style characters]) := by
  have hpieces : ∀ piece ∈ Text.pieces '\t' text, '\t' ∉ piece :=
    fun piece hpiece => Text.not_mem_of_mem_pieces hpiece
  obtain ⟨characters, hexpands, hprints⟩ :=
    Prints.tabbed (p.emit (p.palette style).on) hpieces
  rw [Text.intercalate_pieces] at hexpands
  exact ⟨characters, hexpands, h.styled style hprints⟩

end Made

end Pen

end ProgressDisplay
