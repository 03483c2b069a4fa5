import ProgressDisplay.Proofs.Regions.Contents
import ProgressDisplay.Proofs.Screen.Delivery

/-!
# What a page delivers

A page writes the contents of its lines, the text that it is given, and blanks; everything else that
it sends to the device is no text. It stops early only where the device refuses something.

* `Page.delivers_redrawBlock`, `Page.delivers_writeLines`, `Page.delivers_flush`: one lemma for each
  operation.
-/

namespace ProgressDisplay

open Attempt

variable {allowed : Char → Prop}

namespace AnchoredLine

/-- The device behind a writer that comes with what was drawn through it. -/
def device {α : Type} (s : α × Writer) : Device := s.2.device

theorem delivers_redraw {l : AnchoredLine} (w : Writer) (h : l.content.Over allowed) :
    (l.redraw w).Delivers (Emission.Over allowed) device w.device := by
  unfold redraw
  split
  · split
    · exact .done (.refl _)
    · exact .drawAt ((Pen.emits_penAt w _).line h).eraseRest rfl fun _ => rfl
  · split
    · exact .drawAt (Pen.emits_penAt w _).eraseRest rfl fun _ => rfl
    · exact .done (.refl _)

theorem delivers_redrawAll {lines : List AnchoredLine} (w : Writer)
    (h : ∀ l ∈ lines, l.content.Over allowed) :
    (redrawAll lines w).Delivers (Emission.Over allowed) device w.device := by
  induction lines generalizing w with
  | nil => exact .done (.refl _)
  | cons l rest ih =>
    have hfirst := delivers_redraw w (h l List.mem_cons_self)
    unfold redrawAll
    simp only
    cases hfailure : (l.redraw w).failure with
    | some failure =>
      refine ⟨hfirst.grew, fun hreliable => ?_⟩
      rw [hfirst.completes hreliable] at hfailure
      cases hfailure
    | none =>
      have hrest := ih (l.redraw w).state.2 fun d hd => h d (List.mem_cons_of_mem l hd)
      exact ⟨hfirst.grew.trans hrest.grew,
        fun hreliable => hrest.completes (hfirst.grew.reliable hreliable)⟩

end AnchoredLine

namespace Page

variable {s : Page}

def device (s : Page) : Device := s.writer.device

/-- The contents of all lines consist of the characters that are allowed. -/
def Legible (allowed : Char → Prop) (s : Page) : Prop :=
  ∀ content ∈ s.contents, content.Over allowed

theorem Legible.of_contents {u : Page} (h : s.Legible allowed) (hu : u.contents = s.contents) :
    u.Legible allowed := by
  rw [Legible, hu]
  exact h

/-- A page whose texts may hold anything. -/
theorem legible_any (s : Page) : s.Legible fun _ => True := fun _ _ _ _ => trivial

theorem Legible.lines (h : s.Legible allowed) : ∀ l ∈ s.block.lines, l.content.Over allowed :=
  fun _ hl => h _ (List.mem_map_of_mem hl)

theorem delivers_clearBlock (s : Page) (pending : Bool) :
    (s.clearBlock pending).Delivers (Emission.Over allowed) device s.device := by
  unfold clearBlock
  simp only
  split
  · exact .done (.refl _)
  · exact .drawAt ((Pen.emits_penAt s.writer _).breakLines _) rfl fun _ => rfl

theorem delivers_anchorBlock (s : Page) :
    s.anchorBlock.Delivers (Emission.Over allowed) device s.device := by
  unfold anchorBlock
  split
  · exact (delivers_clearBlock s false).andThen (.done (.refl _))
  · exact .done (.refl _)

theorem delivers_redrawLines (h : s.Legible allowed) :
    s.redrawLines.Delivers (Emission.Over allowed) device s.device :=
  .map (AnchoredLine.delivers_redrawAll s.writer h.lines)

theorem delivers_restCursor (s : Page) :
    s.restCursor.Delivers (Emission.Over allowed) device s.device :=
  .moveTo rfl fun _ => rfl

theorem delivers_redrawBlock (h : s.Legible allowed) :
    s.redrawBlock.Delivers (Emission.Over allowed) device s.device :=
  ((delivers_anchorBlock s).andThen
    (delivers_redrawLines (h.of_contents (contents_anchorBlock s)))).andThen (delivers_restCursor _)

theorem delivers_flushDevice (s : Page) :
    s.flushDevice.Delivers (Emission.Over allowed) device s.device :=
  .flush rfl fun _ => rfl

theorem delivers_flush (h : s.Legible allowed) :
    s.flush.Delivers (Emission.Over allowed) device s.device :=
  (delivers_redrawBlock h).andThen (delivers_flushDevice _)

theorem delivers_close (h : s.Legible allowed) :
    s.close.Delivers (Emission.Over allowed) device s.device :=
  delivers_flush (h.of_contents (contents_setVisible s false))

theorem delivers_vacateLine (h : s.Legible allowed) :
    s.vacateLine.Delivers (Emission.Over allowed) device s.device := by
  unfold vacateLine
  split
  · exact .done (.refl _)
  · exact (delivers_clearBlock s true).andThen
      (delivers_redrawBlock (h.of_contents (contents_clearBlock s true)))

theorem delivers_drawText (s : Page) {draw : Pen → Pen}
    (hdraw : ∀ p : Pen, p.Emits allowed → (draw p).Emits allowed) :
    (s.drawText draw).Delivers (Emission.Over allowed) device s.device :=
  .drawAt (hdraw _ (Pen.emits_penAt s.writer s.text)) rfl fun _ => rfl

/-- The tabs of a text are not written. -/
def LegibleText (allowed : Char → Prop) (text : List Char) : Prop :=
  ∀ c ∈ text, c ≠ '\t' → allowed c

variable (hblank : allowed ' ')

include hblank

theorem delivers_writeText {text : List Char} (h : s.Legible allowed)
    (htext : LegibleText allowed text) :
    (s.writeText text).Delivers (Emission.Over allowed) device s.device := by
  have hpieces : ∀ piece ∈ Text.pieces '\t' text, ∀ c ∈ piece, allowed c := by
    intro piece hpiece c hc
    refine htext c (Text.mem_of_mem_pieces hpiece hc) ?_
    rintro rfl
    exact Text.not_mem_of_mem_pieces hpiece hc
  unfold writeText
  split
  · exact .done (.refl _)
  · refine (delivers_vacateLine h).andThen (delivers_drawText _ fun p hp => ?_)
    exact (hp.eraseRestIf _).styled _ fun q hq => hq.tabbed hblank hpieces

omit hblank in
theorem delivers_endLine (h : s.Legible allowed) :
    s.endLine.Delivers (Emission.Over allowed) device s.device :=
  (delivers_vacateLine h).andThen
    (delivers_drawText _ fun _ hp => (hp.eraseRestIf _).breakLine)

theorem delivers_writeLines {lines : List (List Char)} (h : s.Legible allowed)
    (hlines : ∀ line ∈ lines, LegibleText allowed (withoutReturn line)) :
    (writeLines lines s).Delivers (Emission.Over allowed) device s.device := by
  induction lines generalizing s with
  | nil => exact .done (.refl _)
  | cons line rest ih =>
    have hline := delivers_writeText hblank h (hlines line List.mem_cons_self)
    cases rest with
    | nil => exact hline
    | cons next others =>
      have hwritten := h.of_contents (contents_writeText (withoutReturn line) s)
      have hended : (((s.writeText (withoutReturn line)).andThen endLine).state).contents =
          s.contents :=
        unchanged_andThen (contents_writeText (withoutReturn line) s) contents_endLine
      exact (hline.andThen (delivers_endLine hwritten)).andThen
        (ih (h.of_contents hended) fun d hd => hlines d (List.mem_cons_of_mem line hd))

end Page

/-- Text whose characters are allowed, but for its line ends and tabs. -/
def OutputRequest.Over (allowed : Char → Prop) : OutputRequest → Prop
  | .text content | .line content =>
    ∀ line ∈ Text.pieces '\n' content.toList, Page.LegibleText allowed (Page.withoutReturn line)
  | _ => True

namespace Page

variable {s : Page} {request : OutputRequest} (hblank : allowed ' ')

include hblank

theorem delivers_output (h : s.Legible allowed) (hrequest : request.Over allowed) :
    (s.output request).Delivers (Emission.Over allowed) device s.device := by
  cases request with
  | style style => exact .done (.refl _)
  | text content => exact delivers_writeLines hblank h hrequest
  | endLine => exact delivers_endLine h
  | line content =>
    exact (delivers_writeLines hblank h hrequest).andThen
      (delivers_endLine (h.of_contents (contents_writeLines _ s)))

end Page

end ProgressDisplay
