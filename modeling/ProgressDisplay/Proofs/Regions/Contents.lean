import ProgressDisplay.Proofs.Completion
import ProgressDisplay.Proofs.Regions.Accuracy
import ProgressDisplay.Regions.Page

/-!
# What the lines are to show

The contents of the block's lines are set by whoever owns the block. Redraws and output move the
lines and note what was drawn, but never change the contents, even if they fail half way.

* `Page.contents_flush`, `Page.contents_outputAll`: neither a redraw nor output changes them.
-/

namespace ProgressDisplay

namespace AnchoredLine

theorem content_clear (l : AnchoredLine) (w : Writer) :
    (l.clear w).state.1.content = l.content :=
  Attempt.unchanged_ofExcept (f := fun s : AnchoredLine × Writer => s.1.content) fun _ => rfl

theorem content_draw (l : AnchoredLine) (w : Writer) :
    (l.draw w).state.1.content = l.content :=
  Attempt.unchanged_ofExcept (f := fun s : AnchoredLine × Writer => s.1.content) fun _ => rfl

theorem content_redraw (l : AnchoredLine) (w : Writer) :
    (l.redraw w).state.1.content = l.content := by
  unfold redraw
  split
  · split
    · rfl
    · exact content_draw l w
  · split
    · exact content_clear l w
    · rfl

theorem map_content_redrawAll (lines : List AnchoredLine) (w : Writer) :
    (redrawAll lines w).state.1.map content = lines.map content := by
  induction lines generalizing w with
  | nil => rfl
  | cons l rest ih =>
    unfold redrawAll
    simp only
    split
    · simp only [List.map_cons, content_redraw]
    · simp only [Attempt.map, List.map_cons, content_redraw, ih]

end AnchoredLine

namespace Page

open Attempt

/-- The contents of the lines of the block, top first. -/
def contents (s : Page) : List Line := s.block.contents

theorem contents_clearBlock (s : Page) (pending : Bool) :
    (s.clearBlock pending).state.contents = s.contents := by
  unfold clearBlock
  simp only
  split
  · rfl
  · exact unchanged_ofExcept fun _ => StatusBlock.contents_raise

theorem contents_anchorBlock (s : Page) : s.anchorBlock.state.contents = s.contents := by
  unfold anchorBlock
  split
  · exact unchanged_andThen (contents_clearBlock s false) fun _ => rfl
  · rfl

theorem contents_redrawLines (s : Page) : s.redrawLines.state.contents = s.contents :=
  AnchoredLine.map_content_redrawAll s.block.lines s.writer

theorem contents_restCursor (s : Page) : s.restCursor.state.contents = s.contents :=
  unchanged_ofExcept fun _ => rfl

theorem contents_redrawBlock (s : Page) : s.redrawBlock.state.contents = s.contents :=
  unchanged_andThen (unchanged_andThen (contents_anchorBlock s) contents_redrawLines)
    contents_restCursor

theorem contents_vacateLine (s : Page) : s.vacateLine.state.contents = s.contents := by
  unfold vacateLine
  split
  · rfl
  · exact unchanged_andThen (contents_clearBlock s true) contents_redrawBlock

theorem contents_drawText (draw : Pen → Pen) (s : Page) :
    (s.drawText draw).state.contents = s.contents :=
  unchanged_ofExcept fun _ => StatusBlock.contents_raise

theorem contents_writeText (text : List Char) (s : Page) :
    (s.writeText text).state.contents = s.contents := by
  unfold writeText
  split
  · rfl
  · exact unchanged_andThen (contents_vacateLine s) (contents_drawText _)

theorem contents_endLine (s : Page) : s.endLine.state.contents = s.contents :=
  unchanged_andThen (contents_vacateLine s) fun t => contents_drawText _ t

theorem contents_writeLines : ∀ (lines : List (List Char)) (s : Page),
    (writeLines lines s).state.contents = s.contents
  | [], _ => rfl
  | [last], s => contents_writeText (withoutReturn last) s
  | line :: next :: rest, s =>
    unchanged_andThen
      (unchanged_andThen (contents_writeText (withoutReturn line) s) contents_endLine)
      (contents_writeLines (next :: rest))

theorem contents_output (request : OutputRequest) (s : Page) :
    (s.output request).state.contents = s.contents := by
  cases request with
  | style style => rfl
  | text text => exact contents_writeLines _ s
  | endLine => exact contents_endLine s
  | line text => exact unchanged_andThen (contents_writeLines _ s) contents_endLine

theorem contents_outputAll (s : Page) (requests : List OutputRequest) :
    (s.outputAll requests).state.contents = s.contents :=
  unchanged_each contents_output requests s

theorem contents_flushDevice (s : Page) : s.flushDevice.state.contents = s.contents :=
  unchanged_ofExcept fun _ => rfl

theorem contents_flush (s : Page) : s.flush.state.contents = s.contents :=
  unchanged_andThen (contents_redrawBlock s) contents_flushDevice

theorem contents_setVisible (s : Page) (visible : Bool) :
    (s.setVisible visible).contents = s.contents :=
  StatusBlock.contents_setVisible

theorem contents_close (s : Page) : s.close.state.contents = s.contents :=
  (contents_flush (s.setVisible false)).trans (contents_setVisible s false)

end Page

end ProgressDisplay
