import ProgressDisplay.Proofs.Completion
import ProgressDisplay.Proofs.Screen.Printout
import ProgressDisplay.Regions.Page

/-!
# Pages that look alike

What a page has written is a list of emissions, but the terminal only reads the characters that
these amount to. Two pages are `Alike` if they have written the same characters, have the same in
all other respects, and their devices take all writes. What is done to both then completes on both
and leaves them alike.

* `Page.Alike.redrawBlock`, `Page.Alike.writeLines`: what is done to two pages that are alike.
-/

namespace ProgressDisplay

open Attempt

namespace Writer

variable {w w' : Writer}

/-- The writers have written the same, and draw and go on alike. -/
structure Alike (w w' : Writer) : Prop where
  writes : w.device.writeFault = .none
  writes' : w'.device.writeFault = .none
  output : Emission.renderAll w.device.output = Emission.renderAll w'.device.output
  palette : w.palette = w'.palette
  cursor : w.cursor = w'.cursor

namespace Alike

theorem refl (h : w.device.writeFault = .none) : w.Alike w := ⟨h, h, rfl, rfl, rfl⟩

theorem penAt (h : w.Alike w') (place : Position) : w.penAt place = w'.penAt place := by
  rw [Writer.penAt, Writer.penAt, h.palette, h.cursor]

theorem deliver (h : w.Alike w') (p : Pen) : (w.deliver p).Alike (w'.deliver p) where
  writes := h.writes
  writes' := h.writes'
  output := by
    show Emission.renderAll (_ ++ _) = Emission.renderAll (_ ++ _)
    rw [Emission.renderAll_append, Emission.renderAll_append, h.output]
  palette := h.palette
  cursor := rfl

/-- Two writers that are alike draw alike. -/
theorem drawAt {σ σ' : Type} {R : σ → σ' → Prop} {s : σ} {s' : σ'} {after : Drawn → σ}
    {after' : Drawn → σ'} (h : w.Alike w') (place : Position) (draw : Pen → Pen)
    (hafter : ∀ r r' : Drawn, r.writer.Alike r'.writer → r.stop = r'.stop →
      r.scrolled = r'.scrolled → R (after r) (after' r')) :
    Agree R (.ofExcept s (w.drawAt place draw) after)
      (.ofExcept s' (w'.drawAt place draw) after') := by
  rw [drawAt_of_none h.writes, drawAt_of_none h.writes', h.penAt place]
  exact agree_done (hafter _ _ (h.deliver _) rfl rfl)

theorem moveTo {σ σ' : Type} {R : σ → σ' → Prop} {s : σ} {s' : σ'} {after : Writer → σ}
    {after' : Writer → σ'} (h : w.Alike w') (place : Position)
    (hafter : ∀ v v' : Writer, v.Alike v' → R (after v) (after' v')) :
    Agree R (.ofExcept s (w.moveTo place) after) (.ofExcept s' (w'.moveTo place) after') := by
  rw [moveTo_of_none h.writes, moveTo_of_none h.writes', h.penAt place]
  exact agree_done (hafter _ _ (h.deliver _))

end Alike

end Writer

namespace AnchoredLine

variable {w w' : Writer}

theorem redraw_alike (l : AnchoredLine) (h : w.Alike w') :
    Agree (fun a b => a.1 = b.1 ∧ a.2.Alike b.2) (l.redraw w) (l.redraw w') := by
  unfold redraw
  split
  · split
    · exact agree_done ⟨rfl, h⟩
    · refine h.drawAt _ _ fun r r' hw hstop _ => ⟨?_, hw⟩
      rw [hstop]
  · split
    · refine h.drawAt _ _ fun r r' hw hstop _ => ⟨?_, hw⟩
      rw [hstop]
    · exact agree_done ⟨rfl, h⟩

theorem redrawAll_alike (lines : List AnchoredLine) (h : w.Alike w') :
    Agree (fun a b => a.1 = b.1 ∧ a.2.Alike b.2) (redrawAll lines w) (redrawAll lines w') := by
  induction lines generalizing w w' with
  | nil => exact agree_done ⟨rfl, h⟩
  | cons l rest ih =>
    have hfirst := l.redraw_alike h
    simp only [redrawAll, hfirst.left, hfirst.right]
    refine (ih hfirst.related.2).map fun a b hab => ⟨?_, hab.2⟩
    rw [hfirst.related.1, hab.1]

end AnchoredLine

namespace Page

variable {s s' : Page}

structure Alike (s s' : Page) : Prop where
  writer : s.writer.Alike s'.writer
  block : s.block = s'.block
  text : s.text = s'.text
  style : s.style = s'.style

namespace Alike

theorem refl (h : s.writer.device.writeFault = .none) : s.Alike s := ⟨.refl h, rfl, rfl, rfl⟩

theorem overlap (h : s.Alike s') (pending : Bool) : s.overlap pending = s'.overlap pending := by
  rw [Page.overlap, Page.overlap, h.block, h.text]

theorem clearBlock (h : s.Alike s') (pending : Bool) :
    Agree Alike (s.clearBlock pending) (s'.clearBlock pending) := by
  simp only [Page.clearBlock, h.overlap pending]
  split
  · exact agree_done h
  · refine h.writer.drawAt _ _ fun r r' hw _ hscrolled => ⟨hw, ?_, ?_, h.style⟩
    · rw [h.block, hscrolled]
    · rw [h.text, hscrolled]

theorem anchorBlock (h : s.Alike s') : Agree Alike s.anchorBlock s'.anchorBlock := by
  rw [Page.anchorBlock, Page.anchorBlock, h.block]
  split
  · exact (h.clearBlock false).andThen fun u u' hu =>
      agree_done ⟨hu.writer, congrArg StatusBlock.atBottom hu.block, hu.text, hu.style⟩
  · exact agree_done h

theorem redrawLines (h : s.Alike s') : Agree Alike s.redrawLines s'.redrawLines := by
  rw [Page.redrawLines, Page.redrawLines, h.block]
  refine (AnchoredLine.redrawAll_alike _ h.writer).map fun r r' hr => ?_
  exact ⟨hr.2, by rw [hr.1], h.text, h.style⟩

theorem restCursor (h : s.Alike s') : Agree Alike s.restCursor s'.restCursor := by
  rw [Page.restCursor, Page.restCursor, h.block]
  exact h.writer.moveTo _ fun v v' hv => ⟨hv, rfl, h.text, h.style⟩

theorem redrawBlock (h : s.Alike s') : Agree Alike s.redrawBlock s'.redrawBlock :=
  (h.anchorBlock.andThen fun _ _ hu => hu.redrawLines).andThen fun _ _ hu => hu.restCursor

theorem vacateLine (h : s.Alike s') : Agree Alike s.vacateLine s'.vacateLine := by
  rw [Page.vacateLine, Page.vacateLine, h.overlap true]
  split
  · exact agree_done h
  · exact (h.clearBlock true).andThen fun _ _ hu => hu.redrawBlock

theorem drawText (h : s.Alike s') (draw : Pen → Pen) :
    Agree Alike (s.drawText draw) (s'.drawText draw) := by
  rw [Page.drawText, Page.drawText, h.text]
  refine h.writer.drawAt _ _ fun r r' hw hstop hscrolled => ⟨hw, ?_, hstop, h.style⟩
  rw [h.block, hscrolled]

theorem writeText (h : s.Alike s') (text : List Char) :
    Agree Alike (s.writeText text) (s'.writeText text) := by
  rw [Page.writeText, Page.writeText, h.overlap true, h.style]
  split
  · exact agree_done h
  · exact h.vacateLine.andThen fun _ _ hu => hu.drawText _

theorem endLine (h : s.Alike s') : Agree Alike s.endLine s'.endLine := by
  rw [Page.endLine, Page.endLine, h.overlap true]
  refine h.vacateLine.andThen fun u u' hu => ?_
  rw [hu.block, hu.text]
  exact hu.drawText _

theorem writeLines (h : s.Alike s') (lines : List (List Char)) :
    Agree Alike (Page.writeLines lines s) (Page.writeLines lines s') := by
  induction lines generalizing s s' with
  | nil => exact agree_done h
  | cons line rest ih =>
    have hline := h.writeText (withoutReturn line)
    cases rest with
    | nil => exact hline
    | cons next others =>
      exact (hline.andThen fun _ _ hu => hu.endLine).andThen fun _ _ hu => ih hu

end Alike

end Page

end ProgressDisplay
