import ProgressDisplay.Proofs.Completion
import ProgressDisplay.Proofs.Screen.Drawing
import ProgressDisplay.Regions.AnchoredLine

/-!
# What a redraw does

A redraw of a line either does nothing or replaces its row. `stale` says which, `redrawn` what the
line then knows, and `paint` what the terminal then shows. Lines with different rows do not disturb
each other.

* `redraw_of_fresh`, `redrawAll_of_fresh`: where nothing is to be done, nothing is.
* `redraw_ensures`, `redrawAll_ensures`: redraws that complete do just that.
* `paintAll_of_mem`, `paintAll_of_not_mem`: the row of each line, and all other rows.
-/

namespace ProgressDisplay

namespace Grid

variable {g : Grid} {r row : Nat} {text : List Char}

/-- Replaces a row. -/
def setRow (g : Grid) (row : Nat) (text : List Char) : Grid :=
  fun r j => if r = row then text.getD j ' ' else g r j

theorem setRow_of_ne (h : r ≠ row) : g.setRow row text r = g r := by
  funext j
  simp [setRow, h]

theorem shows_setRow : (g.setRow row text).Shows row text := by
  intro j
  simp [setRow]

theorem write_eraseFrom : (g.write row 0 text).eraseFrom row text.length = g.setRow row text := by
  funext r j
  by_cases hr : r = row
  · subst hr
    rw [shows_setRow j]
    exact shows_replaced j
  · rw [setRow_of_ne hr, eraseFrom_of_ne hr, write_of_ne hr]

theorem eraseFrom_zero : g.eraseFrom row 0 = g.setRow row [] := @write_eraseFrom g row []

end Grid

namespace Writer

/-- The terminal shows these cells, and the writer knows where its cursor is. -/
def Shows (w : Writer) (g : Grid) : Prop := w.Tracks { cells := g, cursor := w.cursor }

theorem Tracks.shows {w : Writer} {screen : Screen} (h : w.Tracks screen) :
    w.Shows screen.cells := by
  unfold Shows
  rw [h.cursor]
  exact h

end Writer

namespace AnchoredLine

variable {l : AnchoredLine} {lines : List AnchoredLine} {w : Writer} {g g' : Grid} {r : Nat}

/-- A redraw has something to do. -/
def stale (l : AnchoredLine) : Bool := if l.visible then !l.upToDate else l.dirty

/-- What the line should show. -/
def shown (l : AnchoredLine) : Line := if l.visible then l.content else []

/-- The line after its redraw. -/
def redrawn (l : AnchoredLine) : AnchoredLine :=
  if l.stale then
    { l with
      position := { row := l.anchor, col := l.shown.characters.length }
      drawn := l.shown
      dirty := !l.shown.isEmpty }
  else l

/-- The cells after the redraw of the line. -/
def paint (l : AnchoredLine) (g : Grid) : Grid :=
  if l.stale then g.setRow l.anchor l.shown.characters else g

def paintAll (lines : List AnchoredLine) (g : Grid) : Grid := lines.foldl (fun g l => l.paint g) g

/-- The content can be drawn with its columns counted right. -/
structure Drawable (l : AnchoredLine) : Prop where
  measured : l.content.Measured
  fits : l.content.characters.length < Position.limit

theorem redrawn_anchor : l.redrawn.anchor = l.anchor := by
  unfold redrawn
  split <;> rfl

theorem redrawn_content : l.redrawn.content = l.content := by
  unfold redrawn
  split <;> rfl

theorem redrawn_visible : l.redrawn.visible = l.visible := by
  unfold redrawn
  split <;> rfl

theorem redraw_of_fresh (h : l.stale = false) : l.redraw w = .done (l, w) := by
  unfold stale at h
  unfold redraw
  split
  · rename_i hv
    have hu : l.upToDate = true := by simpa [hv] using h
    rw [if_pos hu]
  · rename_i hv
    have hclean : l.dirty = false := by simpa [hv] using h
    rw [hclean]
    rfl

theorem redrawAll_of_fresh (h : ∀ l ∈ lines, l.stale = false) :
    redrawAll lines w = .done (lines, w) := by
  induction lines with
  | nil => rfl
  | cons l rest ih =>
    obtain ⟨hl, hrest⟩ := List.forall_mem_cons.mp h
    rw [redrawAll, redraw_of_fresh hl]
    simp only [Attempt.done, ih hrest, Attempt.map]

theorem draws_content (h : l.Drawable) {screen : Screen} {p : Pen}
    (hp : p.Draws screen { screen with cursor := { row := l.anchor } } 0) :
    ((p.line l.content).eraseRest).Draws screen
      { cells := screen.cells.setRow l.anchor l.content.characters
        cursor := { row := l.anchor, col := l.content.characters.length } } 0 := by
  have hfits : 0 + l.content.characters.length ≤ Position.limit := by
    have := h.fits
    omega
  have hline := hp.line h.measured hfits
  rw [Screen.foldl_put] at hline
  have herased := hline.eraseRest
  simp only [Screen.eraseRest, Nat.zero_add, Grid.write_eraseFrom] at herased
  exact herased

theorem draw_ensures (h : l.Drawable) (hw : w.Shows g) :
    (l.draw w).Ensures fun s =>
      s.1 = { l with
        position := { row := l.anchor, col := l.content.characters.length }
        drawn := l.content
        dirty := !l.content.isEmpty } ∧
      s.2.Shows (g.setRow l.anchor l.content.characters) := by
  refine Attempt.ensures_ofExcept fun d hd => ?_
  obtain ⟨htracks, hstop, -⟩ := Writer.Tracks.drawAt hw (fun p hp => draws_content h hp) hd
  exact ⟨by rw [hstop]; rfl, htracks.shows⟩

theorem clear_ensures (hw : w.Shows g) :
    (l.clear w).Ensures fun s =>
      s.1 = { l with position := { row := l.anchor }, drawn := [], dirty := false } ∧
      s.2.Shows (g.setRow l.anchor []) := by
  refine Attempt.ensures_ofExcept fun d hd => ?_
  obtain ⟨htracks, hstop, -⟩ := Writer.Tracks.drawAt hw (fun p hp => hp.eraseRest) hd
  refine ⟨by rw [hstop]; rfl, ?_⟩
  rw [← Grid.eraseFrom_zero]
  exact htracks.shows

theorem redraw_ensures (h : l.Drawable) (hw : w.Shows g) :
    (l.redraw w).Ensures fun s => s.1 = l.redrawn ∧ s.2.Shows (l.paint g) := by
  unfold redrawn paint
  by_cases hv : l.visible = true
  · have hshown : l.shown = l.content := by simp [shown, hv]
    by_cases hu : l.upToDate = true
    · have hstale : ¬l.stale = true := by simp [stale, hv, hu]
      rw [redraw, if_pos hv, if_pos hu, if_neg hstale, if_neg hstale]
      exact Attempt.ensures_done ⟨rfl, hw⟩
    · have hstale : l.stale = true := by simp [stale, hv, hu]
      rw [redraw, if_pos hv, if_neg hu, if_pos hstale, if_pos hstale, hshown]
      exact draw_ensures h hw
  · have hshown : l.shown = [] := by simp [shown, hv]
    by_cases hd : l.dirty = true
    · have hstale : l.stale = true := by simp [stale, hv, hd]
      rw [redraw, if_neg hv, if_pos hd, if_pos hstale, if_pos hstale, hshown]
      exact clear_ensures hw
    · have hstale : ¬l.stale = true := by simp [stale, hv, hd]
      rw [redraw, if_neg hv, if_neg hd, if_neg hstale, if_neg hstale]
      exact Attempt.ensures_done ⟨rfl, hw⟩

theorem redrawAll_ensures (h : ∀ l ∈ lines, l.Drawable) (hw : w.Shows g) :
    (redrawAll lines w).Ensures fun s =>
      s.1 = lines.map redrawn ∧ s.2.Shows (paintAll lines g) := by
  induction lines generalizing w g with
  | nil => exact Attempt.ensures_done ⟨rfl, hw⟩
  | cons l rest ih =>
    intro hok
    obtain ⟨hfirst, hrest⟩ := failure_redrawAll_cons.mp hok
    obtain ⟨hline, hwriter⟩ := redraw_ensures (h l List.mem_cons_self) hw hfirst
    obtain ⟨hlines, hwriters⟩ := ih (fun d hd => h d (List.mem_cons_of_mem l hd)) hwriter hrest
    rw [state_redrawAll_cons hfirst]
    refine ⟨?_, hwriters⟩
    show _ :: _ = _
    rw [hline, hlines, List.map_cons]

/-! ## The rows of several lines -/

theorem paintAll_of_fresh (h : ∀ l ∈ lines, l.stale = false) : paintAll lines g = g := by
  induction lines with
  | nil => rfl
  | cons l rest ih =>
    have hl : l.paint g = g := by simp [paint, h l List.mem_cons_self]
    have hrest := ih fun d hd => h d (List.mem_cons_of_mem l hd)
    rw [paintAll, List.foldl_cons, hl]
    exact hrest

theorem paint_of_ne (h : r ≠ l.anchor) : l.paint g r = g r := by
  unfold paint
  split
  · exact Grid.setRow_of_ne h
  · rfl

theorem paint_congr (h : g' l.anchor = g l.anchor) : l.paint g' l.anchor = l.paint g l.anchor := by
  unfold paint Grid.setRow
  split
  · simp
  · exact h

theorem paintAll_of_not_mem (h : ∀ l ∈ lines, l.anchor ≠ r) : paintAll lines g r = g r := by
  induction lines generalizing g with
  | nil => rfl
  | cons l rest ih =>
    have hl : r ≠ l.anchor := (h l List.mem_cons_self).symm
    have hrest : paintAll rest (l.paint g) r = l.paint g r :=
      ih fun d hd => h d (List.mem_cons_of_mem l hd)
    rw [paint_of_ne hl] at hrest
    exact hrest

theorem paintAll_of_mem (hdistinct : (lines.map anchor).Nodup) (hl : l ∈ lines) :
    paintAll lines g l.anchor = l.paint g l.anchor := by
  induction lines generalizing g with
  | nil => cases hl
  | cons first rest ih =>
    rw [List.map_cons, List.nodup_cons] at hdistinct
    obtain ⟨hnew, hrest⟩ := hdistinct
    rcases List.mem_cons.mp hl with rfl | hl
    · have hothers : ∀ d ∈ rest, d.anchor ≠ l.anchor := fun d hd hsame =>
        hnew (hsame ▸ List.mem_map_of_mem hd)
      have hpaint : paintAll rest (l.paint g) l.anchor = l.paint g l.anchor :=
        paintAll_of_not_mem hothers
      exact hpaint
    · have hne : l.anchor ≠ first.anchor := fun hsame => hnew (hsame ▸ List.mem_map_of_mem hl)
      have hpaint : paintAll rest (first.paint g) l.anchor = l.paint (first.paint g) l.anchor :=
        ih hrest hl
      rw [paint_congr (paint_of_ne hne)] at hpaint
      exact hpaint

end AnchoredLine

end ProgressDisplay
