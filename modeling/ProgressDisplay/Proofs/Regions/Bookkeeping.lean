import ProgressDisplay.Proofs.Completion
import ProgressDisplay.Proofs.Regions.Redraw
import ProgressDisplay.Proofs.Screen.Rows
import ProgressDisplay.Regions.Page

/-!
# What a page keeps account of

A page moves its text and its lines by what it has written, without looking at the terminal. So each
step can be followed on any page whatsoever, whatever its terminal shows and whatever text it holds.

* `AnchoredLine.redraw_settles`: a line that was redrawn has nothing left to redraw.
* `Page.clearBlock_lifts`, `Page.redrawBlock_rests`, `Page.vacateLine_clears`: the steps that make
  room for the block and redraw it.
* `Page.drawText_stays`, `Page.drawBreak_descends`: the steps that write.
-/

namespace ProgressDisplay

open Attempt

namespace Writer

variable {w w' w'' : Writer} {place : Position} {draw : Pen → Pen} {r : Drawn}

/-- A later state of a writer: it resolves styles as before, and its device refuses what it
refused. -/
structure Follows (w' w : Writer) : Prop where
  palette : w'.palette = w.palette
  writeFault : w'.device.writeFault = w.device.writeFault

theorem Follows.refl (w : Writer) : w.Follows w := ⟨rfl, rfl⟩

theorem Follows.trans (h : w''.Follows w') (h' : w'.Follows w) : w''.Follows w :=
  ⟨h.palette.trans h'.palette, h.writeFault.trans h'.writeFault⟩

theorem follows_drawAt (hok : w.drawAt place draw = .ok r) : r.writer.Follows w := by
  obtain ⟨device, hwrite, rfl⟩ := commit_eq_ok_iff.mp hok
  obtain ⟨-, rfl⟩ := Device.write_eq_ok_iff.mp hwrite
  exact ⟨rfl, rfl⟩

theorem follows_moveTo (hok : w.moveTo place = .ok w') : w'.Follows w := by
  obtain ⟨device, hwrite, rfl⟩ := moveTo_eq_ok_iff.mp hok
  obtain ⟨-, rfl⟩ := Device.write_eq_ok_iff.mp hwrite
  exact ⟨rfl, rfl⟩

end Writer

/-! ## Lines -/

namespace AnchoredLine

variable {l l' : AnchoredLine} {lines : List AnchoredLine} {w : Writer}

/-- A line after a redraw: it has nothing left to redraw, and it has not left its row. -/
structure Settles (l' l : AnchoredLine) : Prop where
  anchor : l'.anchor = l.anchor
  visible : l'.visible = l.visible
  fresh : l'.stale = false
  anchored : l.position.row = l.anchor → l'.position.row = l'.anchor

theorem row_of_fresh (hv : l.visible = true) (hfresh : l.stale = false) :
    l.position.row = l.anchor := by
  have hu : l.upToDate = true := by simpa [stale, hv] using hfresh
  have hplace : l.position.row = l.anchor ∧ l.drawn = l.content := by simpa [upToDate] using hu
  exact hplace.1

theorem draw_settles (l : AnchoredLine) (w : Writer) (hv : l.visible = true) :
    (l.draw w).Ensures fun s => s.1.Settles l ∧ s.2.Follows w := by
  refine ensures_ofExcept fun r hr => ?_
  obtain ⟨hrow, -⟩ := Writer.drawAt_stays hr fun p hp => (hp.line l.content).eraseRest
  have hstop : r.stop.row = l.anchor := hrow
  refine ⟨⟨rfl, rfl, ?_, fun _ => hstop⟩, Writer.follows_drawAt hr⟩
  simp [stale, upToDate, atAnchor, hv, hstop]

theorem clear_settles (l : AnchoredLine) (w : Writer) (hv : l.visible = false) :
    (l.clear w).Ensures fun s => s.1.Settles l ∧ s.2.Follows w := by
  refine ensures_ofExcept fun r hr => ?_
  obtain ⟨hrow, -⟩ := Writer.drawAt_stays hr fun p hp => hp.eraseRest
  refine ⟨⟨rfl, rfl, ?_, fun _ => hrow⟩, Writer.follows_drawAt hr⟩
  simp [stale, atAnchor, hv]

theorem redraw_settles (l : AnchoredLine) (w : Writer) :
    (l.redraw w).Ensures fun s => s.1.Settles l ∧ s.2.Follows w := by
  cases hstale : l.stale with
  | false =>
    rw [redraw_of_fresh hstale]
    exact ensures_done ⟨⟨rfl, rfl, hstale, id⟩, .refl w⟩
  | true =>
    unfold redraw
    cases hv : l.visible with
    | true =>
      have hu : ¬l.upToDate = true := by simpa [stale, hv] using hstale
      rw [if_pos rfl, if_neg hu]
      exact draw_settles l w hv
    | false =>
      have hdirty : l.dirty = true := by simpa [stale, hv] using hstale
      rw [if_neg Bool.false_ne_true, if_pos hdirty]
      exact clear_settles l w hv

theorem redrawAll_settles (lines : List AnchoredLine) (w : Writer) :
    (redrawAll lines w).Ensures fun s =>
      s.1.length = lines.length ∧ (∀ l' ∈ s.1, ∃ l ∈ lines, l'.Settles l) ∧ s.2.Follows w := by
  induction lines generalizing w with
  | nil => exact ensures_done ⟨rfl, nofun, .refl w⟩
  | cons l rest ih =>
    intro hok
    obtain ⟨hfirst, hothers⟩ := failure_redrawAll_cons.mp hok
    obtain ⟨hl, hw⟩ := redraw_settles l w hfirst
    obtain ⟨hlength, hrest, hw'⟩ := ih _ hothers
    rw [state_redrawAll_cons hfirst]
    refine ⟨congrArg (· + 1) hlength, ?_, hw'.trans hw⟩
    refine List.forall_mem_cons.mpr ⟨⟨l, List.mem_cons_self, hl⟩, fun l' hl' => ?_⟩
    obtain ⟨d, hd, hsettles⟩ := hrest l' hl'
    exact ⟨d, List.mem_cons_of_mem l hd, hsettles⟩

end AnchoredLine

namespace Page

variable {s u v : Page} {pending : Bool} {rows : Nat}

/-- A later state of a page, if it was only redrawn and written to: the output is drawn as before,
and the block has lines on the same rows. -/
structure Follows (u s : Page) : Prop where
  writer : u.writer.Follows s.writer
  style : u.style = s.style
  visible : u.block.visible = s.block.visible
  height : u.block.height = s.block.height
  lines : ∀ l' ∈ u.block.lines, ∃ l ∈ s.block.lines, l'.anchor = l.anchor ∧ l'.visible = l.visible

namespace Follows

theorem refl (s : Page) : s.Follows s :=
  ⟨.refl _, rfl, rfl, rfl, fun l hl => ⟨l, hl, rfl, rfl⟩⟩

theorem trans (h : v.Follows u) (h' : u.Follows s) : v.Follows s where
  writer := h.writer.trans h'.writer
  style := h.style.trans h'.style
  visible := h.visible.trans h'.visible
  height := h.height.trans h'.height
  lines := by
    intro l hl
    obtain ⟨m, hm, hanchor, hvisible⟩ := h.lines l hl
    obtain ⟨n, hn, hanchor', hvisible'⟩ := h'.lines m hm
    exact ⟨n, hn, hanchor.trans hanchor', hvisible.trans hvisible'⟩

theorem top (h : u.Follows s) : u.block.top = s.block.top := by
  rw [StatusBlock.top, StatusBlock.top, h.height]

theorem overlap_eq (h : u.Follows s) (pending : Bool) :
    u.overlap pending = s.block.overlap u.text pending := by
  unfold Page.overlap StatusBlock.overlap
  rw [h.visible, h.top, h.height]

theorem overlap (h : u.Follows s) (htext : u.text = s.text) (pending : Bool) :
    u.overlap pending = s.overlap pending := by
  rw [h.overlap_eq, htext]
  rfl

theorem anchored (h : u.Follows s) {bound : Nat} (hbound : ∀ l ∈ s.block.lines, l.anchor ≤ bound) :
    ∀ l ∈ u.block.lines, l.anchor ≤ bound := by
  intro l hl
  obtain ⟨d, hd, hanchor, -⟩ := h.lines l hl
  rw [hanchor]
  exact hbound d hd

end Follows

/-! ## Making room -/

theorem overlap_le (s : Page) (pending : Bool) :
    s.text.row + s.overlap pending ≤ max s.text.row s.block.height := by
  unfold Page.overlap StatusBlock.overlap StatusBlock.top
  split
  · split <;> omega
  · omega

theorem overlap_false_le (s : Page) : s.overlap false ≤ s.overlap true := by
  unfold Page.overlap StatusBlock.overlap
  split
  · simp only [Bool.or_true, if_true]
    split <;> omega
  · exact Nat.le_refl 0

/-- The rows to scroll are just those that take the text clear of the block. -/
theorem overlap_lifted (s : Page) (rows : Nat) (pending : Bool) :
    s.block.overlap { s.text with row := s.text.row + rows } pending =
      s.overlap pending - rows := by
  unfold Page.overlap StatusBlock.overlap StatusBlock.top
  split
  · simp only
    split <;> omega
  · exact (Nat.zero_sub rows).symm

/-- The page after so many line breaks on the bottom row. -/
def scroll (s : Page) (rows : Nat) : Page :=
  { s with
    writer := { s.writer with
      device := { s.writer.device with
        output := s.writer.device.output ++
          (s.writer.cursor.motions .bottomLeft ++ List.replicate rows .lineBreak) }
      cursor := .bottomLeft }
    block := s.block.raise rows
    text := s.text.raise rows }

theorem follows_scroll (s : Page) (rows : Nat) : (s.scroll rows).Follows s where
  writer := ⟨rfl, rfl⟩
  style := rfl
  visible := rfl
  height := List.length_map _
  lines := by
    intro l hl
    obtain ⟨d, hd, rfl⟩ := List.mem_map.mp hl
    exact ⟨d, hd, rfl, rfl⟩

theorem clearBlock_scrolls (s : Page) (pending : Bool) :
    (s.clearBlock pending).Ensures fun u =>
      u = if s.overlap pending = 0 then s else s.scroll (s.overlap pending) := by
  unfold clearBlock
  simp only
  split
  · exact ensures_done rfl
  · refine ensures_ofExcept fun r hr => ?_
    obtain ⟨device, hwrite, rfl⟩ := Writer.commit_eq_ok_iff.mp hr
    obtain ⟨-, rfl⟩ := Device.write_eq_ok_iff.mp hwrite
    rw [Pen.breakLines_of_bottom _ rfl]
    simp only [Writer.penAt, scroll, Nat.zero_add]

/-- After room was made, the text stands so many rows higher, clear of the block. -/
structure Lifted (u s : Page) (pending : Bool) : Prop extends u.Follows s where
  text : u.text = { s.text with row := s.text.row + s.overlap pending }
  clear : u.overlap pending = 0

theorem lifted_refl (h : s.overlap pending = 0) : s.Lifted s pending where
  toFollows := .refl s
  text := by rw [h]; rfl
  clear := h

theorem clearBlock_lifts (hlow : s.block.height ≤ Position.limit) :
    (s.clearBlock pending).Ensures fun u => u.Lifted s pending := by
  refine (clearBlock_scrolls s pending).mono fun u hu => ?_
  subst hu
  split
  · rename_i hclear
    exact lifted_refl hclear
  · rename_i hclear
    have hfollows := follows_scroll s (s.overlap pending)
    have htext : (s.scroll (s.overlap pending)).text =
        { s.text with row := s.text.row + s.overlap pending } := by
      have hbound := s.overlap_le pending
      simp only [scroll, Position.raise, Position.mk.injEq, and_true]
      omega
    refine ⟨hfollows, htext, ?_⟩
    rw [hfollows.overlap_eq, htext]
    exact (s.overlap_lifted _ pending).trans (Nat.sub_self _)

/-! ## Redrawing -/

/-- There is nothing to be redrawn: the block is where it belongs, clear of the text, and the cursor
rests. -/
structure AtRest (s : Page) : Prop where
  clear : s.overlap false = 0
  bottom : s.block.visible = true → s.block.position = { row := s.block.top }
  fresh : ∀ l ∈ s.block.lines, l.stale = false
  cursor : s.writer.cursor = s.block.restingPlace

theorem AtRest.anchored (h : s.AtRest) (hv : ∀ l ∈ s.block.lines, l.visible = true) :
    ∀ l ∈ s.block.lines, l.position.row = l.anchor :=
  fun l hl => AnchoredLine.row_of_fresh (hv l hl) (h.fresh l hl)

theorem anchorBlock_lifts (hlow : s.block.height ≤ Position.limit) :
    s.anchorBlock.Ensures fun u => u.Lifted s false ∧
      (u.block.visible = true → u.block.position = { row := u.block.top }) ∧
      (s.block.visible = false → u = s) := by
  unfold anchorBlock
  split
  · rename_i hv
    refine (clearBlock_lifts hlow).andThen fun u hu => ensures_done ?_
    have hanchored : Follows { u with block := u.block.atBottom } s :=
      ⟨hu.writer, hu.style, hu.visible, hu.height, hu.lines⟩
    refine ⟨⟨hanchored, hu.text, hu.clear⟩, fun _ => rfl, fun hhidden => ?_⟩
    rw [hv] at hhidden
    cases hhidden
  · rename_i hv
    have hhidden : s.block.visible = false := by simpa using hv
    have hclear := overlap_of_hidden hhidden false
    exact ensures_done ⟨lifted_refl hclear, fun h => absurd h hv, fun _ => rfl⟩

theorem redrawLines_settles (s : Page) :
    s.redrawLines.Ensures fun u => u.Follows s ∧ u.text = s.text ∧
      u.block.position = s.block.position ∧
      ∀ l' ∈ u.block.lines, ∃ l ∈ s.block.lines, l'.Settles l := by
  refine Ensures.map ((AnchoredLine.redrawAll_settles s.block.lines s.writer).mono fun r hr => ?_)
  obtain ⟨hlength, hlines, hwriter⟩ := hr
  refine ⟨⟨hwriter, rfl, rfl, hlength, fun l' hl' => ?_⟩, rfl, rfl, hlines⟩
  obtain ⟨l, hl, hsettles⟩ := hlines l' hl'
  exact ⟨l, hl, hsettles.anchor, hsettles.visible⟩

theorem restCursor_rests (s : Page) :
    s.restCursor.Ensures fun u => u.Follows s ∧ u.text = s.text ∧ u.block = s.block ∧
      u.writer.cursor = u.block.restingPlace := by
  refine ensures_ofExcept fun w hw => ?_
  refine ⟨⟨Writer.follows_moveTo hw, rfl, rfl, rfl, fun l hl => ⟨l, hl, rfl, rfl⟩⟩, rfl, rfl, ?_⟩
  obtain ⟨device, -, rfl⟩ := Writer.moveTo_eq_ok_iff.mp hw
  rfl

/-- What a redraw of the block does to any page. While the block is hidden it only erases lines. -/
structure Redrawn (u s : Page) : Prop extends u.Lifted s false where
  rests : u.AtRest
  hidden : s.block.visible = false → ∀ l' ∈ u.block.lines, ∃ l ∈ s.block.lines, l'.Settles l

theorem redrawBlock_rests (hlow : s.block.height ≤ Position.limit) :
    s.redrawBlock.Ensures fun u => u.Redrawn s := by
  refine Ensures.andThen (P := fun u => u.Lifted s false ∧
    (u.block.visible = true → u.block.position = { row := u.block.top }) ∧
    (∀ l ∈ u.block.lines, l.stale = false) ∧
    (s.block.visible = false → ∀ l' ∈ u.block.lines, ∃ l ∈ s.block.lines, l'.Settles l)) ?_ ?_
  · refine (anchorBlock_lifts hlow).andThen fun a ha => ?_
    obtain ⟨hlifted, hbottom, hsame⟩ := ha
    refine (redrawLines_settles a).mono fun u hu => ?_
    obtain ⟨hfollows, htext, hposition, hsettles⟩ := hu
    refine ⟨⟨hfollows.trans hlifted.toFollows, htext.trans hlifted.text, ?_⟩, fun hv => ?_,
      fun l' hl' => ?_, fun hhidden => ?_⟩
    · rw [hfollows.overlap htext]
      exact hlifted.clear
    · rw [hposition, hfollows.top]
      exact hbottom (hfollows.visible.symm.trans hv)
    · obtain ⟨l, -, hl⟩ := hsettles l' hl'
      exact hl.fresh
    · rw [hsame hhidden] at hsettles
      exact hsettles
  · intro a ha
    obtain ⟨hlifted, hbottom, hfresh, hhidden⟩ := ha
    refine (restCursor_rests a).mono fun u hu => ?_
    obtain ⟨hfollows, htext, hblock, hcursor⟩ := hu
    have hclear : u.overlap false = 0 := (hfollows.overlap htext false).trans hlifted.clear
    rw [← hblock] at hbottom hfresh hhidden
    exact ⟨⟨hfollows.trans hlifted.toFollows, htext.trans hlifted.text, hclear⟩,
      ⟨hclear, hbottom, hfresh, hcursor⟩, hhidden⟩

/-- Before text is written or a line ended, the line is clear of the block. If it was so already,
nothing happened. -/
theorem vacateLine_clears (hlow : s.block.height ≤ Position.limit) :
    s.vacateLine.Ensures fun u => u.Lifted s true ∧
      (s.overlap true = 0 → u = s) ∧ (s.overlap true ≠ 0 → u.AtRest) := by
  unfold vacateLine
  split
  · rename_i hclear
    exact ensures_done ⟨lifted_refl hclear, fun _ => rfl, fun h => absurd hclear h⟩
  · rename_i hroom
    refine (clearBlock_lifts hlow).andThen fun a ha => ?_
    have hclear : a.overlap false = 0 :=
      Nat.le_zero.mp (ha.clear ▸ a.overlap_false_le)
    refine (redrawBlock_rests (ha.height ▸ hlow)).mono fun u hu => ?_
    have htext : u.text = a.text := by
      rw [hu.text, hclear]
      rfl
    refine ⟨⟨hu.toFollows.trans ha.toFollows, htext.trans ha.text, ?_⟩, fun h => absurd h hroom,
      fun _ => hu.rests⟩
    rw [hu.toFollows.overlap htext]
    exact ha.clear

/-! ## Writing -/

theorem drawText_follows (s : Page) (draw : Pen → Pen) :
    (s.drawText draw).Ensures fun u => u.Follows s := by
  refine ensures_ofExcept fun r hr => ?_
  refine ⟨Writer.follows_drawAt hr, rfl, rfl, List.length_map _, fun l hl => ?_⟩
  obtain ⟨d, hd, rfl⟩ := List.mem_map.mp hl
  exact ⟨d, hd, rfl, rfl⟩

theorem drawText_stays {draw : Pen → Pen}
    (hdraw : ∀ p : Pen, p.Stays s.text.row → (draw p).Stays s.text.row) :
    (s.drawText draw).Ensures fun u => u.text.row = s.text.row ∧ u.block = s.block.raise 0 := by
  refine ensures_ofExcept fun r hr => ?_
  obtain ⟨hrow, hscrolled⟩ := Writer.drawAt_stays hr hdraw
  exact ⟨hrow, by rw [hscrolled]⟩

theorem drawBreak_descends (s : Page) (erase : Bool) :
    (s.drawText fun p => (p.eraseRestIf erase).breakLine).Ensures fun u =>
      u.text = { row := s.text.row - 1 } ∧
      u.block = s.block.raise (if s.text.row = 0 then 1 else 0) := by
  refine ensures_ofExcept fun r hr => ?_
  obtain ⟨device, -, rfl⟩ := Writer.commit_eq_ok_iff.mp hr
  have hstays := (Pen.stays_penAt s.writer s.text).eraseRestIf erase
  simp only [Pen.breakLine_cursor, Pen.breakLine_scrolled, hstays.row, hstays.unscrolled,
    Nat.zero_add, and_self]

theorem writeText_follows (hlow : s.block.height ≤ Position.limit) (text : List Char) :
    (s.writeText text).Ensures fun u => u.Follows s := by
  unfold writeText
  split
  · exact ensures_done (.refl s)
  · exact (vacateLine_clears hlow).andThen fun t ht =>
      (drawText_follows t _).mono fun _ hu => hu.trans ht.1.toFollows

theorem endLine_follows (hlow : s.block.height ≤ Position.limit) :
    s.endLine.Ensures fun u => u.Follows s :=
  (vacateLine_clears hlow).andThen fun t ht =>
    (drawText_follows t _).mono fun _ hu => hu.trans ht.1.toFollows

end Page

end ProgressDisplay
