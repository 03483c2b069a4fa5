import ProgressDisplay.Proofs.Regions.Redraw
import ProgressDisplay.Regions.StatusBlock
import Mathlib.Data.List.Nodup

/-!
# What the status block knows of the screen

A line remembers what it drew last and where that has gone since. This is `Accurate` if the row of
a line that was not scrolled off it shows what was drawn, unless output has reached that row. A
scroll moves all lines off their rows, so after it there is nothing left to be wrong about, and a
redraw makes the rows right again.

* `Accurate.raise`: after a scroll.
* `Accurate.leave`: after a change of rows that the block does not rely on.
* `Accurate.redraw`: after a redraw of all lines.
-/

namespace ProgressDisplay

/-- The output has not reached the row, or has only come to its start. -/
def Position.Spares (text : Position) (row : Nat) : Prop :=
  row < text.row ∨ (row = text.row ∧ text.col = 0)

theorem Position.raise_zero {p : Position} (h : p.row ≤ limit) : p.raise 0 = p := by
  obtain ⟨row, col⟩ := p
  simp only [raise, mk.injEq, and_true]
  exact Nat.min_eq_left h

namespace AnchoredLine

variable {l : AnchoredLine} {g g' : Grid} {text text' : Position} {rows : Nat}

structure Accurate (l : AnchoredLine) (g : Grid) (text : Position) : Prop where
  low : l.anchor < Position.limit
  above : l.anchor ≤ l.position.row
  within : l.position.row ≤ Position.limit
  drawable : l.Drawable
  reach : l.position.col = l.drawn.characters.length
  dirty : l.dirty = !l.drawn.isEmpty
  shows : l.position.row = l.anchor → text.Spares l.anchor →
    g.Shows l.anchor l.drawn.characters

theorem raise_zero (h : l.position.row ≤ Position.limit) : l.raise 0 = l := by
  simp [raise, Position.raise_zero h]

namespace Accurate

theorem raise (h : l.Accurate g text) (hrows : 0 < rows) : (l.raise rows).Accurate g' text' where
  low := h.low
  above := by
    have hlow := h.low
    have habove := h.above
    show l.anchor ≤ min (l.position.row + rows) Position.limit
    omega
  within := Nat.min_le_right _ _
  drawable := ⟨h.drawable.measured, h.drawable.fits⟩
  reach := h.reach
  dirty := h.dirty
  shows := by
    intro hsame
    have hlow := h.low
    have habove := h.above
    have hgone : min (l.position.row + rows) Position.limit = l.anchor := hsame
    omega

theorem leave (h : l.Accurate g text)
    (hrow : text'.Spares l.anchor → text.Spares l.anchor ∧ g' l.anchor = g l.anchor) :
    l.Accurate g' text' :=
  { h with
    shows := by
      intro hsame hspared
      obtain ⟨hbefore, heq⟩ := hrow hspared
      exact (h.shows hsame hbefore).of_eq heq }

theorem redraw (h : l.Accurate g text) (hrow : g' l.anchor = l.paint g l.anchor) :
    l.redrawn.Accurate g' text := by
  unfold paint at hrow
  unfold redrawn
  split
  · rename_i hstale
    rw [if_pos hstale] at hrow
    refine ⟨h.low, Nat.le_refl _, Nat.le_of_lt h.low, ⟨h.drawable.measured, h.drawable.fits⟩,
      rfl, rfl, fun _ _ => ?_⟩
    exact Grid.shows_setRow.of_eq hrow
  · rename_i hstale
    rw [if_neg hstale] at hrow
    exact h.leave fun hspared => ⟨hspared, hrow⟩

theorem setContent (h : l.Accurate g text) {content : Line} (hmeasured : content.Measured)
    (hfits : content.characters.length < Position.limit) :
    (l.setContent content).Accurate g text :=
  { h with drawable := ⟨hmeasured, hfits⟩ }

theorem setVisible (h : l.Accurate g text) (visible : Bool) :
    (l.setVisible visible).Accurate g text :=
  { h with drawable := ⟨h.drawable.measured, h.drawable.fits⟩ }

end Accurate

theorem accurate_onRow {row : Nat} (h : row < Position.limit) :
    (onRow row).Accurate .blank text where
  low := h
  above := Nat.le_refl _
  within := Nat.le_of_lt h
  drawable := ⟨fun _ hs => absurd hs List.not_mem_nil, Nat.zero_lt_succ _⟩
  reach := rfl
  dirty := rfl
  shows := fun _ _ _ => rfl

theorem redrawn_anchored (h : l.position.row = l.anchor) : l.redrawn.position.row = l.anchor := by
  unfold redrawn
  split
  · rfl
  · exact h

theorem stale_of_hidden (hv : l.visible = false) (h : l.Accurate g text) (hdrawn : l.drawn = []) :
    l.stale = false := by
  simp [stale, hv, h.dirty, hdrawn]

/-- What a visible line drew in a redraw, or had drawn before it. -/
theorem redrawn_of_visible (hv : l.visible = true) :
    l.redrawn.position.row = l.anchor ∧ l.redrawn.drawn = l.content := by
  unfold redrawn
  split
  · exact ⟨rfl, by simp [shown, hv]⟩
  · rename_i hstale
    have hu : l.upToDate = true := by simpa [stale, hv] using hstale
    simpa [upToDate] using hu

theorem redrawn_of_hidden (hv : l.visible = false) (h : l.Accurate g text) :
    l.redrawn.drawn = [] := by
  unfold redrawn
  split
  · simp [shown, hv]
  · rename_i hstale
    have hd : l.dirty = false := by simpa [stale, hv] using hstale
    rw [h.dirty] at hd
    simpa using hd

end AnchoredLine

namespace StatusBlock

variable {b : StatusBlock} {g g' : Grid} {text text' : Position} {rows r : Nat} {l : AnchoredLine}

structure Accurate (b : StatusBlock) (g : Grid) (text : Position) : Prop where
  anchors : b.lines.map AnchoredLine.anchor = (List.range b.height).reverse
  tall : 0 < b.height
  low : b.height ≤ Position.limit
  within : b.position.row ≤ Position.limit
  visible : ∀ l ∈ b.lines, l.visible = b.visible
  lines : ∀ l ∈ b.lines, l.Accurate g text

/-- The block after a redraw of its lines. -/
def redrawn (b : StatusBlock) : StatusBlock :=
  { b with lines := b.lines.map AnchoredLine.redrawn }

theorem raise_zero (h : b.Accurate g text) : b.raise 0 = b := by
  have hlines : b.lines.map (fun l => l.raise 0) = b.lines := by
    rw [List.map_congr_left fun l hl => AnchoredLine.raise_zero (h.lines l hl).within]
    exact List.map_id' b.lines
  simp [raise, Position.raise_zero h.within, hlines]

/-- The contents of the lines, top first. -/
def contents (b : StatusBlock) : List Line := b.lines.map AnchoredLine.content

theorem contents_raise : (b.raise rows).contents = b.contents := by
  rw [contents, raise, List.map_map]
  rfl

theorem contents_redrawn : b.redrawn.contents = b.contents := by
  rw [contents, redrawn, List.map_map]
  exact List.map_congr_left fun l _ => AnchoredLine.redrawn_content

theorem contents_setVisible {visible : Bool} : (b.setVisible visible).contents = b.contents := by
  rw [contents, setVisible, List.map_map]
  rfl

theorem contents_setLine {index : Nat} {content : Line} :
    (b.setLine index content).contents = b.contents.modify index fun _ => content := by
  refine List.ext_getElem? fun i => ?_
  simp only [contents, setLine, List.getElem?_map, List.getElem?_modify]
  cases b.lines[i]? with
  | none => rfl
  | some l => split <;> rfl

theorem height_raise : (b.raise rows).height = b.height := List.length_map _

theorem top_raise : (b.raise rows).top = b.top := by
  rw [top, top, height_raise]

theorem height_redrawn : b.redrawn.height = b.height := List.length_map _

theorem top_redrawn : b.redrawn.top = b.top := by
  rw [top, top, height_redrawn]

theorem height_setLine {index : Nat} {content : Line} :
    (b.setLine index content).height = b.height := List.length_modify _ _ _

theorem height_setVisible {visible : Bool} : (b.setVisible visible).height = b.height :=
  List.length_map _

theorem top_setLine {index : Nat} {content : Line} : (b.setLine index content).top = b.top := by
  rw [top, top, height_setLine]

theorem top_setVisible {visible : Bool} : (b.setVisible visible).top = b.top := by
  rw [top, top, height_setVisible]

theorem mem_setLine {index : Nat} {content : Line} (hl : l ∈ (b.setLine index content).lines) :
    l ∈ b.lines ∨ ∃ d ∈ b.lines, l = d.setContent content := by
  obtain ⟨i, hi⟩ := List.mem_iff_getElem?.mp hl
  rw [setLine, List.getElem?_modify] at hi
  cases hd : b.lines[i]? with
  | none => simp [hd] at hi
  | some d =>
    have hmem : d ∈ b.lines := List.mem_of_getElem? hd
    rw [hd] at hi
    by_cases hindex : index = i
    · right
      refine ⟨d, hmem, ?_⟩
      simpa [hindex] using hi.symm
    · left
      have : d = l := by simpa [hindex] using hi
      exact this ▸ hmem

namespace Accurate

theorem nodup (h : b.Accurate g text) : (b.lines.map AnchoredLine.anchor).Nodup := by
  rw [h.anchors, List.nodup_reverse]
  exact List.nodup_range

theorem anchor_le (h : b.Accurate g text) (hl : l ∈ b.lines) : l.anchor ≤ b.top := by
  have hmem : l.anchor ∈ b.lines.map AnchoredLine.anchor := List.mem_map_of_mem hl
  rw [h.anchors, List.mem_reverse, List.mem_range] at hmem
  unfold top
  omega

theorem anchor_eq (h : b.Accurate g text) {i : Nat} (hl : b.lines[i]? = some l) :
    l.anchor = b.height - 1 - i := by
  have hi : i < b.height := (List.getElem?_eq_some_iff.mp hl).1
  have hanchor : (b.lines.map AnchoredLine.anchor)[i]? = some l.anchor := by
    rw [List.getElem?_map, hl]
    rfl
  rw [h.anchors, List.getElem?_reverse (by rwa [List.length_range]), List.length_range,
    List.getElem?_range (by omega)] at hanchor
  exact (Option.some.inj hanchor).symm

/-- Every row from the top of the block down belongs to one of its lines. -/
theorem exists_line (h : b.Accurate g text) (hr : r < b.height) : ∃ l ∈ b.lines, l.anchor = r := by
  have hmem : r ∈ b.lines.map AnchoredLine.anchor := by
    rw [h.anchors, List.mem_reverse, List.mem_range]
    exact hr
  exact List.mem_map.mp hmem

theorem raise (h : b.Accurate g text) (hrows : 0 < rows) : (b.raise rows).Accurate g' text' where
  anchors := by
    rw [height_raise, ← h.anchors]
    simp [StatusBlock.raise, AnchoredLine.raise]
  tall := by
    rw [height_raise]
    exact h.tall
  low := by
    rw [height_raise]
    exact h.low
  within := Nat.min_le_right _ _
  visible := by
    intro l hl
    obtain ⟨d, hd, rfl⟩ := List.mem_map.mp hl
    exact h.visible d hd
  lines := by
    intro l hl
    obtain ⟨d, hd, rfl⟩ := List.mem_map.mp hl
    exact (h.lines d hd).raise hrows

theorem leave (h : b.Accurate g text)
    (hrows : ∀ r, r ≤ b.top → text'.Spares r → text.Spares r ∧ g' r = g r) :
    b.Accurate g' text' :=
  { h with lines := fun l hl => (h.lines l hl).leave (hrows l.anchor (h.anchor_le hl)) }

theorem redraw (h : b.Accurate g text) :
    b.redrawn.Accurate (AnchoredLine.paintAll b.lines g) text where
  anchors := by
    rw [height_redrawn, ← h.anchors, redrawn, List.map_map]
    exact List.map_congr_left fun l _ => AnchoredLine.redrawn_anchor
  tall := by
    rw [height_redrawn]
    exact h.tall
  low := by
    rw [height_redrawn]
    exact h.low
  within := h.within
  visible := by
    intro l hl
    obtain ⟨d, hd, rfl⟩ := List.mem_map.mp hl
    rw [AnchoredLine.redrawn_visible]
    exact h.visible d hd
  lines := by
    intro l hl
    obtain ⟨d, hd, rfl⟩ := List.mem_map.mp hl
    exact (h.lines d hd).redraw (AnchoredLine.paintAll_of_mem h.nodup hd)

/-- A redraw keeps to the rows of the block. -/
theorem paintAll_of_above (h : b.Accurate g text) (hr : b.top < r) (g' : Grid) :
    AnchoredLine.paintAll b.lines g' r = g' r := by
  refine AnchoredLine.paintAll_of_not_mem fun l hl hsame => ?_
  have := h.anchor_le hl
  omega

theorem setLine (h : b.Accurate g text) {content : Line} (hmeasured : content.Measured)
    (hfits : content.characters.length < Position.limit) (index : Nat) :
    (b.setLine index content).Accurate g text where
  anchors := by
    rw [height_setLine, ← h.anchors]
    refine List.ext_getElem? fun i => ?_
    simp only [StatusBlock.setLine, List.getElem?_map, List.getElem?_modify]
    cases b.lines[i]? with
    | none => rfl
    | some l => split <;> rfl
  tall := by
    rw [height_setLine]
    exact h.tall
  low := by
    rw [height_setLine]
    exact h.low
  within := h.within
  visible := by
    intro l hl
    rcases mem_setLine hl with hl | ⟨d, hd, rfl⟩
    · exact h.visible l hl
    · exact h.visible d hd
  lines := by
    intro l hl
    rcases mem_setLine hl with hl | ⟨d, hd, rfl⟩
    · exact h.lines l hl
    · exact (h.lines d hd).setContent hmeasured hfits

theorem setVisible (h : b.Accurate g text) (visible : Bool) :
    (b.setVisible visible).Accurate g text where
  anchors := by
    rw [height_setVisible, ← h.anchors]
    simp [StatusBlock.setVisible, AnchoredLine.setVisible]
  tall := by
    rw [height_setVisible]
    exact h.tall
  low := by
    rw [height_setVisible]
    exact h.low
  within := h.within
  visible := by
    intro l hl
    obtain ⟨d, hd, rfl⟩ := List.mem_map.mp hl
    rfl
  lines := by
    intro l hl
    obtain ⟨d, hd, rfl⟩ := List.mem_map.mp hl
    exact (h.lines d hd).setVisible visible

theorem atBottom (h : b.Accurate g text) : b.atBottom.Accurate g text :=
  { h with within := Nat.le_trans (Nat.sub_le _ 1) h.low }

end Accurate

theorem map_anchor_emptyLines (n : Nat) :
    (emptyLines n).map AnchoredLine.anchor = (List.range n).reverse := by
  induction n with
  | zero => rfl
  | succ n ih =>
    rw [emptyLines, List.map_cons, ih, List.range_succ, List.reverse_append]
    rfl

theorem mem_emptyLines {n : Nat} (hl : l ∈ emptyLines n) : ∃ row, row < n ∧ l = .onRow row := by
  induction n with
  | zero => cases hl
  | succ n ih =>
    rcases List.mem_cons.mp hl with rfl | hl
    · exact ⟨n, Nat.lt_add_one n, rfl⟩
    · obtain ⟨row, hrow, rfl⟩ := ih hl
      exact ⟨row, Nat.lt_succ_of_lt hrow, rfl⟩

theorem height_ofWorkers_le (preferred : Nat) : (ofWorkers preferred).height ≤ 10 := by
  rw [height, length_ofWorkers, workerLines, maxWorkers]
  omega

theorem accurate_ofWorkers (preferred : Nat) : (ofWorkers preferred).Accurate .blank text := by
  have hheight : (ofWorkers preferred).height = totalHeight (workerLines preferred) :=
    length_emptyLines _
  have hlow : (ofWorkers preferred).height ≤ Position.limit :=
    Nat.le_trans (height_ofWorkers_le preferred) (by decide)
  refine ⟨?_, ?_, hlow, ?_, fun l hl => ?_, fun l hl => ?_⟩
  · rw [hheight]
    exact map_anchor_emptyLines _
  · rw [hheight]
    exact Nat.zero_lt_succ _
  · rw [hheight] at hlow
    exact Nat.le_trans (Nat.sub_le _ 1) hlow
  · obtain ⟨row, -, rfl⟩ := mem_emptyLines hl
    rfl
  · obtain ⟨row, hrow, rfl⟩ := mem_emptyLines hl
    rw [hheight] at hlow
    exact AnchoredLine.accurate_onRow (Nat.lt_of_lt_of_le hrow hlow)

theorem contents_ofWorkers (preferred : Nat) :
    (ofWorkers preferred).contents =
      List.replicate (totalHeight (workerLines preferred)) ([] : Line) := by
  refine List.eq_replicate_iff.mpr ⟨?_, fun content hc => ?_⟩
  · rw [contents, List.length_map]
    exact length_emptyLines _
  · obtain ⟨l, hl, rfl⟩ := List.mem_map.mp hc
    obtain ⟨row, -, rfl⟩ := mem_emptyLines hl
    rfl

end StatusBlock

end ProgressDisplay
