import Mathlib.Order.Bounds.Basic
import ProgressDisplay.Proofs.Regions.Actions
import ProgressDisplay.Proofs.Regions.Bookkeeping

/-!
# Text and block kept apart

Between two actions a page is `Tidy`: its text is not above the block by more than a row, and the
lines of the block are on their rows, unless the text has come down to the bottom row. A flush and a
request of output that writes something also take the text off the rows of the block. For that the
terminal scrolls no further than it has to.

* `Page.Tidy.act`, `Page.Tidy.run`: one action, and a whole run.
* `Page.run_separated`: where text and block are after an action that draws, and how far a page
  scrolls.
-/

namespace ProgressDisplay

open Attempt

/-- A text of which nothing is written is empty, but for a carriage return that is dropped. -/
def OutputRequest.Writes : OutputRequest → Prop
  | .style _ => False
  | .text content => content ≠ "" ∧ content ≠ "\r"
  | .endLine | .line _ => True

/-- A flush, or output of which something is written. -/
def PageAction.Draws : PageAction → Prop
  | .output request => request.Writes
  | .flush => True
  | .setLine .. | .close | .setVisible _ => False

namespace Page

variable {s u : Page}

/-- All lines of the block are on their rows. -/
def Anchored (s : Page) : Prop := ∀ l ∈ s.block.lines, l.position.row = l.anchor

/-- The text is on the top row of the block with nothing written there yet, or it is on the row
above, and the lines of the block are on their rows. -/
structure Separated (s : Page) : Prop where
  text : s.text.row = s.block.top ∧ s.text.col = 0 ∨ s.text.row = s.block.height
  anchored : s.Anchored

/-- The block has rows that can be counted, and its lines are shown just if it is. -/
structure Framed (s : Page) : Prop where
  nonempty : 0 < s.block.height
  low : s.block.height ≤ Position.limit
  anchors : ∀ l ∈ s.block.lines, l.anchor ≤ Position.limit
  visible : ∀ l ∈ s.block.lines, l.visible = s.block.visible

structure Tidy (s : Page) : Prop extends s.Framed where
  row : s.text.row ≤ s.block.height
  anchored : 0 < s.text.row → s.Anchored

theorem Follows.framed (h : u.Follows s) (hs : s.Framed) : u.Framed where
  nonempty := h.height ▸ hs.nonempty
  low := h.height ▸ hs.low
  anchors := h.anchored hs.anchors
  visible := by
    intro l hl
    obtain ⟨d, hd, -, hvisible⟩ := h.lines l hl
    rw [hvisible, h.visible]
    exact hs.visible d hd

theorem Framed.top_add_one (h : s.Framed) : s.block.top + 1 = s.block.height :=
  Nat.sub_add_cancel h.nonempty

theorem Anchored.raise_zero (h : s.Anchored) (hframed : s.Framed)
    (hblock : u.block = s.block.raise 0) : u.Anchored := by
  intro l hl
  rw [hblock] at hl
  obtain ⟨d, hd, rfl⟩ := List.mem_map.mp hl
  show min (d.position.row + 0) Position.limit = d.anchor
  rw [h d hd]
  exact Nat.min_eq_left (hframed.anchors d hd)

/-! ## How far the text is from the block -/

theorem height_le_of_clear (hframed : s.Framed) (hv : s.block.visible = true)
    (hclear : s.overlap true = 0) : s.block.height ≤ s.text.row := by
  have htop := hframed.top_add_one
  simp only [Page.overlap, StatusBlock.overlap, hv, if_true, Bool.or_true] at hclear
  omega

theorem placed_of_clear (hframed : s.Framed) (hv : s.block.visible = true)
    (hrow : s.text.row ≤ s.block.height) (hclear : s.overlap false = 0) :
    s.text.row = s.block.top ∧ s.text.col = 0 ∨ s.text.row = s.block.height := by
  have htop := hframed.top_add_one
  simp only [Page.overlap, StatusBlock.overlap, hv, if_true, Bool.or_false, decide_eq_true_eq]
    at hclear
  split at hclear <;> omega

/-- Of these lines something is written, if only a line end. -/
def WritesLines : List (List Char) → Prop
  | [] => False
  | [last] => withoutReturn last ≠ []
  | _ :: _ :: _ => True

theorem writesLines_pieces {text : String} (hne : text ≠ "") (hne' : text ≠ "\r") :
    WritesLines (Text.pieces '\n' text.toList) := by
  match hpieces : Text.pieces '\n' text.toList with
  | [] => exact absurd hpieces (Text.pieces_ne_nil _ _)
  | [last] =>
    have hlast : last = text.toList := by
      have hwhole := Text.intercalate_pieces '\n' text.toList
      rwa [hpieces, List.intercalate_singleton] at hwhole
    subst hlast
    show withoutReturn text.toList ≠ []
    intro hnothing
    unfold withoutReturn at hnothing
    split at hnothing
    · rename_i hreturn
      refine hne' (String.toList_injective ?_)
      have hlist := List.dropLast_append_getLast? '\r' hreturn
      rw [hnothing] at hlist
      exact hlist.symm
    · exact hne (String.toList_injective hnothing)
  | _ :: _ :: _ => trivial

namespace Tidy

theorem row_lifted {pending : Bool} (h : s.Tidy) (hu : u.Lifted s pending) :
    u.text.row ≤ u.block.height := by
  have hrow := h.row
  have hbound := s.overlap_le pending
  rw [hu.text, hu.height]
  show s.text.row + s.overlap pending ≤ s.block.height
  omega

theorem redrawBlock (h : s.Tidy) :
    s.redrawBlock.Ensures fun u => u.Tidy ∧ u.Follows s ∧
      (s.block.visible = true → u.Separated) := by
  refine (redrawBlock_rests h.low).mono fun u hu => ?_
  have hframed : u.Framed := hu.toFollows.framed h.toFramed
  have hrow : u.text.row ≤ u.block.height := h.row_lifted hu.toLifted
  cases hv : s.block.visible with
  | true =>
    have huv : u.block.visible = true := hu.visible.trans hv
    have hanchored : u.Anchored :=
      hu.rests.anchored fun l hl => (hframed.visible l hl).trans huv
    exact ⟨⟨hframed, hrow, fun _ => hanchored⟩, hu.toFollows,
      fun _ => ⟨placed_of_clear hframed huv hrow hu.rests.clear, hanchored⟩⟩
  | false =>
    refine ⟨⟨hframed, hrow, fun hup l' hl' => ?_⟩, hu.toFollows, nofun⟩
    have hsame : u.text = s.text := by
      rw [hu.text, overlap_of_hidden hv false]
      rfl
    obtain ⟨l, hl, hsettles⟩ := hu.hidden hv l' hl'
    exact hsettles.anchored (h.anchored (hsame ▸ hup) l hl)

theorem vacateLine (h : s.Tidy) :
    s.vacateLine.Ensures fun u => u.Tidy ∧ u.Follows s ∧ u.overlap true = 0 := by
  refine (vacateLine_clears h.low).mono fun u hu => ?_
  obtain ⟨hlifted, hsame, hrests⟩ := hu
  by_cases hclear : s.overlap true = 0
  · obtain rfl := hsame hclear
    exact ⟨h, .refl u, hclear⟩
  · have hv := visible_of_overlap hclear
    have hframed : u.Framed := hlifted.toFollows.framed h.toFramed
    refine ⟨⟨hframed, h.row_lifted hlifted, fun _ => ?_⟩, hlifted.toFollows, hlifted.clear⟩
    exact (hrests hclear).anchored fun l hl =>
      (hframed.visible l hl).trans (hlifted.visible.trans hv)

/-- A page that is clear for text has it just above the block. -/
theorem row_eq_of_clear (h : s.Tidy) (hv : s.block.visible = true) (hclear : s.overlap true = 0) :
    s.text.row = s.block.height :=
  Nat.le_antisymm h.row (height_le_of_clear h.toFramed hv hclear)

/-- Text that is written keeps to its row. -/
theorem stay (h : s.Tidy) (hu : u.Follows s) (hrow : u.text.row = s.text.row)
    (hblock : u.block = s.block.raise 0) :
    u.Tidy ∧ (s.text.row = s.block.height → u.Separated) := by
  have hanchored (hup : 0 < s.text.row) : u.Anchored :=
    (h.anchored hup).raise_zero h.toFramed hblock
  refine ⟨⟨hu.framed h.toFramed, ?_, fun hup => hanchored (hrow ▸ hup)⟩, fun habove => ?_⟩
  · rw [hrow, hu.height]
    exact h.row
  · exact ⟨Or.inr (by rw [hrow, hu.height, habove]), hanchored (habove ▸ h.nonempty)⟩

/-- A line end takes the text a row down, and only on the bottom row the terminal scrolls. -/
theorem descend (h : s.Tidy) (hu : u.Follows s) (htext : u.text = { row := s.text.row - 1 })
    (hblock : u.block = s.block.raise (if s.text.row = 0 then 1 else 0)) :
    u.Tidy ∧ (s.text.row = s.block.height → u.Separated) := by
  have hanchored (hup : 0 < s.text.row) : u.Anchored := by
    rw [if_neg hup.ne'] at hblock
    exact (h.anchored hup).raise_zero h.toFramed hblock
  refine ⟨⟨hu.framed h.toFramed, ?_, fun hup => ?_⟩, fun habove => ?_⟩
  · rw [htext, hu.height]
    exact (Nat.sub_le _ 1).trans h.row
  · rw [htext] at hup
    exact hanchored (hup.trans_le (Nat.sub_le _ 1))
  · refine ⟨Or.inl ?_, hanchored (habove ▸ h.nonempty)⟩
    rw [htext, hu.top, habove]
    exact ⟨rfl, rfl⟩

theorem writeText (h : s.Tidy) (text : List Char) :
    (s.writeText text).Ensures fun u => u.Tidy ∧ u.Follows s ∧
      (s.block.visible = true → s.Separated ∨ text ≠ [] → u.Separated) := by
  unfold Page.writeText
  split
  · rename_i hempty
    refine ensures_done ⟨h, .refl s, fun _ hs => ?_⟩
    exact hs.resolve_right fun hne => hne hempty
  · refine h.vacateLine.andThen fun t ⟨ht, hfollows, hclear⟩ => fun hok => ?_
    have hnext := drawText_follows t _ hok
    obtain ⟨hrow, hblock⟩ := drawText_stays (fun p hp =>
      (hp.eraseRestIf _).styled s.style fun q hq => hq.tabbed _) hok
    obtain ⟨htidy, hseparated⟩ := ht.stay hnext hrow hblock
    exact ⟨htidy, hnext.trans hfollows, fun hv _ =>
      hseparated (ht.row_eq_of_clear (hfollows.visible.trans hv) hclear)⟩

theorem endLine (h : s.Tidy) :
    s.endLine.Ensures fun u => u.Tidy ∧ u.Follows s ∧
      (s.block.visible = true → u.Separated) := by
  refine h.vacateLine.andThen fun t ⟨ht, hfollows, hclear⟩ => fun hok => ?_
  have hnext := drawText_follows t _ hok
  obtain ⟨htext, hblock⟩ := drawBreak_descends t _ hok
  obtain ⟨htidy, hseparated⟩ := ht.descend hnext htext hblock
  exact ⟨htidy, hnext.trans hfollows, fun hv =>
    hseparated (ht.row_eq_of_clear (hfollows.visible.trans hv) hclear)⟩

theorem writeLines {lines : List (List Char)} (h : s.Tidy) :
    (Page.writeLines lines s).Ensures fun u => u.Tidy ∧ u.Follows s ∧
      (s.block.visible = true → s.Separated ∨ WritesLines lines → u.Separated) := by
  induction lines generalizing s with
  | nil => exact ensures_done ⟨h, .refl s, fun _ hs => hs.resolve_right id⟩
  | cons line rest ih =>
    cases rest with
    | nil => exact h.writeText _
    | cons next others =>
      have hended : ((s.writeText (withoutReturn line)).andThen Page.endLine).Ensures fun u =>
          u.Tidy ∧ u.Follows s ∧ (s.block.visible = true → u.Separated) := by
        refine (h.writeText _).andThen fun t ⟨ht, hfollows, _⟩ => ?_
        refine ht.endLine.mono fun u ⟨hu, hnext, hseparated⟩ => ?_
        exact ⟨hu, hnext.trans hfollows, fun hv => hseparated (hfollows.visible.trans hv)⟩
      refine hended.andThen fun t ⟨ht, hfollows, hseparated⟩ => ?_
      refine (ih ht).mono fun u ⟨hu, hnext, hrest⟩ => ?_
      exact ⟨hu, hnext.trans hfollows, fun hv _ =>
        hrest (hfollows.visible.trans hv) (Or.inl (hseparated hv))⟩

theorem write (h : s.Tidy) (text : String) :
    (s.write text).Ensures fun u => u.Tidy ∧ u.Follows s ∧
      (s.block.visible = true → text ≠ "" → text ≠ "\r" → u.Separated) := by
  refine h.writeLines.mono fun u ⟨hu, hfollows, hseparated⟩ => ⟨hu, hfollows, ?_⟩
  exact fun hv hne hne' => hseparated hv (Or.inr (writesLines_pieces hne hne'))

theorem output (h : s.Tidy) (request : OutputRequest) :
    (s.output request).Ensures fun u => u.Tidy ∧
      (s.block.visible = true → request.Writes → u.Separated) := by
  cases request with
  | style style =>
    exact ensures_done ⟨⟨⟨h.nonempty, h.low, h.anchors, h.visible⟩, h.row, h.anchored⟩, nofun⟩
  | text content =>
    exact (h.write content).mono fun u ⟨hu, _, hseparated⟩ =>
      ⟨hu, fun hv hwrites => hseparated hv hwrites.1 hwrites.2⟩
  | endLine =>
    exact h.endLine.mono fun u ⟨hu, _, hseparated⟩ => ⟨hu, fun hv _ => hseparated hv⟩
  | line content =>
    refine (h.write content).andThen fun t ⟨ht, hfollows, _⟩ => ?_
    exact ht.endLine.mono fun u ⟨hu, _, hseparated⟩ =>
      ⟨hu, fun hv _ => hseparated (hfollows.visible.trans hv)⟩

theorem flush (h : s.Tidy) :
    s.flush.Ensures fun u => u.Tidy ∧ (s.block.visible = true → u.Separated) := by
  refine h.redrawBlock.andThen fun t ⟨ht, _, hseparated⟩ => ?_
  refine ensures_ofExcept fun w _ => ⟨?_, fun hv => ?_⟩
  · exact ⟨⟨ht.nonempty, ht.low, ht.anchors, ht.visible⟩, ht.row, ht.anchored⟩
  · exact ⟨(hseparated hv).text, (hseparated hv).anchored⟩

/-- Lines may be shown, hidden or given another content. -/
theorem withBlock {block : StatusBlock} (h : s.Tidy) (hheight : block.height = s.block.height)
    (hvisible : ∀ l ∈ block.lines, l.visible = block.visible)
    (hlines : ∀ l' ∈ block.lines, ∃ l ∈ s.block.lines,
      l'.anchor = l.anchor ∧ l'.position = l.position) : Tidy { s with block } where
  nonempty := h.nonempty.trans_eq hheight.symm
  low := hheight.trans_le h.low
  anchors := by
    intro l' hl'
    obtain ⟨l, hl, hanchor, -⟩ := hlines l' hl'
    rw [hanchor]
    exact h.anchors l hl
  visible := hvisible
  row := h.row.trans_eq hheight.symm
  anchored := by
    intro hup l' hl'
    obtain ⟨l, hl, hanchor, hposition⟩ := hlines l' hl'
    rw [hanchor, hposition]
    exact h.anchored hup l hl

theorem setVisible (h : s.Tidy) (visible : Bool) : (s.setVisible visible).Tidy := by
  refine h.withBlock StatusBlock.height_setVisible (List.forall_mem_map.mpr fun _ _ => rfl) ?_
  exact List.forall_mem_map.mpr fun l hl => ⟨l, hl, rfl, rfl⟩

theorem setLine (h : s.Tidy) (index : Nat) (content : Line) :
    Tidy { s with block := s.block.setLine index content } := by
  refine h.withBlock StatusBlock.height_setLine (fun l hl => ?_) fun l hl => ?_
  · rcases StatusBlock.mem_setLine hl with hl | ⟨d, hd, rfl⟩
    · exact h.visible l hl
    · exact h.visible d hd
  · rcases StatusBlock.mem_setLine hl with hl | ⟨d, hd, rfl⟩
    · exact ⟨l, hl, rfl, rfl⟩
    · exact ⟨d, hd, rfl, rfl⟩

theorem act (h : s.Tidy) (a : PageAction) :
    (s.act a).Ensures fun u => u.Tidy ∧ (s.block.visible = true → a.Draws → u.Separated) := by
  cases a with
  | output request => exact h.output request
  | setLine index content => exact ensures_done ⟨h.setLine index content, nofun⟩
  | flush => exact h.flush.mono fun u ⟨hu, hseparated⟩ => ⟨hu, fun hv _ => hseparated hv⟩
  | close => exact (h.setVisible false).flush.mono fun u ⟨hu, _⟩ => ⟨hu, nofun⟩
  | setVisible visible => exact ensures_done ⟨h.setVisible visible, nofun⟩

theorem run (h : s.Tidy) (actions : List PageAction) : (s.run actions).Ensures Tidy := by
  induction actions generalizing s with
  | nil => exact ensures_done h
  | cons a rest ih => exact (h.act a).andThen fun u ⟨hu, _⟩ => ih hu

end Tidy

theorem tidy_start (device : Device) (palette : Palette) (workers : Nat) :
    (start device palette workers).Tidy where
  nonempty := by
    show 0 < (StatusBlock.ofWorkers workers).lines.length
    rw [StatusBlock.length_ofWorkers]
    exact Nat.succ_pos _
  low := (StatusBlock.height_ofWorkers_le workers).trans (by decide)
  anchors := by
    intro l hl
    obtain ⟨row, hrow, rfl⟩ := StatusBlock.mem_emptyLines hl
    have hheight := StatusBlock.height_ofWorkers_le workers
    rw [StatusBlock.height, StatusBlock.length_ofWorkers] at hheight
    show row ≤ 65535
    simp only [StatusBlock.totalHeight] at hrow
    omega
  visible := by
    intro l hl
    obtain ⟨row, -, rfl⟩ := StatusBlock.mem_emptyLines hl
    rfl
  row := Nat.zero_le _
  anchored := nofun

/-! ## How far a page scrolls -/

/-- The terminal was scrolled by so many line breaks on the bottom row, and all that stands on it
went up with it. -/
structure ScrolledBy (u s : Page) (rows : Nat) : Prop where
  output : u.writer.device.output = s.writer.device.output ++
    if rows = 0 then []
    else s.writer.cursor.motions .bottomLeft ++ List.replicate rows .lineBreak
  text : u.text = { s.text with row := s.text.row + rows }
  position : u.block.position = { s.block.position with row := s.block.position.row + rows }
  lines : u.block.lines = s.block.lines.map fun l =>
    { l with position := { l.position with row := l.position.row + rows } }

theorem isLeast_overlap (s : Page) (pending : Bool) :
    IsLeast {rows | s.block.overlap { s.text with row := s.text.row + rows } pending = 0}
      (s.overlap pending) := by
  have hrows : {rows | s.block.overlap { s.text with row := s.text.row + rows } pending = 0} =
      Set.Ici (s.overlap pending) := by
    ext rows
    rw [Set.mem_ofPred_eq, overlap_lifted, Nat.sub_eq_zero_iff_le, Set.mem_Ici]
  rw [hrows]
  exact isLeast_Ici

theorem clearBlock_scrolledBy {pending : Bool} (hlow : s.block.height ≤ Position.limit)
    (hblock : s.block.position.row + s.overlap pending ≤ Position.limit)
    (hlines : ∀ l ∈ s.block.lines, l.position.row + s.overlap pending ≤ Position.limit) :
    (s.clearBlock pending).Ensures fun u => u.ScrolledBy s (s.overlap pending) := by
  intro hok
  have hlifted := clearBlock_lifts hlow hok
  have hscrolls := clearBlock_scrolls s pending hok
  generalize (s.clearBlock pending).state = u at hlifted hscrolls
  by_cases hclear : s.overlap pending = 0
  · rw [if_pos hclear] at hscrolls
    subst hscrolls
    rw [hclear]
    exact ⟨by simp, rfl, rfl, by simp⟩
  · rw [if_neg hclear] at hscrolls
    refine ⟨?_, hlifted.text, ?_, ?_⟩
    · rw [hscrolls, if_neg hclear]
      rfl
    · rw [hscrolls]
      show s.block.position.raise _ = _
      rw [Position.raise, Nat.min_eq_left hblock]
    · rw [hscrolls]
      refine List.map_congr_left fun l hl => ?_
      rw [AnchoredLine.raise, Position.raise, Nat.min_eq_left (hlines l hl)]

/-- After a run that completes, a last action that draws the block leaves it apart from the text.
And wherever the text of a page stands, the terminal scrolls by the least number of rows that takes
it clear of the block. -/
theorem run_separated :
    (∀ (device : Device) (palette : Palette) (workers : Nat) (actions : List PageAction)
        (last : PageAction), last.Draws →
        ((start device palette workers).run actions).state.block.visible = true →
        ((start device palette workers).run (actions ++ [last])).failure = none →
        ((start device palette workers).run (actions ++ [last])).state.Separated) ∧
      ∀ (s : Page) (pending : Bool), s.block.height ≤ Position.limit →
        s.block.position.row + s.overlap pending ≤ Position.limit →
        (∀ l ∈ s.block.lines, l.position.row + s.overlap pending ≤ Position.limit) →
        (s.clearBlock pending).failure = none →
        ∃ rows,
          IsLeast {rows | s.block.overlap { s.text with row := s.text.row + rows } pending = 0}
            rows ∧
          (s.clearBlock pending).state.ScrolledBy s rows := by
  refine ⟨fun device palette workers actions last hdraws hv hok => ?_,
    fun s pending hlow hblock hlines hok => ?_⟩
  · rw [run_concat] at hok ⊢
    obtain ⟨hfirst, hlast⟩ := andThen_failure_none_iff.mp hok
    rw [andThen_of_none hfirst]
    have htidy := (tidy_start device palette workers).run actions hfirst
    exact (htidy.act last hlast).2 hv hdraws
  · exact ⟨_, isLeast_overlap s pending, clearBlock_scrolledBy hlow hblock hlines hok⟩

/-- Text that goes on with a line that was begun over the rows of the hidden block, and a page whose
text is below the top of its block. -/
theorem run_separated_of_shown_again :
    let actions : List PageAction := [.setLine 0 (.plain "BUILD"), .output (.line "a\tb"),
      .setVisible false, .output (.line "b"), .output (.text "c"), .setVisible true]
    let last : PageAction := .output (.text "d")
    let low : Page :=
      { writer := { palette := .blank, cursor := ⟨2, 4⟩ }, block := .ofWorkers 1, text := ⟨1, 7⟩ }
    (((start {} .blank 1).run (actions ++ [last])).failure = none ∧
      ((start {} .blank 1).run (actions ++ [last])).state.Separated) ∧
      (low.clearBlock true).failure = none ∧
      ∃ rows, IsLeast {rows | low.block.overlap { low.text with row := 1 + rows } true = 0} rows ∧
        (low.clearBlock true).state.ScrolledBy low rows := by
  intro actions last low
  have hrun : ((start {} .blank 1).run (actions ++ [last])).failure = none := by decide +kernel
  have hscroll : (low.clearBlock true).failure = none := by decide +kernel
  refine ⟨⟨hrun, ?_⟩, hscroll, ?_⟩
  · exact run_separated.1 {} .blank 1 actions last ⟨by decide, by decide⟩ (by decide +kernel) hrun
  · exact run_separated.2 low true (by decide) (by decide) (by decide) hscroll

end Page

end ProgressDisplay
