import ProgressDisplay.Live.Display
import ProgressDisplay.Proofs.Operations.Exclusive
import ProgressDisplay.Proofs.Operations.LatestRoot
import ProgressDisplay.Proofs.Regions.Contents

/-!
# What a tracker puts on the lines

A display puts on its lines what its tracker says: the headline on the top line, once there is one,
and below it each operation on the line it holds. A later tracker has something to say about every
line that an earlier one had, so what the earlier one left there does not matter.

* `Display.contents_compose`: what the lines show is `Tracker.captions`.
* `Tracker.Covers.captions_captions`: nothing is left of an earlier tracker.
-/

namespace ProgressDisplay

/-- A list with another laid over its beginning. -/
def overlay (new old : List Line) : List Line := new.take old.length ++ old.drop new.length

theorem length_overlay (new old : List Line) : (overlay new old).length = old.length := by
  simp only [overlay, List.length_append, List.length_take, List.length_drop]
  omega

theorem drop_overlay (new old : List Line) :
    (overlay new old).drop new.length = old.drop new.length := by
  rcases Nat.le_total new.length old.length with hfits | hlong
  · rw [overlay, List.take_of_length_le hfits, List.drop_left]
  · rw [List.drop_of_length_le hlong, List.drop_of_length_le]
    rw [length_overlay]
    exact hlong

/-- As many lines hide what was laid there before. -/
theorem overlay_overlay {later new : List Line} (h : later.length = new.length)
    (old : List Line) : overlay later (overlay new old) = overlay later old := by
  rw [overlay, length_overlay, h, drop_overlay, ← h, overlay]

theorem StatusBlock.map_content_setContents (new : List Line) (lines : List AnchoredLine) :
    (setContents new lines).map AnchoredLine.content =
      overlay new (lines.map AnchoredLine.content) := by
  fun_induction setContents new lines with
  | case1 content contents l lines ih =>
    rw [List.map_cons, ih]
    rfl
  | case2 new lines h =>
    cases new with
    | nil => simp [overlay]
    | cons content contents =>
      cases lines with
      | nil => rfl
      | cons l lines => exact (h content contents l lines rfl rfl).elim

theorem StatusBlock.contents_setWorkers (b : StatusBlock) (new : List Line) :
    (b.setWorkers new).contents =
      match b.contents with
      | [] => []
      | status :: rest => status :: overlay new rest := by
  obtain ⟨lines, position, visible⟩ := b
  cases lines with
  | nil => rfl
  | cons l lines => exact congrArg (l.content :: ·) (map_content_setContents new lines)

/-- What the lines show once a tracker was put on them, if they showed something before. -/
def Tracker.captions (t : Tracker) (present : LineAssignment.Presentation)
    (columns : Option Nat) : List Line → List Line
  | [] => []
  | status :: rest =>
    (t.headline.content columns).getD status ::
      overlay (t.lines.contents t.forest present columns) rest

theorem Display.contents_compose (d : Display) :
    d.compose.page.contents = d.tracker.captions d.present d.columns d.page.contents := by
  have hworkers := d.page.block.contents_setWorkers
    (d.tracker.lines.contents d.tracker.forest d.present d.columns)
  unfold compose Page.contents
  simp only [withPage]
  split
  · rename_i content hheadline
    rw [StatusBlock.contents_setLine, hworkers]
    cases d.page.block.contents with
    | nil => rfl
    | cons status rest => simp only [Tracker.captions, hheadline, List.modify_zero_cons,
        Option.getD_some]
  · rename_i hheadline
    rw [hworkers]
    cases d.page.block.contents with
    | nil => rfl
    | cons status rest => simp only [Tracker.captions, hheadline, Option.getD_none]

namespace Tracker

variable {t t' later earlier : Tracker}

/-- A tracker has something to say about every line that another one has. -/
structure Covers (later earlier : Tracker) : Prop where
  lines : later.lines.owners.length = earlier.lines.owners.length
  headline : earlier.headline.current.isSome → later.headline.current.isSome

theorem covers_apply {e : Event} (h : t.apply e = .ok t') : t'.Covers t where
  lines := length_owners_apply h
  headline := by
    rw [headline_apply h]
    exact fun hsome => Headline.isSome_current_after hsome e

theorem covers_applyAll (events : List Event) (t : Tracker) : (applyAll events t).1.Covers t := by
  induction events generalizing t with
  | nil => exact ⟨rfl, id⟩
  | cons e rest ih =>
    rw [applyAll]
    cases ha : t.apply e with
    | ok next =>
      have hnext := covers_apply ha
      exact ⟨(ih next).lines.trans hnext.lines, fun h => (ih next).headline (hnext.headline h)⟩
    | error violation => exact ⟨rfl, id⟩

theorem Covers.captions_captions (h : later.Covers earlier)
    (present : LineAssignment.Presentation) (columns : Option Nat) (old : List Line) :
    later.captions present columns (earlier.captions present columns old) =
      later.captions present columns old := by
  cases old with
  | nil => rfl
  | cons status rest =>
    have hheadline : (later.headline.content columns).getD
        ((earlier.headline.content columns).getD status) =
          (later.headline.content columns).getD status := by
      unfold Headline.content
      cases hearlier : earlier.headline.current with
      | none => rfl
      | some text =>
        obtain ⟨text', hlater⟩ :=
          Option.isSome_iff_exists.mp (h.headline (Option.isSome_of_eq_some hearlier))
        rw [hlater]
        rfl
    have hlines : (later.lines.contents later.forest present columns).length =
        (earlier.lines.contents earlier.forest present columns).length := by
      simp only [LineAssignment.contents, List.length_map, h.lines]
    simp only [captions, hheadline, overlay_overlay hlines]

end Tracker

end ProgressDisplay
