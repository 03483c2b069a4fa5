import ProgressDisplay.Proofs.Live.Captions
import ProgressDisplay.Proofs.Style.LongestPrefix

/-!
# Lines that fit the terminal

What is put on the lines of the block is cut so that the last column of the terminal stays free. A
terminal of one column has no other column, and for it nothing is cut.

* `Line.Separable.width_fitColumns_le`: a line that was cut for a terminal fits it.
* `Display.compose_fits`: what every line of the block shows, whatever the events were.
* `Display.not_compose_fits`: where a line does not fit.
-/

namespace ProgressDisplay

namespace Line

variable {line : Line}

/-- A line that is cut for a terminal begins as it did. -/
theorem glyphs_fitColumns_isPrefix (columns : Option Nat) (line : Line) :
    (fitColumns columns line).glyphs <+: line.glyphs := by
  unfold fitColumns
  split
  · exact List.prefix_refl _
  · split
    · exact List.prefix_refl _
    · exact glyphs_truncate_isPrefix _ line

theorem fitColumns_one (line : Line) : fitColumns (some 1) line = line := rfl

theorem Separable.width_fitColumns_le (h : line.Separable) {columns : Nat} (htwo : 2 ≤ columns) :
    width (fitColumns (some columns) line) ≤ columns - 1 := by
  rw [fitColumns, if_neg (by omega)]
  exact h.width_truncate_le _

end Line

namespace StatusBlock

variable {b : StatusBlock}

theorem content_statusLine : b.statusLine.content = b.contents.headD [] := by
  unfold statusLine contents
  cases b.lines <;> rfl

theorem contents_workers : b.workers.map AnchoredLine.content = b.contents.tail.dropLast := by
  rw [workers, List.map_dropLast, List.map_tail]
  rfl

end StatusBlock

theorem dropLast_overlay {new old : List Line} (h : new.length = old.dropLast.length) :
    (overlay new old).dropLast = new := by
  rw [List.length_dropLast] at h
  rcases List.eq_nil_or_concat' old with rfl | ⟨first, last, rfl⟩
  · rw [overlay, List.drop_nil, List.append_nil, List.length_nil, List.take_zero]
    exact (List.eq_nil_of_length_eq_zero h).symm
  · rw [List.length_append, List.length_singleton, Nat.add_sub_cancel] at h
    rw [overlay, h, List.drop_left, List.take_of_length_le (by simp [h]), List.dropLast_concat]

namespace Display

variable {d : Display}

/-- What stands on the line of the build, if there is one. -/
theorem content_statusLine_compose {columns : Nat} {status : String}
    (hcolumns : d.columns = some columns) (hcurrent : d.tracker.headline.current = some status)
    (hlines : d.compose.page.block.lines ≠ []) :
    d.compose.page.block.statusLine.content =
      if status = "" then []
      else Line.fitColumns (some columns) [⟨.emphasized { bold := true }, status⟩] := by
  have hcontents : d.compose.page.block.contents = _ := d.contents_compose
  rw [StatusBlock.content_statusLine, hcontents]
  cases hold : d.page.contents with
  | nil =>
    rw [hold] at hcontents
    exact absurd (List.map_eq_nil_iff.mp hcontents) hlines
  | cons old rest =>
    rw [Tracker.captions, Headline.content, hcurrent, hcolumns, Option.map_some, Option.getD_some,
      List.headD_cons]

theorem width_statusLine_compose_le {columns : Nat} {status : String}
    (hcolumns : d.columns = some columns) (hcurrent : d.tracker.headline.current = some status)
    (htwo : 2 ≤ columns) (h : Text.Separable status.toList) :
    Line.width d.compose.page.block.statusLine.content ≤ columns - 1 := by
  by_cases hlines : d.compose.page.block.lines = []
  · rw [StatusBlock.statusLine, hlines]
    exact Nat.zero_le _
  · rw [content_statusLine_compose hcolumns hcurrent hlines]
    split
    · exact Nat.zero_le _
    · exact Line.Separable.width_fitColumns_le (List.forall_mem_singleton.mpr h) htwo

theorem width_statusLine_compose_one {status : String} (hcolumns : d.columns = some 1)
    (hcurrent : d.tracker.headline.current = some status)
    (hlines : d.compose.page.block.lines ≠ []) :
    Line.width d.compose.page.block.statusLine.content = Text.width status := by
  rw [content_statusLine_compose hcolumns hcurrent hlines, Line.fitColumns_one]
  split
  · rename_i hempty
    rw [hempty]
    rfl
  · exact Nat.add_zero _

/-- The worker lines show what the assignment says, if it has as many lines. -/
theorem contents_workers_compose
    (hcount : d.tracker.lines.owners.length = d.page.block.workers.length) :
    d.compose.page.block.workers.map AnchoredLine.content =
      d.tracker.lines.contents d.tracker.forest d.present d.columns := by
  have hcontents : d.compose.page.block.contents = _ := d.contents_compose
  have hlength : (d.tracker.lines.contents d.tracker.forest d.present d.columns).length =
      d.page.contents.tail.dropLast.length := by
    have hworkers := congrArg List.length (StatusBlock.contents_workers (b := d.page.block))
    rw [List.length_map] at hworkers
    rw [LineAssignment.contents, List.length_map, hcount, hworkers]
    rfl
  rw [StatusBlock.contents_workers, hcontents]
  cases hold : d.page.contents with
  | nil =>
    rw [hold] at hlength
    exact (List.eq_nil_of_length_eq_zero hlength).symm
  | cons status rest =>
    rw [hold] at hlength
    exact dropLast_overlay hlength

/-- What stands on a worker line. -/
theorem content_worker {i : Nat} {l : AnchoredLine}
    (hcount : d.tracker.lines.owners.length = d.page.block.workers.length)
    (hl : d.compose.page.block.workers[i]? = some l) :
    l.content =
      match (d.tracker.lines.ownerOf i).bind d.tracker.forest.get? with
      | some o => Line.fitColumns d.columns (d.present o)
      | none => [] := by
  have hcontent : (d.compose.page.block.workers.map AnchoredLine.content)[i]? = some l.content := by
    rw [List.getElem?_map, hl, Option.map_some]
  rw [contents_workers_compose hcount, LineAssignment.contents, List.getElem?_map] at hcontent
  obtain ⟨owner, howner, hcontent⟩ := Option.map_eq_some_iff.mp hcontent
  have howned : d.tracker.lines.ownerOf i = owner := by
    rw [LineAssignment.ownerOf, howner, Option.join_some]
  subst howned
  exact hcontent.symm

/-- After every run of events, on a terminal with a known number of columns, the line of the build
and the lines of the workers leave the last column free if all beginnings of what they show are as
wide as their characters, unless the terminal has no other column, where nothing is cut. A worker
line without an owner is empty. One with an owner shows a beginning of how its owner is presented,
and that operation runs. -/
theorem compose_fits (d : Display) (events : List Event) (columns : Nat) (status : String)
    (hreached : d.tracker = .run events (.ofLines d.page.block.workers.length))
    (hcolumns : d.columns = some columns) (hpositive : 1 ≤ columns)
    (hcurrent : d.tracker.headline.current = some status) :
    let block := d.compose.page.block
    (2 ≤ columns → Text.Separable status.toList →
      Line.width block.statusLine.content ≤ columns - 1) ∧
    (columns = 1 → block.lines ≠ [] →
      Line.width block.statusLine.content = Text.width status) ∧
    ∀ i l, block.workers[i]? = some l →
      (d.tracker.lines.ownerOf i = none → l.content = []) ∧
      ∀ id, d.tracker.lines.ownerOf i = some id →
        ∃ o, d.tracker.forest.get? id = some o ∧
          l.content.glyphs <+: (d.present o).glyphs ∧
          (columns = 1 → l.content = d.present o) ∧
          (2 ≤ columns → (d.present o).Separable → Line.width l.content ≤ columns - 1) := by
  intro block
  have hsound := (Tracker.sound_ofLines d.page.block.workers.length).run events
  have hcount := Tracker.length_owners_run d.page.block.workers.length events
  rw [← hreached] at hsound hcount
  refine ⟨width_statusLine_compose_le hcolumns hcurrent, ?_,
    fun i l hl => ⟨fun hfree => ?_, fun id howner => ?_⟩⟩
  · rintro rfl hlines
    exact width_statusLine_compose_one hcolumns hcurrent hlines
  · rw [content_worker hcount hl, hfree]
    rfl
  · have hruns := hsound.arranged.mem_of_lineOf
      ((hsound.arranged.booked.agree id i).mpr howner)
    obtain ⟨o, ho⟩ := Option.isSome_iff_exists.mp hruns
    have hcontent := content_worker hcount hl
    rw [howner, Option.bind_some, ho, hcolumns] at hcontent
    refine ⟨o, ho, ?_, ?_, ?_⟩
    · rw [hcontent]
      exact Line.glyphs_fitColumns_isPrefix _ _
    · rintro rfl
      rw [hcontent]
      exact Line.fitColumns_one _
    · intro htwo hseparable
      rw [hcontent]
      exact hseparable.width_fitColumns_le htwo

/-- A display on a new page, which events have reached. -/
def reachedBy (events : List Event) (workers columns : Nat) : Display :=
  let page := Page.start {} .blank workers
  { Display.start page true (some columns) with
    tracker := .run events (.ofLines page.block.workers.length) }

/-- A build with one task, which has taken over the build's line, on a terminal of six columns: both
are cut to five. -/
theorem compose_fits_of_narrow :
    let d := reachedBy [.start 1 none "CONFIGURING" "", .start 2 (some 1) ":compile" ""] 2 6
    let task : Line := [⟨.of .description, ":compile"⟩]
    Line.width d.compose.page.block.statusLine.content ≤ 5 ∧
    ∃ l, d.compose.page.block.workers[0]? = some l ∧
      l.content.glyphs <+: task.glyphs ∧ Line.width l.content ≤ 5 := by
  intro d task
  obtain ⟨hstatus, -, hworkers⟩ := compose_fits d
    [.start 1 none "CONFIGURING" "", .start 2 (some 1) ":compile" ""] 6 "CONFIGURING" rfl rfl
    (by decide) rfl
  have howner : d.tracker.lines.ownerOf 0 = some 2 := by decide +kernel
  have htask : d.tracker.forest.get? 2 = some ⟨2, some 1, ":compile", "", 0⟩ := by decide +kernel
  refine ⟨hstatus (by decide) (by decide +kernel), _, rfl, ?_⟩
  obtain ⟨-, howned⟩ := hworkers 0 _ rfl
  obtain ⟨o, ho, hfirst, -, hfits⟩ := howned 2 howner
  obtain rfl := Option.some.inj (htask.symm.trans ho)
  exact ⟨hfirst, hfits (by decide) (by decide +kernel)⟩

/-- Every text that is to be shown takes the columns of its characters taken one by one. -/
def Summed (d : Display) : Prop :=
  (∀ status, d.tracker.headline.current = some status →
    Text.width status = Text.widthApart status.toList) ∧
  ∀ id o, d.tracker.forest.get? id = some o →
    ∀ s ∈ d.present o, s.width = Text.widthApart s.text.toList

theorem summed_reachedBy {text : String} {workers columns : Nat}
    (h : Text.width text = Text.widthApart text.toList) :
    (reachedBy [.start 1 none text ""] workers columns).Summed := by
  refine ⟨fun status hstatus => ?_, fun id o ho s hs => ?_⟩
  · obtain rfl := Option.some.inj hstatus
    exact h
  · have hget : (if 1 = id then some (Operation.mk 1 none text "" 0) else none) = some o := by
      rw [← ho]
      exact (Table.get?_insert .empty 1 id _).symm
    split at hget
    · obtain rfl := Option.some.inj hget
      obtain rfl := List.mem_singleton.mp hs
      exact h
    · cases hget

/-- A terminal of one column is not spared, and a text as wide as its characters may be cut to a
beginning that is wider than its own: the digit in its emoji form takes two columns, which the pair
of letters behind it makes up for. -/
theorem not_compose_fits :
    (¬∀ (d : Display) (events : List Event) (columns : Nat),
      d.tracker = .run events (.ofLines d.page.block.workers.length) →
      d.columns = some columns → 1 ≤ columns → d.Summed →
      Line.width d.compose.page.block.statusLine.content ≤ columns - 1) ∧
    ¬∀ (d : Display) (events : List Event) (columns : Nat),
      d.tracker = .run events (.ofLines d.page.block.workers.length) →
      d.columns = some columns → 2 ≤ columns → d.Summed →
      Line.width d.compose.page.block.statusLine.content ≤ columns - 1 := by
  constructor
  · intro h
    have hbuild := h (reachedBy [.start 1 none "BUILD" ""] 0 1) [.start 1 none "BUILD" ""] 1 rfl rfl
      (by decide) (summed_reachedBy (by decide +kernel))
    revert hbuild
    decide +kernel
  · intro h
    have hdigit := h (reachedBy [.start 1 none "1\uFE0F\u0644\u0627" ""] 0 2)
      [.start 1 none "1\uFE0F\u0644\u0627" ""] 2 rfl rfl (by decide)
      (summed_reachedBy (by decide +kernel))
    revert hdigit
    decide +kernel

end Display

end ProgressDisplay
