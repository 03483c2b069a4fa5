import ProgressDisplay.Proofs.Regions.Accuracy
import ProgressDisplay.Regions.Page

/-!
# What each step of the page does to the terminal

A page is `Accurate` if the terminal shows certain cells, the status block knows what it shows of
them, and the output goes on where a transcript of it says. Each step that completes keeps this, and
each lemma here also says which rows it changes and where the output goes on.

* `clearBlock_ensures`, `redrawBlock_ensures_of_visible`, `redrawBlock_ensures_of_hidden`,
  `vacateLine_ensures`: the steps that make room for the block and redraw it.
* `drawLine_ensures`, `drawBreak_ensures`: the steps that write.
-/

namespace ProgressDisplay.Page

variable {s u : Page} {g : Grid} {t : Transcript} {text : List Char}

structure Accurate (s : Page) (g : Grid) (t : Transcript) : Prop where
  shows : s.writer.Shows g
  block : s.block.Accurate g s.text
  column : s.text.col = t.current.length
  row : s.text.row ≤ s.block.top + 1
  contents : s.block.contents = t.contents

namespace Accurate

theorem top_succ (h : s.Accurate g t) : s.block.top + 1 = s.block.height := by
  have := h.block.tall
  unfold StatusBlock.top
  omega

theorem top_lt (h : s.Accurate g t) : s.block.top < Position.limit := by
  have := h.block.low
  have := h.top_succ
  omega

theorem overlap_eq (h : s.Accurate g t) (pending : Bool) :
    s.overlap pending =
      if s.block.visible then
        s.block.top + (if 0 < s.text.col || pending then 1 else 0) - s.text.row
      else 0 := by
  have := h.top_succ
  unfold Page.overlap StatusBlock.overlap
  split
  · split <;> omega
  · rfl

theorem overlap_true (h : s.Accurate g t) (hv : s.block.visible = true) :
    s.text.row + s.overlap true = s.block.top + 1 := by
  have := h.row
  simp only [h.overlap_eq, hv, Bool.or_true, if_true]
  omega

theorem row_add_overlap_le (h : s.Accurate g t) (pending : Bool) :
    s.text.row + s.overlap pending ≤ s.block.top + 1 := by
  have := h.row
  rw [h.overlap_eq]
  split
  · split <;> omega
  · omega

end Accurate

theorem clearBlock_ensures (h : s.Accurate g t) (pending : Bool) :
    (s.clearBlock pending).Ensures fun u =>
      u.Accurate (g.scroll (s.overlap pending)) t ∧
      u.text = { s.text with row := s.text.row + s.overlap pending } ∧
      u.block = s.block.raise (s.overlap pending) := by
  by_cases hclear : s.overlap pending = 0
  · rw [clearBlock_of_clear hclear, hclear, Grid.scroll_zero, StatusBlock.raise_zero h.block]
    exact Attempt.ensures_done ⟨h, rfl, rfl⟩
  · rw [clearBlock, if_neg hclear]
    refine Attempt.ensures_ofExcept fun d hd => ?_
    obtain ⟨htracks, -, hscrolled⟩ := Writer.Tracks.drawAt h.shows
      (fun p hp => hp.breakLines (s.overlap pending)) hd
    rw [Nat.zero_add] at hscrolled
    have hrow := h.row_add_overlap_le pending
    have hraised : s.text.raise (s.overlap pending) =
        { s.text with row := s.text.row + s.overlap pending } := by
      have := h.top_lt
      simp only [Position.raise, Position.mk.injEq, and_true]
      omega
    rw [hscrolled, hraised]
    refine ⟨⟨htracks.shows, ?_, h.column, ?_, ?_⟩, rfl, rfl⟩
    · exact h.block.raise (Nat.pos_of_ne_zero hclear)
    · rw [StatusBlock.top_raise]
      exact hrow
    · exact StatusBlock.contents_raise.trans h.contents

theorem redrawLines_ensures (h : s.Accurate g t) :
    s.redrawLines.Ensures fun u =>
      u.Accurate (AnchoredLine.paintAll s.block.lines g) t ∧ u.text = s.text ∧
      u.block = s.block.redrawn := by
  refine Attempt.Ensures.map ?_
  have hdrawable : ∀ l ∈ s.block.lines, l.Drawable := fun l hl => (h.block.lines l hl).drawable
  refine (AnchoredLine.redrawAll_ensures hdrawable h.shows).mono fun r hr => ?_
  obtain ⟨hlines, hshows⟩ := hr
  have hblock : ({ s.block with lines := r.1 } : StatusBlock) = s.block.redrawn := by
    rw [hlines]
    rfl
  refine ⟨⟨hshows, ?_, h.column, ?_, ?_⟩, rfl, hblock⟩
  · rw [hblock]
    exact h.block.redraw
  · show s.text.row ≤ StatusBlock.top { s.block with lines := r.1 } + 1
    rw [hblock, StatusBlock.top_redrawn]
    exact h.row
  · show StatusBlock.contents { s.block with lines := r.1 } = t.contents
    rw [hblock]
    exact StatusBlock.contents_redrawn.trans h.contents

theorem restCursor_ensures (h : s.Accurate g t) :
    s.restCursor.Ensures fun u =>
      u.Accurate g t ∧ u.text = s.text ∧ u.block = s.block ∧
      u.writer.cursor = s.block.restingPlace := by
  refine Attempt.ensures_ofExcept fun w hw => ?_
  have htracks := Writer.Tracks.moveTo h.shows hw
  exact ⟨⟨htracks.shows, h.block, h.column, h.row, h.contents⟩, rfl, rfl, htracks.cursor⟩

theorem flushDevice_ensures (h : s.Accurate g t) :
    s.flushDevice.Ensures fun u =>
      u.Accurate g t ∧ u.text = s.text ∧ u.block = s.block ∧ u.writer.cursor = s.writer.cursor := by
  refine Attempt.ensures_ofExcept fun w hw => ?_
  have htracks := Writer.Tracks.flush h.shows hw
  exact ⟨⟨htracks.shows, h.block, h.column, h.row, h.contents⟩, rfl, rfl, htracks.cursor⟩

/-! ## A redraw of the block -/

/-- The block stands where it belongs, and the output stands above it. -/
structure InPlace (s : Page) : Prop where
  clear : s.block.top + (if 0 < s.text.col then 1 else 0) ≤ s.text.row
  anchored : ∀ l ∈ s.block.lines, l.position.row = l.anchor

structure Settled (s : Page) : Prop extends s.InPlace where
  visible : s.block.visible = true

theorem anchorBlock_ensures (h : s.Accurate g t) (hv : s.block.visible = true) :
    s.anchorBlock.Ensures fun u =>
      u.Accurate (g.scroll (s.overlap false)) t ∧
      u.text = { s.text with row := s.text.row + s.overlap false } ∧
      u.block = (s.block.raise (s.overlap false)).atBottom := by
  rw [anchorBlock, if_pos hv]
  refine (clearBlock_ensures h false).andThen fun u hu => Attempt.ensures_done ?_
  obtain ⟨hacc, htext, hblock⟩ := hu
  refine ⟨⟨hacc.shows, hacc.block.atBottom, hacc.column, hacc.row, hacc.contents⟩, htext, ?_⟩
  rw [← hblock]

theorem redrawLines_ensures_of_visible (h : s.Accurate g t) (hv : s.block.visible = true) :
    s.redrawLines.Ensures fun u => ∃ g',
      u.Accurate g' t ∧ u.text = s.text ∧ u.block.visible = true ∧ u.block.top = s.block.top ∧
      (∀ l ∈ u.block.lines, l.position.row = l.anchor ∧ l.drawn = l.content) ∧
      ∀ r, s.block.top < r → g' r = g r := by
  refine (redrawLines_ensures h).mono fun u hu => ?_
  obtain ⟨hacc, htext, hblock⟩ := hu
  refine ⟨_, hacc, htext, ?_, ?_, fun l hl => ?_, fun r hr => h.block.paintAll_of_above hr g⟩
  · rw [hblock]
    exact hv
  · rw [hblock, StatusBlock.top_redrawn]
  · rw [hblock] at hl
    obtain ⟨d, hd, rfl⟩ := List.mem_map.mp hl
    rw [AnchoredLine.redrawn_anchor, AnchoredLine.redrawn_content]
    exact AnchoredLine.redrawn_of_visible ((h.block.visible d hd).trans hv)

theorem redrawBlock_ensures_of_visible (h : s.Accurate g t) (hv : s.block.visible = true) :
    s.redrawBlock.Ensures fun u => ∃ g',
      u.Accurate g' t ∧ u.Settled ∧
      u.text = { s.text with row := s.text.row + s.overlap false } ∧
      u.block.top = s.block.top ∧
      (∀ l ∈ u.block.lines, l.drawn = l.content) ∧
      (∀ r, s.block.top < r → g' r = g.scroll (s.overlap false) r) ∧
      u.writer.cursor = .bottomLeft := by
  have hlines : (s.anchorBlock.andThen redrawLines).Ensures fun u => ∃ g',
      u.Accurate g' t ∧ u.text = { s.text with row := s.text.row + s.overlap false } ∧
      u.block.visible = true ∧ u.block.top = s.block.top ∧
      (∀ l ∈ u.block.lines, l.position.row = l.anchor ∧ l.drawn = l.content) ∧
      ∀ r, s.block.top < r → g' r = g.scroll (s.overlap false) r := by
    refine (anchorBlock_ensures h hv).andThen fun a ha => ?_
    obtain ⟨hacc, htext, hblock⟩ := ha
    have hvisible : a.block.visible = true := by rw [hblock]; exact hv
    have htop : a.block.top = s.block.top := by rw [hblock]; exact StatusBlock.top_raise
    rw [← htext, ← htop]
    exact redrawLines_ensures_of_visible hacc hvisible
  refine hlines.andThen fun a ha => ?_
  obtain ⟨g', hacc, htext, hvisible, htop, hdrawn, hrows⟩ := ha
  refine (restCursor_ensures hacc).mono fun u hu => ?_
  obtain ⟨hrested, hsame, hkept, hcursor⟩ := hu
  rw [← hkept] at hvisible htop hdrawn
  refine ⟨g', hrested, ⟨⟨?_, fun l hl => (hdrawn l hl).1⟩, hvisible⟩, hsame.trans htext, htop,
    fun l hl => (hdrawn l hl).2, hrows, ?_⟩
  · have hoverlap := h.overlap_eq false
    simp only [hv, Bool.or_false, decide_eq_true_eq, if_true] at hoverlap
    rw [htop, hsame, htext]
    show s.block.top + (if 0 < s.text.col then 1 else 0) ≤ s.text.row + s.overlap false
    omega
  · rw [hcursor, StatusBlock.restingPlace, ← hkept, if_pos hvisible]

theorem redrawBlock_ensures_of_hidden (h : s.Accurate g t) (hv : s.block.visible = false) :
    s.redrawBlock.Ensures fun u =>
      u.Accurate (AnchoredLine.paintAll s.block.lines g) t ∧ u.text = s.text ∧
      u.block = s.block.redrawn := by
  have hanchor : s.anchorBlock = .done s := by
    rw [anchorBlock, if_neg (by simp [hv])]
  rw [redrawBlock, hanchor, Attempt.done_andThen]
  refine (redrawLines_ensures h).andThen fun b hb => ?_
  obtain ⟨hacc, htext, hblock⟩ := hb
  refine (restCursor_ensures hacc).mono fun u hu => ?_
  obtain ⟨hrested, hsame, hkept, -⟩ := hu
  exact ⟨hrested, hsame.trans htext, hkept.trans hblock⟩

/-- Before a line is written, the page is settled, with the output on the row above the block, if
there was anything to make room for. Otherwise nothing happened. -/
theorem vacateLine_ensures (h : s.Accurate g t) (hroom : s.overlap true ≠ 0) :
    s.vacateLine.Ensures fun u => ∃ g',
      u.Accurate g' t ∧ u.Settled ∧
      u.text = { s.text with row := s.block.top + 1 } ∧
      u.block.top = s.block.top ∧
      ∀ r, s.block.top < r → g' r = g.scroll (s.overlap true) r := by
  have hv := visible_of_overlap hroom
  rw [vacateLine, if_neg hroom]
  refine (clearBlock_ensures h true).andThen fun a ha => ?_
  obtain ⟨hacc, htext, hblock⟩ := ha
  rw [h.overlap_true hv] at htext
  have hvisible : a.block.visible = true := by rw [hblock]; exact hv
  have htop : a.block.top = s.block.top := by rw [hblock]; exact StatusBlock.top_raise
  have hclear : a.overlap false = 0 := by
    have hoverlap := hacc.overlap_eq false
    simp only [hvisible, if_true] at hoverlap
    rw [hoverlap, htop, htext]
    split <;> simp
  refine (redrawBlock_ensures_of_visible hacc hvisible).mono fun u hu => ?_
  obtain ⟨g', hredrawn, hsettled, hsame, hsametop, -, hrows, -⟩ := hu
  rw [hclear, Grid.scroll_zero] at hrows
  refine ⟨g', hredrawn, hsettled, ?_, hsametop.trans htop, fun r hr => ?_⟩
  · rw [hsame, hclear, htext]
  · exact hrows r (htop ▸ hr)

theorem Accurate.vacateLine (h : s.Accurate g t) :
    s.vacateLine.Ensures fun u => ∃ g', u.Accurate g' t := by
  by_cases hclear : s.overlap true = 0
  · rw [vacateLine_of_clear hclear]
    exact Attempt.ensures_done ⟨g, h⟩
  · exact (vacateLine_ensures h hclear).mono fun _ ⟨g', hu, _⟩ => ⟨g', hu⟩

/-! ## Writing -/

theorem drawLine_ensures (h : s.Accurate g t) (hline : Transcript.MeasuredLine text)
    (hne : text ≠ []) (hfits : (t.typeAll text).Fits) (erase : Bool) (style : Style) :
    (s.drawText fun p => (p.eraseRestIf erase).styled style fun p =>
      p.tabbed (Text.pieces '\t' text)).Ensures fun u =>
        u.Accurate ((g.eraseFromIf erase s.text.row s.text.col).write s.text.row s.text.col
          (Transcript.expand s.text.col text)) (t.typeAll text) ∧
        u.text = { s.text with
          col := s.text.col + (Transcript.expand s.text.col text).length } ∧
        u.block = s.block := by
  have htyped := hline.typeAll (t := t)
  have hlength : 0 < (Transcript.expand s.text.col text).length :=
    List.length_pos_iff.mpr (hline.expand_ne_nil hne)
  rw [htyped] at hfits
  have hshort := hfits.2
  rw [List.length_append, ← h.column] at hshort
  refine Attempt.ensures_ofExcept fun d hd => ?_
  obtain ⟨htracks, hstop, hscrolled⟩ := Writer.Tracks.drawAt h.shows (fun p hp =>
    (hp.eraseRestIf erase).styled style fun q hq => hq.tabbed hline (by
      rw [Text.intercalate_pieces]
      exact Nat.le_of_lt hshort)) hd
  rw [Text.intercalate_pieces, Screen.foldl_put] at htracks hstop
  rw [hscrolled, hstop, StatusBlock.raise_zero h.block, htyped, ← h.column]
  refine ⟨⟨htracks.shows, ?_, ?_, h.row, h.contents⟩, rfl, rfl⟩
  · refine h.block.leave fun r hr hspared => ?_
    have hbelow : r < s.text.row := by
      rcases hspared with hspared | ⟨-, hcol⟩
      · exact hspared
      · have : s.text.col + (Transcript.expand s.text.col text).length = 0 := hcol
        omega
    have hne : r ≠ s.text.row := Nat.ne_of_lt hbelow
    refine ⟨Or.inl hbelow, ?_⟩
    exact (Grid.write_of_ne hne).trans (Grid.eraseFromIf_of_ne hne)
  · rw [List.length_append, ← h.column]

theorem drawBreak_ensures (h : s.Accurate g t) (erase : Bool) :
    (s.drawText fun p => (p.eraseRestIf erase).breakLine).Ensures fun u =>
      u.Accurate ((g.eraseFromIf erase s.text.row s.text.col).scroll
        (if s.text.row = 0 then 1 else 0)) t.endLine ∧
      u.text = { row := s.text.row - 1 } ∧
      u.block = s.block.raise (if s.text.row = 0 then 1 else 0) := by
  refine Attempt.ensures_ofExcept fun d hd => ?_
  obtain ⟨htracks, hstop, hscrolled⟩ := Writer.Tracks.drawAt h.shows (fun p hp =>
    (hp.eraseRestIf erase).breakLine) hd
  rw [Screen.feedLine_returnCarriage] at htracks hstop
  rw [hscrolled, hstop, Nat.zero_add]
  refine ⟨⟨htracks.shows, ?_, rfl, ?_, ?_⟩, rfl, rfl⟩
  · by_cases hrow : s.text.row = 0
    · rw [if_pos hrow]
      exact h.block.raise Nat.zero_lt_one
    · rw [if_neg hrow, StatusBlock.raise_zero h.block]
      refine h.block.leave fun r hr hspared => ?_
      have hbelow : r < s.text.row := by
        rcases hspared with hspared | ⟨hsame, -⟩
        · have : r < s.text.row - 1 := hspared
          omega
        · have : r = s.text.row - 1 := hsame
          omega
      refine ⟨Or.inl hbelow, ?_⟩
      rw [Grid.scroll_zero]
      exact Grid.eraseFromIf_of_ne (Nat.ne_of_lt hbelow)
  · rw [StatusBlock.top_raise]
    have := h.row
    show s.text.row - 1 ≤ s.block.top + 1
    omega
  · exact StatusBlock.contents_raise.trans h.contents

end ProgressDisplay.Page
