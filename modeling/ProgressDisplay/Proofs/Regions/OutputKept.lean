import ProgressDisplay.Proofs.Regions.StatusShown

/-!
# The output is kept

As long as the block is hidden by closing only, every line of the output stays on the screen as it
was written: the ended lines one above the other, and the current one below them.

The block either is `Settled`, so that all that it drew stands on its own rows below the output, or
`Unused`: nothing of it is on the screen, and all rows that the output has not reached are blank.

* `Kept.act`: every action keeps this.
* `run_intact`: after every run the output is intact.
-/

namespace ProgressDisplay

namespace Grid

/-- The ended lines stand one above the other over the row of the position, the last one lowest, and
the current line, where it holds text, stands on that row and ends at the position. -/
structure Intact (g : Grid) (text : Position) (t : Transcript) : Prop where
  ended : ∀ i line, t.ended[i]? = some line → g.Shows (text.row + (t.ended.length - i)) line
  current : t.current ≠ [] → g.Shows text.row t.current ∧ text.col = t.current.length

namespace Intact

variable {g g' : Grid} {text : Position} {t : Transcript}

theorem lt_add_of_getElem? {line : List Char} {i : Nat} (h : t.ended[i]? = some line) (row : Nat) :
    row < row + (t.ended.length - i) := by
  have hi := (List.getElem?_eq_some_iff.mp h).1
  omega

theorem of_eq (h : g.Intact text t) (hrows : ∀ r, text.row < r → g' r = g r)
    (hrow : t.current ≠ [] → g' text.row = g text.row) : g'.Intact text t where
  ended := by
    intro i line hline
    exact (h.ended i line hline).of_eq (hrows _ (lt_add_of_getElem? hline text.row))
  current := by
    intro hne
    obtain ⟨hshown, hcol⟩ := h.current hne
    exact ⟨hshown.of_eq (hrow hne), hcol⟩

theorem scroll (h : g.Intact text t) (rows : Nat) :
    (g.scroll rows).Intact { text with row := text.row + rows } t where
  ended := by
    intro i line hline
    have hplace : text.row + rows + (t.ended.length - i) =
        text.row + (t.ended.length - i) + rows := Nat.add_right_comm _ _ _
    show (g.scroll rows).Shows (text.row + rows + (t.ended.length - i)) line
    rw [hplace]
    exact (h.ended i line hline).scroll rows
  current := by
    intro hne
    obtain ⟨hshown, hcol⟩ := h.current hne
    exact ⟨hshown.scroll rows, hcol⟩

theorem begins (h : g.Intact text t) : g.Begins text.row t.current := by
  by_cases hcurrent : t.current = []
  · rw [hcurrent]
    exact begins_nil
  · exact (h.current hcurrent).1.begins

/-- A line break ends the current line. On the bottom row it lifts all lines by one. -/
theorem endLine {row : Nat}
    (hended : ∀ i line, t.ended[i]? = some line → g.Shows (row + (t.ended.length - i)) line)
    (hcurrent : g.Shows row t.current) :
    (g.scroll (if row = 0 then 1 else 0)).Intact { row := row - 1 } t.endLine where
  ended := by
    intro i line hline
    have hlength : t.endLine.ended.length = t.ended.length + 1 := List.length_append
    have hi : i < t.endLine.ended.length := (List.getElem?_eq_some_iff.mp hline).1
    have hplace : row - 1 + (t.endLine.ended.length - i) =
        row + (t.ended.length - i) + (if row = 0 then 1 else 0) := by
      split <;> omega
    show (g.scroll _).Shows (row - 1 + (t.endLine.ended.length - i)) line
    rw [hplace]
    refine Shows.scroll ?_ _
    rcases Nat.lt_or_ge i t.ended.length with hlt | hge
    · have hbefore : t.ended[i]? = some line := by
        rw [← hline]
        exact (List.getElem?_append_left hlt).symm
      exact hended i line hbefore
    · obtain rfl : i = t.ended.length := by omega
      have hlast : t.endLine.ended[t.ended.length]? = some t.current := List.getElem?_concat_length
      obtain rfl : line = t.current := Option.some.inj (hline.symm.trans hlast)
      rw [Nat.sub_self, Nat.add_zero]
      exact hcurrent
  current := fun hne => absurd rfl hne

end Intact

end Grid

namespace Page

variable {s u : Page} {g g' : Grid} {t : Transcript} {text : List Char} {erase : Bool}

/-- Nothing of the block is on the screen, and nothing else stands below the output. -/
structure Unused (s : Page) (g : Grid) : Prop where
  drawn : ∀ l ∈ s.block.lines, l.drawn = []
  blank : ∀ r, s.text.Spares r → g.Shows r []

structure Kept (s : Page) (g : Grid) (t : Transcript) : Prop extends s.Sound g t where
  intact : g.Intact s.text t
  below : s.Settled ∨ s.Unused g

/-- The page is about to write on the current line: what the line holds is all that will stand on
its row, once the row is erased behind it where that is asked for. -/
structure Ready (s : Page) (g : Grid) (t : Transcript) (erase : Bool) : Prop
    extends s.Accurate g t where
  ended : ∀ i line, t.ended[i]? = some line → g.Shows (s.text.row + (t.ended.length - i)) line
  current : (g.eraseFromIf erase s.text.row s.text.col).Shows s.text.row t.current
  room : s.block.visible = true → s.text.row = s.block.top + 1
  below : s.Settled ∨ s.Unused g

theorem Accurate.current_ne_nil (h : s.Accurate g t) : t.current ≠ [] ↔ 0 < s.text.col := by
  rw [h.column]
  exact List.length_pos_iff.symm

/-! ## Writing -/

namespace Kept

/-- Where nothing is in the way, the row of the output holds the current line only. -/
theorem shows_current (h : s.Kept g t) (hclear : s.overlap true = 0) :
    g.Shows s.text.row t.current := by
  by_cases hcurrent : t.current = []
  · have hcol : ¬0 < s.text.col := fun hpos => h.current_ne_nil.mpr hpos hcurrent
    rw [hcurrent]
    rcases h.below with hsettled | hunused
    · -- the output is at the start of the top row of the block, which is in the way
      have hfull := h.overlap_true hsettled.visible
      have hplaced := h.placed
      omega
    · exact hunused.blank _ (Or.inr ⟨rfl, by omega⟩)
  · exact (h.intact.current hcurrent).1

theorem vacateLine (h : s.Kept g t) :
    s.vacateLine.Ensures fun u => ∃ g', u.Ready g' t (s.overlap true != 0) := by
  by_cases hclear : s.overlap true = 0
  · rw [vacateLine_of_clear hclear, hclear]
    refine Attempt.ensures_done ⟨g, h.toAccurate, h.intact.ended, h.shows_current hclear, ?_,
      h.below⟩
    intro hv
    have hfull := h.overlap_true hv
    omega
  · have herase : (s.overlap true != 0) = true := by simpa using hclear
    have hfull := h.overlap_true (visible_of_overlap hclear)
    rw [herase]
    refine (vacateLine_ensures h.toAccurate hclear).mono fun u hu => ?_
    obtain ⟨g', hacc, hsettled, htext, htop, hrows⟩ := hu
    have hintact : g'.Intact u.text t := by
      have hscrolled := h.intact.scroll (s.overlap true)
      rw [hfull, ← htext] at hscrolled
      have hrow : u.text.row = s.block.top + 1 := by rw [htext]
      refine hscrolled.of_eq (fun r hr => hrows r ?_) fun _ => hrows _ ?_ <;> omega
    refine ⟨g', hacc, hintact.ended, ?_, fun _ => ?_, Or.inl hsettled⟩
    · rw [hacc.column]
      exact hintact.begins.eraseFrom
    · rw [htext, htop]

end Kept

theorem Ready.drawLine (h : s.Ready g t erase) (hline : Transcript.MeasuredLine text)
    (hne : text ≠ []) (hfits : (t.typeAll text).Fits) (style : Style) :
    (s.drawText fun p => (p.eraseRestIf erase).styled style fun p =>
      p.tabbed (Text.pieces '\t' text)).Ensures fun u => ∃ g', u.Kept g' (t.typeAll text) := by
  refine (drawLine_ensures h.toAccurate hline hne hfits erase style).mono fun u hu => ?_
  obtain ⟨hacc, htext, hblock⟩ := hu
  have hrow : u.text.row = s.text.row := by rw [htext]
  have hcol : 0 < u.text.col := by
    rw [htext]
    exact Nat.add_pos_right _ (List.length_pos_iff.mpr (hline.expand_ne_nil hne))
  have hothers : ∀ r, r ≠ s.text.row → (g.eraseFromIf erase s.text.row s.text.col).write
      s.text.row s.text.col (Transcript.expand s.text.col text) r = g r := fun r hr =>
    (Grid.write_of_ne hr).trans (Grid.eraseFromIf_of_ne hr)
  refine ⟨_, ⟨hacc, Or.inr hcol⟩, ⟨fun i line hended => ?_, fun _ => ⟨?_, hacc.column⟩⟩, ?_⟩
  · rw [hline.typeAll] at hended ⊢
    rw [hrow]
    have habove := Grid.Intact.lt_add_of_getElem? hended s.text.row
    exact (h.ended i line hended).of_eq (hothers _ (Nat.ne_of_gt habove))
  · have hcurrent := h.current
    rw [h.column] at hcurrent
    rw [hline.typeAll, hrow, h.column]
    exact hcurrent.write
  · rcases h.below with hsettled | hunused
    · left
      refine ⟨⟨?_, ?_⟩, ?_⟩
      · rw [if_pos hcol, hblock, hrow]
        exact Nat.le_of_eq (h.room hsettled.visible).symm
      · rw [hblock]
        exact hsettled.anchored
      · rw [hblock]
        exact hsettled.visible
    · right
      refine ⟨?_, fun r hr => ?_⟩
      · rw [hblock]
        exact hunused.drawn
      · have hbelow : r < s.text.row := by
          rcases hr with hr | ⟨-, hzero⟩ <;> omega
        exact (hunused.blank r (Or.inl hbelow)).of_eq (hothers r (Nat.ne_of_lt hbelow))

theorem Unused.breakLine (h : s.Unused g) (hu : u.text = { row := s.text.row - 1 })
    (hblock : u.block = s.block.raise (if s.text.row = 0 then 1 else 0)) :
    u.Unused ((g.eraseFromIf erase s.text.row s.text.col).scroll
      (if s.text.row = 0 then 1 else 0)) where
  drawn := by
    intro l hl
    rw [hblock] at hl
    obtain ⟨d, hd, rfl⟩ := List.mem_map.mp hl
    exact h.drawn d hd
  blank := by
    intro r hr
    have hle : r ≤ s.text.row - 1 := by
      rw [hu] at hr
      rcases hr with hr | ⟨hr, -⟩
      · exact Nat.le_of_lt hr
      · exact Nat.le_of_eq hr
    split
    · exact Grid.shows_scroll_of_lt (by omega)
    · have hbelow : r < s.text.row := by omega
      rw [Grid.scroll_zero]
      exact (h.blank r (Or.inl hbelow)).of_eq (Grid.eraseFromIf_of_ne (Nat.ne_of_lt hbelow))

theorem Ready.drawBreak (h : s.Ready g t erase) :
    (s.drawText fun p => (p.eraseRestIf erase).breakLine).Ensures fun u =>
      ∃ g', u.Kept g' t.endLine := by
  refine (drawBreak_ensures h.toAccurate erase).mono fun u hu => ?_
  obtain ⟨hacc, htext, hblock⟩ := hu
  have hrow : u.text.row = s.text.row - 1 := by rw [htext]
  have htop : u.block.top = s.block.top := by rw [hblock, StatusBlock.top_raise]
  refine ⟨_, ⟨hacc, Or.inl ?_⟩, ?_, ?_⟩
  · have := h.row
    omega
  · rw [htext]
    refine Grid.Intact.endLine (fun i line hended => ?_) h.current
    have habove := Grid.Intact.lt_add_of_getElem? hended s.text.row
    exact (h.ended i line hended).of_eq (Grid.eraseFromIf_of_ne (Nat.ne_of_gt habove))
  · rcases h.below with hsettled | hunused
    · have hroom := h.room hsettled.visible
      have hne : s.text.row ≠ 0 := by omega
      rw [if_neg hne, StatusBlock.raise_zero h.block] at hblock
      left
      refine ⟨⟨?_, ?_⟩, ?_⟩
      · rw [htop, htext, hroom]
        exact Nat.le_refl _
      · rw [hblock]
        exact hsettled.anchored
      · rw [hblock]
        exact hsettled.visible
    · exact Or.inr (hunused.breakLine htext hblock)

theorem Ready.erased (h : s.Ready g t false) (erase : Bool) : s.Ready g t erase where
  toAccurate := h.toAccurate
  ended := h.ended
  current := by
    have hcurrent : g.Shows s.text.row t.current := h.current
    cases erase with
    | true =>
      rw [h.column]
      exact hcurrent.eraseFrom
    | false => exact hcurrent
  room := h.room
  below := h.below

namespace Kept

theorem writeText (h : s.Kept g t) (hline : Transcript.MeasuredLine text)
    (hfits : (t.typeAll text).Fits) :
    (s.writeText text).Ensures fun u => ∃ g', u.Kept g' (t.typeAll text) := by
  unfold Page.writeText
  split
  · rename_i hempty
    subst hempty
    exact Attempt.ensures_done ⟨g, h⟩
  · rename_i hne
    exact h.vacateLine.andThen fun u ⟨_, hu⟩ => hu.drawLine hline hne hfits s.style

theorem endLine (h : s.Kept g t) : s.endLine.Ensures fun u => ∃ g', u.Kept g' t.endLine := by
  refine h.vacateLine.andThen fun u ⟨g', hu⟩ => ?_
  cases herase : s.overlap true != 0 with
  | true =>
    rw [herase] at hu
    exact hu.drawBreak
  | false =>
    rw [herase] at hu
    exact (hu.erased _).drawBreak

end Kept

/-! ## Redrawing -/

theorem redrawBlock_keeps_of_visible (h : s.Kept g t) (hv : s.block.visible = true) :
    s.redrawBlock.Ensures fun u => ∃ g', u.Kept g' t := by
  refine (redrawBlock_ensures_of_visible h.toAccurate hv).mono fun u hu => ?_
  obtain ⟨g', hacc, hsettled, htext, htop, -, hrows, -⟩ := hu
  have hclear := hsettled.clear
  have hintact : g'.Intact u.text t := by
    have hscrolled := h.intact.scroll (s.overlap false)
    rw [← htext] at hscrolled
    refine hscrolled.of_eq (fun r hr => hrows r ?_) fun hne => hrows _ ?_
    · split at hclear <;> omega
    · rw [if_pos (hacc.current_ne_nil.mp hne)] at hclear
      omega
  refine ⟨g', ⟨hacc, ?_⟩, hintact, Or.inl hsettled⟩
  rw [htop, htext]
  exact h.placed_add_overlap

/-- A block at its place that shows nothing leaves all rows blank that the output has not reached:
each of them belongs to a line, and the line knows what it shows. -/
theorem Sound.unused (h : s.Sound g t) (hanchored : ∀ l ∈ s.block.lines, l.position.row = l.anchor)
    (hdrawn : ∀ l ∈ s.block.lines, l.drawn = []) : s.Unused g where
  drawn := hdrawn
  blank := by
    intro r hr
    have hlt : r < s.block.height := by
      have hsucc := h.top_succ
      have hrow := h.row
      have hplaced := h.placed
      rcases hr with hr | ⟨hr, hzero⟩ <;> omega
    obtain ⟨l, hl, rfl⟩ := h.block.exists_line hlt
    have hshown := (h.block.lines l hl).shows (hanchored l hl) hr
    rwa [hdrawn l hl] at hshown

theorem redrawBlock_keeps_of_hidden (h : s.Sound g t) (hintact : g.Intact s.text t)
    (hbelow : s.InPlace ∨ s.Unused g) (hv : s.block.visible = false) :
    s.redrawBlock.Ensures fun u => ∃ g', u.Kept g' t := by
  refine (redrawBlock_ensures_of_hidden h.toAccurate hv).mono fun u hu => ?_
  obtain ⟨hacc, htext, hblock⟩ := hu
  have hhidden : ∀ l ∈ s.block.lines, l.visible = false := fun l hl =>
    (h.block.visible l hl).trans hv
  have hdrawn : ∀ l ∈ u.block.lines, l.drawn = [] := by
    intro l hl
    rw [hblock] at hl
    obtain ⟨d, hd, rfl⟩ := List.mem_map.mp hl
    exact AnchoredLine.redrawn_of_hidden (hhidden d hd) (h.block.lines d hd)
  have hsound : u.Sound (AnchoredLine.paintAll s.block.lines g) t := by
    refine ⟨hacc, ?_⟩
    rw [htext, hblock, StatusBlock.top_redrawn]
    exact h.placed
  rcases hbelow with hinplace | hunused
  · have hclear := hinplace.clear
    have hrows : ∀ r, s.block.top < r → AnchoredLine.paintAll s.block.lines g r = g r :=
      fun r hr => h.block.paintAll_of_above hr g
    have hanchored : ∀ l ∈ u.block.lines, l.position.row = l.anchor := by
      intro l hl
      rw [hblock] at hl
      obtain ⟨d, hd, rfl⟩ := List.mem_map.mp hl
      rw [AnchoredLine.redrawn_anchor]
      exact AnchoredLine.redrawn_anchored (hinplace.anchored d hd)
    refine ⟨_, hsound, ?_, Or.inr (hsound.unused hanchored hdrawn)⟩
    rw [htext]
    refine hintact.of_eq (fun r hr => hrows r ?_) fun hne => hrows _ ?_
    · split at hclear <;> omega
    · rw [if_pos (h.current_ne_nil.mp hne)] at hclear
      omega
  · have hfresh : AnchoredLine.paintAll s.block.lines g = g :=
      AnchoredLine.paintAll_of_fresh fun l hl =>
        AnchoredLine.stale_of_hidden (hhidden l hl) (h.block.lines l hl) (hunused.drawn l hl)
    rw [hfresh] at hsound
    rw [← htext] at hintact
    refine ⟨g, hsound, hintact, Or.inr ⟨hdrawn, ?_⟩⟩
    rw [htext]
    exact hunused.blank

theorem InPlace.setVisible (h : s.InPlace) (visible : Bool) : (s.setVisible visible).InPlace where
  clear := by
    show (s.block.setVisible visible).top + _ ≤ _
    rw [StatusBlock.top_setVisible]
    exact h.clear
  anchored := by
    intro l hl
    obtain ⟨d, hd, rfl⟩ := List.mem_map.mp hl
    exact h.anchored d hd

theorem Unused.setVisible (h : s.Unused g) (visible : Bool) : (s.setVisible visible).Unused g where
  drawn := by
    intro l hl
    obtain ⟨d, hd, rfl⟩ := List.mem_map.mp hl
    exact h.drawn d hd
  blank := h.blank

namespace Kept

theorem redrawBlock (h : s.Kept g t) : s.redrawBlock.Ensures fun u => ∃ g', u.Kept g' t := by
  cases hv : s.block.visible with
  | true => exact redrawBlock_keeps_of_visible h hv
  | false =>
    exact redrawBlock_keeps_of_hidden h.toSound h.intact (h.below.imp_left Settled.toInPlace) hv

theorem flushDevice (h : s.Kept g t) : s.flushDevice.Ensures fun u => u.Kept g t := by
  refine Attempt.ensures_ofExcept fun w hw => ?_
  have htracks := Writer.Tracks.flush h.shows hw
  have hbelow : Page.Settled { s with writer := w } ∨ Page.Unused { s with writer := w } g :=
    h.below.imp (fun hs => ⟨⟨hs.clear, hs.anchored⟩, hs.visible⟩) fun hs => ⟨hs.drawn, hs.blank⟩
  exact ⟨⟨⟨htracks.shows, h.block, h.column, h.row, h.contents⟩, h.placed⟩, h.intact, hbelow⟩

theorem flush (h : s.Kept g t) : s.flush.Ensures fun u => ∃ g', u.Kept g' t :=
  h.redrawBlock.andThen fun _ ⟨g', hu⟩ => hu.flushDevice.mono fun _ hv => ⟨g', hv⟩

theorem close (h : s.Kept g t) : s.close.Ensures fun u => ∃ g', u.Kept g' t := by
  have hbelow : (s.setVisible false).InPlace ∨ (s.setVisible false).Unused g :=
    h.below.imp (fun hs => hs.toInPlace.setVisible false) fun hs => hs.setVisible false
  have hredrawn := redrawBlock_keeps_of_hidden (h.toSound.setVisible false) h.intact hbelow rfl
  exact hredrawn.andThen fun _ ⟨g', hu⟩ => hu.flushDevice.mono fun _ hv => ⟨g', hv⟩

theorem reappear (h : s.Kept g t) : (s.setVisible true).Kept g t where
  toSound := h.toSound.setVisible true
  intact := h.intact
  below := h.below.imp (fun hs => ⟨hs.toInPlace.setVisible true, rfl⟩) fun hs => hs.setVisible true

theorem setLine (h : s.Kept g t) (index : Nat) {content : Line} (hmeasured : content.Measured)
    (hfits : content.characters.length < Position.limit) :
    Kept { s with block := s.block.setLine index content } g
      (t.act (.setLine index content)) where
  toSound := h.toSound.setLine index hmeasured hfits
  intact := ⟨h.intact.ended, h.intact.current⟩
  below := by
    rcases h.below with hsettled | hunused
    · left
      refine ⟨⟨?_, fun l hl => ?_⟩, hsettled.visible⟩
      · show (s.block.setLine index content).top + _ ≤ _
        rw [StatusBlock.top_setLine]
        exact hsettled.clear
      · rcases StatusBlock.mem_setLine hl with hl | ⟨d, hd, rfl⟩
        · exact hsettled.anchored l hl
        · exact hsettled.anchored d hd
    · right
      refine ⟨fun l hl => ?_, hunused.blank⟩
      rcases StatusBlock.mem_setLine hl with hl | ⟨d, hd, rfl⟩
      · exact hunused.drawn l hl
      · exact hunused.drawn d hd

theorem keptByOutput : KeptByOutput fun s t => ∃ g, s.Kept g t where
  style := fun _ _ _ ⟨g, h⟩ =>
    ⟨g, ⟨⟨⟨h.shows, h.block, h.column, h.row, h.contents⟩, h.placed⟩, h.intact,
      h.below.imp (fun hs => ⟨⟨hs.clear, hs.anchored⟩, hs.visible⟩) fun hs =>
        ⟨hs.drawn, hs.blank⟩⟩⟩
  writeText := fun _ _ _ ⟨_, h⟩ hline hfits => h.writeText hline hfits
  endLine := fun _ _ ⟨_, h⟩ => h.endLine

theorem act {a : PageAction} (h : s.Kept g t) (hmeasured : a.Measured)
    (hclosing : a ≠ .setVisible false) (hfits : (t.act a).Fits) :
    (s.act a).Ensures fun u => ∃ g', u.Kept g' (t.act a) := by
  cases a with
  | output request => exact keptByOutput.output ⟨g, h⟩ hmeasured hfits
  | setLine index content =>
    exact Attempt.ensures_done ⟨g, h.setLine index hmeasured.1 hmeasured.2⟩
  | flush => exact h.flush
  | close => exact h.close
  | setVisible visible =>
    cases visible with
    | true => exact Attempt.ensures_done ⟨g, h.reappear⟩
    | false => exact absurd rfl hclosing

theorem run {actions : List PageAction} (h : s.Kept g t)
    (hmeasured : ∀ a ∈ actions, a.Measured) (hclosing : ∀ a ∈ actions, a ≠ .setVisible false)
    (hfits : (actions.foldl Transcript.act t).Fits) :
    (s.run actions).Ensures fun u => ∃ g', u.Kept g' (actions.foldl Transcript.act t) :=
  run_ensures (fun s t => ∃ g, s.Kept g t) (fun a => a ≠ .setVisible false)
    (fun _ _ _ ⟨_, hs⟩ ha hclose hfit => hs.act ha hclose hfit) ⟨g, h⟩ hmeasured hclosing hfits

end Kept

theorem kept_start {device : Device} (h : device.output = []) (palette : Palette)
    (workers : Nat) : (start device palette workers).Kept .blank (.ofWorkers workers) where
  toSound := sound_start h palette workers
  intact := by
    refine ⟨fun i line hline => ?_, fun hne => absurd rfl hne⟩
    cases hline
  below := by
    right
    refine ⟨fun l hl => ?_, fun r _ j => rfl⟩
    obtain ⟨row, -, rfl⟩ := StatusBlock.mem_emptyLines hl
    rfl

/-- After every run in which the block is hidden by closing only, all output stands on the terminal
as it was written. -/
theorem run_intact {device : Device} (hfresh : device.output = []) (palette : Palette)
    (workers : Nat) (actions : List PageAction) (hmeasured : ∀ a ∈ actions, a.Measured)
    (hclosing : ∀ a ∈ actions, a ≠ .setVisible false)
    (hfits : (Transcript.ofActions workers actions).Fits)
    (hok : ((start device palette workers).run actions).failure = none) :
    ((start device palette workers).run actions).state.terminal.screen.cells.Intact
      ((start device palette workers).run actions).state.text
      (Transcript.ofActions workers actions) := by
  obtain ⟨g, hkept⟩ := (kept_start hfresh palette workers).run hmeasured hclosing hfits hok
  rw [hkept.toAccurate.terminal]
  exact hkept.intact

theorem run_intact_of_closed_and_shown :
    ((start {} .blank 1).run [.setLine 0 (.plain "BUILD"), .output (.line "a\tb"), .flush,
      .output (.text "one\r\ntwo"), .close, .output (.line "!"), .setVisible true,
      .output (.text "three")]).state.terminal.screen.cells.Intact ⟨3, 5⟩
      ⟨["a       b".toList, "one".toList, "two!".toList], "three".toList,
        [.plain "BUILD", [], []]⟩ :=
  run_intact rfl .blank 1 [.setLine 0 (.plain "BUILD"), .output (.line "a\tb"), .flush,
    .output (.text "one\r\ntwo"), .close, .output (.line "!"), .setVisible true,
    .output (.text "three")] (by decide) (by decide) (by decide) (by decide)

/-- Characters of width one are not enough. The two letters of this content are counted as one sign,
so the output starts one column to the right of where it should. -/
theorem not_run_intact_of_singleWidth :
    ¬∀ (device : Device) (palette : Palette) (workers : Nat) (actions : List PageAction),
      device.output = [] → (∀ a ∈ actions, a.SingleWidth) →
      (∀ a ∈ actions, a ≠ .setVisible false) →
      (Transcript.ofActions workers actions).Fits →
      ((start device palette workers).run actions).failure = none →
      ((start device palette workers).run actions).state.terminal.screen.cells.Intact
        ((start device palette workers).run actions).state.text
        (Transcript.ofActions workers actions) := by
  intro h
  have hintact := h {} .blank 0 [.setLine 0 (.plain "لا"), .output (.line "foo")] rfl
    (by decide +kernel) (by decide +kernel) (by decide +kernel) (by decide +kernel)
  have hcell := hintact.ended 0 "foo".toList (by decide +kernel) 0
  revert hcell
  decide +kernel

end Page

end ProgressDisplay
