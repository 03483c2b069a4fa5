import ProgressDisplay.Proofs.Regions.Delivery
import ProgressDisplay.Proofs.Screen.Printout

/-!
# Output of a page that shows no block

A page whose block was hidden from the start, and which draws every style plainly, passes its output
on. The lines of the block still scroll along with it, but they have drawn nothing, so that no text
runs over them and nothing is to be erased.

* `Page.Prints.request`, `Page.Prints.outputAll`: what such a page prints, and that it sends nothing
  else.
-/

namespace ProgressDisplay

open Attempt

namespace Page

variable {s : Page} {t : Printout} {base : List Char} {a : Attempt DeviceFailure Page}

/-- The block is hidden and has drawn nothing, and the cursor is where the output goes on. -/
structure Bare (s : Page) : Prop where
  hidden : s.block.visible = false
  blank : ∀ l ∈ s.block.lines, l.position.col = 0
  palette : s.writer.palette = Palette.blank
  cursor : s.writer.cursor = s.text

/-- The output has come to what was to be printed, unless a line was too long. -/
structure Prints (base : List Char) (t : Printout) (s : Page) : Prop extends Bare s where
  column : t.Fits .apart → s.text.col = Measure.apart t.parts
  output : t.Fits .apart → (Emission.renderAll s.device.output).toList = base ++ t.characters

theorem Bare.prints_overlong (h : s.Bare) : s.Prints base .overlong where
  toBare := h
  column hfits := absurd hfits Printout.not_fits_overlong
  output hfits := absurd hfits Printout.not_fits_overlong

/-- Plain emissions were sent and the page is still bare, wherever the attempt stopped. It stops
only where the device refuses a write, and if it does not, then so much is printed. -/
structure Passes (base : List Char) (t : Printout) (s : Page) (a : Attempt DeviceFailure Page) :
    Prop where
  grew : s.device.Grew Emission.Plain a.state.device
  bare : a.state.Bare
  completes : s.device.writeFault = .none → a.failure = none
  prints : a.Ensures (Prints base t)

theorem Passes.done (h : s.Prints base t) : Passes base t s (.done s) where
  grew := .refl _
  bare := h.toBare
  completes _ := rfl
  prints := ensures_done h

theorem Passes.andThen {next : Page → Attempt DeviceFailure Page} {u : Printout}
    (ha : Passes base t s a) (hnext : ∀ v, v.Prints base t → Passes base u v (next v)) :
    Passes base u s (a.andThen next) := by
  cases hfailure : a.failure with
  | none =>
    have hthen := hnext a.state (ha.prints hfailure)
    rw [andThen_of_none hfailure]
    exact ⟨ha.grew.trans hthen.grew, hthen.bare,
      fun hwrites => hthen.completes (ha.grew.writeFault.trans hwrites), hthen.prints⟩
  | some failure =>
    have hstop : a.andThen next = a := by simp [Attempt.andThen, hfailure]
    rw [hstop]
    refine ⟨ha.grew, ha.bare, ha.completes, fun hok => ?_⟩
    rw [hfailure] at hok
    cases hok

/-! ## Nothing stands in the way of the output -/

theorem Bare.overlap (h : s.Bare) (pending : Bool) : s.overlap pending = 0 :=
  overlap_of_hidden h.hidden pending

theorem Bare.overlaps (h : s.Bare) : s.block.overlaps s.text = false := by
  simp only [StatusBlock.overlaps, List.any_eq_false]
  intro l hl
  simp [AnchoredLine.overlaps, h.blank l hl]

theorem Bare.penAt (h : s.Bare) :
    s.writer.penAt s.text = { palette := Palette.blank, cursor := s.text } := by
  rw [Writer.penAt, h.cursor, h.palette, Position.motions_self]

theorem Bare.writeText_eq (h : s.Bare) {text : List Char} (hne : text ≠ []) :
    s.writeText text =
      s.drawText fun p => p.styled s.style fun p => p.tabbed (Text.pieces '\t' text) := by
  rw [writeText, if_neg hne, vacateLine_of_clear (h.overlap true), done_andThen, h.overlap true]
  rfl

theorem Bare.endLine_eq (h : s.Bare) : s.endLine = s.drawText Pen.breakLine := by
  rw [endLine, vacateLine_of_clear (h.overlap true), done_andThen, h.overlap true, h.overlaps]
  rfl

/-- A page that went on to a place stays bare, although its block may have scrolled. -/
theorem Bare.goOn (h : s.Bare) (device : Device) (stop : Position) (rows : Nat) :
    Bare { s with
      writer := { s.writer with device, cursor := stop }
      block := s.block.raise rows
      text := stop } where
  hidden := h.hidden
  blank := by
    intro l hl
    obtain ⟨l', hl', rfl⟩ := List.mem_map.mp hl
    exact h.blank l' hl'
  palette := h.palette
  cursor := rfl

/-- A page prints what its pen types. -/
theorem Prints.drawText {u : Printout} {draw : Pen → Pen} (h : s.Prints base t)
    (hdraw : ∀ p : Pen, p.palette = Palette.blank → p.Types t t → (draw p).Types t u) :
    Passes base u s (s.drawText draw) := by
  have hpen : (s.writer.penAt s.text).Types t t := by
    rw [h.penAt]
    exact ⟨by simp, id, h.column, fun _ => by simp [Emission.renderAll]⟩
  have hdrawn := hdraw _ (by rw [h.penAt]) hpen
  unfold Page.drawText
  cases hr : s.writer.drawAt s.text draw with
  | error failure =>
    refine ⟨.refl _, h.toBare, fun hwrites => ?_, fun hok => by cases hok⟩
    rw [Writer.drawAt_of_none hwrites] at hr
    cases hr
  | ok r =>
    obtain ⟨device, hwrite, rfl⟩ := Writer.commit_eq_ok_iff.mp hr
    have hbare := h.goOn device (draw (s.writer.penAt s.text)).cursor
      (draw (s.writer.penAt s.text)).scrolled
    refine ⟨Device.grew_write hdrawn.plain hwrite, hbare, fun _ => rfl,
      fun _ => ⟨hbare, hdrawn.column, fun hfits => ?_⟩⟩
    obtain ⟨-, rfl⟩ := Device.write_eq_ok_iff.mp hwrite
    have hbefore := h.output (hdrawn.fits hfits)
    show (Emission.renderAll (s.device.output ++ _)).toList = _
    rw [Emission.renderAll_append, String.toList_append, hbefore, hdrawn.emitted hfits,
      List.append_assoc]

/-! ## Requests of output -/

theorem Prints.writeText (h : s.Prints base t) (hseparate : t.Separate) (text : List Char) :
    Passes base (t.typeLine .apart text) s (s.writeText text) := by
  by_cases hne : text = []
  · subst hne
    exact .done h
  · rw [h.writeText_eq hne]
    refine h.drawText fun p hpalette hp => ?_
    have hplain : p.palette s.style = .plain := by rw [hpalette]; rfl
    rw [Pen.styled_of_plain hplain]
    have hpieces : ∀ piece ∈ Text.pieces '\t' text, '\t' ∉ piece :=
      fun piece hpiece => Text.not_mem_of_mem_pieces hpiece
    have htabbed := hp.tabbed hseparate hpieces
    rwa [Text.intercalate_pieces] at htabbed

theorem Prints.endLine (h : s.Prints base t) : Passes base t.endLine s s.endLine := by
  rw [h.endLine_eq]
  exact h.drawText fun p _ hp => hp.breakLine

theorem Prints.writeLines {lines : List (List Char)} (h : s.Prints base t)
    (hlatest : t.latest = []) :
    Passes base (Printout.typeLines .apart lines t) s (writeLines lines s) := by
  induction lines generalizing s t with
  | nil => exact .done h
  | cons line rest ih =>
    have hline := h.writeText (Printout.separate_of_nil hlatest) (withoutReturn line)
    cases rest with
    | nil => exact hline
    | cons next others =>
      exact (hline.andThen fun u hu => hu.endLine).andThen fun u hu => ih hu rfl

theorem Prints.call (h : s.Prints base t) : s.Prints base t.call where
  toBare := h.toBare
  column hfits := by
    rw [Printout.columns_call]
    exact h.column hfits.of_call
  output hfits := by
    rw [Printout.characters_call]
    exact h.output hfits.of_call

theorem Prints.request (h : s.Prints base t) (request : OutputRequest) :
    Passes base (t.request .apart request) s (s.output request) := by
  cases request with
  | style style =>
    have hbare : Bare { s with style } := ⟨h.hidden, h.blank, h.palette, h.cursor⟩
    exact ⟨.refl _, hbare, fun _ => rfl, ensures_done ⟨hbare, h.column, h.output⟩⟩
  | text content => exact h.call.writeLines rfl
  | endLine => exact h.endLine
  | line content => exact (h.call.writeLines rfl).andThen fun u hu => hu.endLine

theorem Prints.outputAll (h : s.Prints base t) (requests : List OutputRequest) :
    Passes base (requests.foldl (Printout.request .apart) t) s (s.outputAll requests) := by
  induction requests generalizing s t with
  | nil => exact .done h
  | cons request rest ih => exact (h.request request).andThen fun u hu => ih hu

/-- A flush changes nothing but the count of flushes. -/
theorem exists_state_flushDevice (s : Page) :
    ∃ flushes, s.flushDevice.state =
      { s with writer := { s.writer with device := { s.writer.device with flushes } } } := by
  unfold Page.flushDevice Writer.flush
  cases hflush : s.writer.device.flush with
  | error failure => exact ⟨s.writer.device.flushes, rfl⟩
  | ok device =>
    obtain rfl := Device.eq_of_flush hflush
    exact ⟨_, rfl⟩

theorem bare_start (device : Device) (workers : Nat) :
    ((start device Palette.blank workers).setVisible false).Bare where
  hidden := rfl
  blank := by
    intro l hl
    obtain ⟨l', hl', rfl⟩ := List.mem_map.mp hl
    obtain ⟨row, -, rfl⟩ := StatusBlock.mem_emptyLines hl'
    rfl
  palette := rfl
  cursor := rfl

end Page

end ProgressDisplay
