import ProgressDisplay.Proofs.Live.Actions
import ProgressDisplay.Proofs.Regions.PlainOutput

/-!
# Output that is no terminal

A display whose output is no terminal takes no notice of events, and asks for no redraw. All it does
is to pass its output on. Where nothing is drawn in color, the output is then plain text.

* `PassesOn.act`: what one action does.
* `run_inert`: what any run comes to.
* `not_run_inert_whole`, `not_run_inert_of_drawn`: what does not hold of text that comes in several
  calls, and on a page that is not new.
-/

namespace ProgressDisplay

/-- What an action asks of the output. -/
def DisplayAction.requests : DisplayAction → List OutputRequest
  | .output requests | .giveUpOutput requests => requests
  | _ => []

namespace Display

variable {d d₀ : Display} {t : Printout}

/-- A fresh display without colors, on an output that is no terminal. -/
def onFile (device : Device) (workers : Nat) (present : LineAssignment.Presentation)
    (columns : Option Nat) (throttle : Nat) : Display :=
  { Display.start (.start device .blank workers) false columns throttle with present }

/-- All that was written. -/
def written (d : Display) : List Char := (Emission.renderAll d.page.device.output).toList

/-- Since it was the first, the display has changed only in its page, as time went on and as its
terminal was resized. -/
structure PassesOn (d₀ : Display) (t : Printout) (d : Display) : Prop where
  unchanged : d = { d₀ with page := d.page, now := d.now, columns := d.columns }
  bare : d.page.Bare
  grew : d₀.page.device.Grew Emission.Plain d.page.device
  prints : d₀.page.device.writeFault = .none → d.page.Prints d₀.written t

/-- A display that no event reaches and no alarm wakes. -/
structure Inert (d : Display) : Prop where
  interactive : d.interactive = false
  alarms : d.timer.alarms = []
  running : d.timer.shutDown = false

theorem state_output (hinteractive : d.interactive = false) (requests : List OutputRequest) :
    (d.output requests).state = d.withPage (d.page.outputAll requests).state ∨
      (d.output requests).state =
        d.withPage (d.page.outputAll requests).state.flushDevice.state := by
  unfold output Attempt.andThen
  cases hfailure : (d.page.outputAll requests).failure with
  | none =>
    simp only [Attempt.mapFailure, Attempt.map, hfailure, Option.map_none, withPage, hinteractive]
    exact .inr rfl
  | some failure =>
    simp only [Attempt.mapFailure, Attempt.map, hfailure, Option.map_some]
    exact .inl trivial

namespace PassesOn

/-- What is passed on to the page. -/
theorem withPage {a : Attempt DeviceFailure Page} {f : Printout → Printout} (h : d₀.PassesOn t d)
    (ha : ∀ base u, d.page.Prints base u → Page.Passes base (f u) d.page a) :
    d₀.PassesOn (f t) (d.withPage a.state) := by
  have hpasses := ha [] .overlong h.bare.prints_overlong
  refine ⟨?_, hpasses.bare, h.grew.trans hpasses.grew, fun hwrites => ?_⟩
  · rw [h.unchanged]
    rfl
  · have hcompletes := hpasses.completes (h.grew.writeFault.trans hwrites)
    exact (ha _ _ (h.prints hwrites)).prints hcompletes

theorem flushDevice (h : d₀.PassesOn t d) :
    d₀.PassesOn t (d.withPage d.page.flushDevice.state) := by
  obtain ⟨flushes, hstate⟩ := d.page.exists_state_flushDevice
  rw [hstate]
  have hbare : Page.Bare { d.page with
      writer := { d.page.writer with device := { d.page.writer.device with flushes } } } :=
    ⟨h.bare.hidden, h.bare.blank, h.bare.palette, h.bare.cursor⟩
  refine ⟨?_, hbare, ⟨h.grew.output, h.grew.writeFault, h.grew.flushFault⟩, fun hwrites => ?_⟩
  · rw [h.unchanged]
    rfl
  · exact ⟨hbare, (h.prints hwrites).column, (h.prints hwrites).output⟩

/-- What does not touch the page. -/
theorem withClock (h : d₀.PassesOn t d) (now : Int) (columns : Option Nat) :
    d₀.PassesOn t { d with now, columns } := by
  refine ⟨?_, h.bare, h.grew, h.prints⟩
  rw [h.unchanged]

theorem act (h : d₀.PassesOn t d) (hinert : d₀.Inert) {a : DisplayAction}
    (hpage : ∀ page, a ≠ .page page) :
    d₀.PassesOn (a.requests.foldl (Printout.request .apart) t) (d.act a).state := by
  have hinteractive : d.interactive = false := by
    rw [h.unchanged]
    exact hinert.interactive
  have htimer : d.timer = d₀.timer := by rw [h.unchanged]
  cases a with
  | accept e =>
    have hnone : d.accept e = .done d := by simp [accept, hinteractive]
    rw [Display.act, hnone]
    exact h
  | flush =>
    have hnone : d.flush = .done d := by simp [Display.flush, hinteractive]
    rw [Display.act, hnone]
    exact h
  | setVisible visible =>
    have hnone : d.setVisible visible = d := by simp [Display.setVisible, hinteractive]
    rw [Display.act, hnone]
    exact h
  | output requests =>
    have hwritten := h.withPage fun base u hu => hu.outputAll requests
    rw [Display.act]
    rcases state_output hinteractive requests with hstate | hstate
    · rw [hstate]
      exact hwritten
    · rw [hstate]
      exact hwritten.flushDevice
  | giveUpOutput requests => exact h.withPage fun base u hu => hu.outputAll requests
  | close =>
    have hnone : d.close = .done d := by simp [Display.close, hinteractive]
    rw [Display.act, hnone]
    exact h
  | ring index =>
    have hsilent : ¬(index < d.timer.alarms.length ∨ d.timer.shutDown = true) := by
      rw [htimer, hinert.alarms, hinert.running]
      simp
    rw [Display.act, if_neg hsilent]
    exact h
  | clock now => exact h.withClock now d.columns
  | resize columns => exact h.withClock d.now columns
  | page page => exact absurd rfl (hpage page)

theorem run (h : d₀.PassesOn t d) (hinert : d₀.Inert) {actions : List DisplayAction}
    (hpages : ∀ page, .page page ∉ actions) :
    d₀.PassesOn ((actions.flatMap DisplayAction.requests).foldl (Printout.request .apart) t)
      (d.run actions) := by
  induction actions generalizing d t with
  | nil => exact h
  | cons a rest ih =>
    have hact := h.act hinert fun page hpage => hpages page (hpage ▸ List.mem_cons_self)
    rw [List.flatMap_cons, List.foldl_append]
    exact ih hact fun page hpage => hpages page (List.mem_cons_of_mem a hpage)

end PassesOn

/-- A display whose output is no terminal changes nothing but its output, to which it sends text and
line breaks only. What it has sent to a device that refuses no write is what was to be printed, with
the text of each call measured by itself. -/
theorem run_inert (device : Device) (workers : Nat) (present : LineAssignment.Presentation)
    (columns : Option Nat) (throttle : Nat) (actions : List DisplayAction)
    (hpages : ∀ page, .page page ∉ actions) :
    let d := onFile device workers present columns throttle
    let s := d.run actions
    let printed := Printout.ofRequests .apart (actions.flatMap DisplayAction.requests)
    s = { d with page := s.page, now := s.now, columns := s.columns } ∧
      device.Grew Emission.Plain s.page.device ∧
      (device.writeFault = .none → printed.Fits .apart →
        s.written = d.written ++ printed.characters) := by
  intro d s printed
  have hbare : d.page.Bare := Page.bare_start device workers
  have hprints : d.page.Prints d.written {} :=
    ⟨hbare, fun _ => rfl, fun _ => (List.append_nil _).symm⟩
  have hstart : d.PassesOn {} d := ⟨rfl, hbare, .refl _, fun _ => hprints⟩
  have hrun : d.PassesOn printed s := hstart.run ⟨rfl, rfl, rfl⟩ hpages
  exact ⟨hrun.unchanged, hrun.grew, fun hwrites hfits => (hrun.prints hwrites).output hfits⟩

/-- Two calls share a line, with a tab in each. -/
theorem run_inert_of_tabs :
    let d := onFile {} 1 Operation.present (some 80) 85
    let actions : List DisplayAction :=
      [.accept .endOfOutput, .output [.text "a\tb"], .setVisible true, .output [.line "c\td"],
        .close]
    (∀ page, .page page ∉ actions) ∧
      (d.run actions).written = "a       bc      d\r\n".toList := by
  intro d actions
  have hpages : ∀ page, .page page ∉ actions := by simp [actions]
  have hrun := run_inert {} 1 Operation.present (some 80) 85 actions hpages
  have hfits :
      (Printout.ofRequests .apart (actions.flatMap DisplayAction.requests)).Fits .apart := by
    decide +kernel
  exact ⟨hpages, (hrun.2.2 rfl hfits).trans (by decide +kernel)⟩

/-- Two Arabic letters take one column together, but two if they come in two calls, so the tab stop
behind them is reached with fewer blanks than the line as one text would need. -/
theorem not_run_inert_whole :
    ¬∀ (device : Device) (workers : Nat) (present : LineAssignment.Presentation)
      (columns : Option Nat) (throttle : Nat) (actions : List DisplayAction),
      (∀ page, .page page ∉ actions) → device.writeFault = .none →
        let d := onFile device workers present columns throttle
        let printed := Printout.ofRequests .whole (actions.flatMap DisplayAction.requests)
        printed.Fits .whole → (d.run actions).written = d.written ++ printed.characters := by
  intro h
  have hletters := h {} 1 Operation.present (some 80) 85
    [.output [.text "\u0644"], .output [.text "\u0627\tb"]] (by simp) rfl
    (by decide +kernel)
  revert hletters
  decide +kernel

/-- A page on which a headline was drawn. -/
def drawnPage : Page :=
  let page := Page.start {} .blank 1
  Page.flush { page with block := page.block.setLine 0 [⟨.of .header, "BUILD"⟩] } |>.state

/-- On a page that is not new, the cursor first goes up to where the text goes on, and the rest of
what was drawn there is erased. -/
theorem not_run_inert_of_drawn :
    ¬∀ (page : Page) (present : LineAssignment.Presentation) (columns : Option Nat)
      (throttle : Nat) (actions : List DisplayAction),
      page.writer.palette = .blank → (∀ next, .page next ∉ actions) →
        let d : Display := { Display.start page false columns throttle with present }
        page.device.Grew Emission.Plain (d.run actions).page.device := by
  intro h
  have hgrew := h drawnPage Operation.present (some 80) 85 [.output [.line "log"]] rfl (by simp)
  obtain ⟨sent, hplain, hsent⟩ := hgrew.output
  have houtput : ({ Display.start drawnPage false (some 80) 85 with
      present := Operation.present }.run [.output [.line "log"]]).page.device.output =
      drawnPage.device.output ++ [.up 2, .text "log", .eraseRest, .lineBreak] := by decide +kernel
  rw [houtput, List.append_cancel_left_eq] at hsent
  exact hplain (.up 2) (by simp [← hsent])

end Display

end ProgressDisplay
