import ProgressDisplay.Proofs.Live.Finality
import ProgressDisplay.Proofs.Regions.LineBreaks

/-!
# Flushes that fail

A flush of a running display takes one of two ways. If events wait, they are drained, and a drain
that fails stops the display for good. If none waits, the page is flushed as it is, and a failure is
reported but not remembered.

* `Watched.latched`: a display that has stopped refuses every flush from then on.
* `latched_iff`: after which failing flushes it does.
-/

namespace ProgressDisplay.Display

variable {d : Display}

/-- The display has stopped for good: whatever befalls it, it refuses to be flushed. -/
def Latched (d : Display) : Prop :=
  ∀ later, (d.run later).phase = .stopped ∧
    (d.run later).act .flush = ⟨d.run later, some .stopped⟩

theorem Watched.latched (h : d.Watched) (hstopped : d.phase = .stopped) : d.Latched := by
  intro later
  have hidle : d.phase ≠ .running := by
    rw [hstopped]
    decide
  have hstill : (d.run later).phase = .stopped := (h.frozen hidle later).phase.trans hstopped
  exact ⟨hstill, flush_of_stopped (h.run later).interactive hstill⟩

theorem Latched.stopped (h : d.Latched) : d.phase = .stopped := (h []).1

theorem flush_of_waiting (hinteractive : d.interactive = true) (hqueue : d.queue ≠ []) :
    d.act .flush = d.drain := by
  rw [act, flush, if_pos hinteractive, if_neg fun h => hqueue h.1]

theorem flush_of_quiet (hinteractive : d.interactive = true) (hrunning : d.phase = .running)
    (hqueue : d.queue = []) : d.act .flush = d.redraw := by
  rw [act, flush, if_pos hinteractive, if_pos ⟨hqueue, by rw [hrunning]; decide⟩]

/-- A display on a terminal that fails to be flushed while it runs has stopped for good, however its
terminal recovers, if and only if an event waited. If none did, only the page has changed, as far as
the device let it. -/
theorem latched_iff (page : Page) (present : LineAssignment.Presentation) (columns : Option Nat)
    (throttle : Nat) (actions : List DisplayAction) :
    let d := run actions (onTerminal page present columns throttle)
    d.phase = .running → (d.act .flush).failure ≠ none →
      ((d.act .flush).state.Latched ↔ d.queue ≠ []) ∧
      (d.queue = [] → (d.act .flush).state = d.withPage d.page.flush.state) := by
  intro d hrunning hfailed
  have hwatched : d.Watched := (watched_onTerminal page present columns throttle).run actions
  have hquiet (hqueue : d.queue = []) : (d.act .flush).state = d.withPage d.page.flush.state := by
    rw [flush_of_quiet hwatched.interactive hrunning hqueue]
    rfl
  refine ⟨⟨fun hlatched hqueue => ?_, fun hqueue => ?_⟩, hquiet⟩
  · -- A page that is flushed as it is does not touch the phase.
    have hstill : (d.act .flush).state.phase = .running := by
      rw [hquiet hqueue]
      exact hrunning
    exact absurd (hlatched.stopped.symm.trans hstill) (by decide)
  · refine (hwatched.act .flush).latched ?_
    rw [flush_of_waiting hwatched.interactive hqueue] at hfailed ⊢
    rw [phase_drain hrunning, if_pos (Option.isSome_iff_ne_none.mpr hfailed)]

/-- An event waits when the terminal refuses to be flushed, and the terminal recovers after that. -/
theorem latched_iff_of_waiting :
    let build : List DisplayAction :=
      [.accept (.start 1 none "BUILD" ""), .accept (.progress 1 "50%")]
    let start := onTerminal .fresh Operation.present (some 80) 85
    let broken := (start.run build).page.withFault .none (some "flush closed")
    let d := start.run (build ++ [.page broken])
    d.phase = .running ∧ (d.act .flush).failure = some (.device ⟨"flush closed"⟩) ∧
      (d.act .flush).state.Latched ∧
      (((d.act .flush).state.run [.page .fresh]).act .flush).failure = some .stopped := by
  intro build start broken d
  have hrunning : d.phase = .running := by decide +kernel
  have hfailure : (d.act .flush).failure = some (.device ⟨"flush closed"⟩) := by decide +kernel
  have hfailed : (d.act .flush).failure ≠ none := by simp [hfailure]
  have hqueue : d.queue ≠ [] := by decide +kernel
  obtain ⟨hiff, -⟩ := latched_iff .fresh Operation.present (some 80) 85 _ hrunning hfailed
  have hlatched : (d.act .flush).state.Latched := hiff.mpr hqueue
  exact ⟨hrunning, hfailure, hlatched, congrArg Attempt.failure (hlatched [.page .fresh]).2⟩

/-- With no event waiting, a terminal that refused to be flushed is flushed once it recovers. -/
theorem not_latched :
    ¬∀ (page : Page) (present : LineAssignment.Presentation) (columns : Option Nat) (throttle : Nat)
      (actions : List DisplayAction),
      let d := run actions (onTerminal page present columns throttle)
      d.phase = .running → (d.act .flush).failure ≠ none → (d.act .flush).state.Latched := by
  intro h
  have hlatched := h .fresh Operation.present (some 80) 85
    [.page (Page.fresh.withFault .none (some "flush closed"))] (by decide +kernel)
    (by decide +kernel)
  have hrefused := congrArg Attempt.failure (hlatched [.page .fresh]).2
  revert hrefused
  decide +kernel

end ProgressDisplay.Display
