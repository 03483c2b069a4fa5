import ProgressDisplay.Proofs.Live.Alarms

/-!
# The end of a display

A display ends with the event that ends the output or when it is closed, and stops when a drain
fails, the last one included. Calls may still come after that, and so may alarms that had left the
timer before. A display that runs no more has no events waiting, hence nothing is applied any more.

* `Watched.frozen`: what no action changes from then on.
* `run_final`: what is true at the end of every run and of every run that goes on from there.
-/

namespace ProgressDisplay.Display

variable {d s t : Display}

/-! ## How a display ends -/

theorem phase_drain (hrunning : d.phase = .running) :
    d.drain.state.phase = if d.drain.failure.isSome then .stopped else .running := by
  have hdrains : d.Drains d.drain := drains_of_running hrunning
  generalize d.drain = a at hdrains
  cases hdrains with
  | idle | shown => exact hrunning
  | failed | refused => rfl

theorem phase_finish (d : Display) :
    d.finish.phase = if d.phase = .running then .ended else d.phase := by
  unfold finish
  split <;> rfl

/-- A display that was to end with a drain stops if the drain fails. -/
theorem phase_finish_drain (hrunning : d.phase = .running) :
    d.drain.state.finish.phase = if d.drain.failure.isSome then .stopped else .ended := by
  rw [phase_finish, phase_drain hrunning]
  cases d.drain.failure with
  | none => rfl
  | some failure => rfl

theorem phase_last (hinteractive : d.interactive = true) (hrunning : d.phase = .running) :
    (d.act (.accept .endOfOutput)).state.phase =
      if (d.act (.accept .endOfOutput)).failure.isSome then .stopped else .ended := by
  have hdoes := does hinteractive (.accept .endOfOutput)
  generalize d.act (.accept .endOfOutput) = r at hdoes
  cases hdoes with
  | last => exact @phase_finish_drain (d.enqueue .endOfOutput) hrunning
  | wait _ hother | atOnce _ hother | later _ hother | unheeded _ hother => exact absurd rfl hother
  | unheededLast hphase | rejected hphase => exact absurd (hrunning.symm.trans hphase) (by decide)

/-- What is reported of a close is not only what became of the drain. -/
theorem phase_close (hinteractive : d.interactive = true) (hrunning : d.phase = .running) :
    (d.act .close).state.phase = if d.drain.failure.isSome then .stopped else .ended := by
  have hdoes := does hinteractive .close
  generalize d.act .close = r at hdoes
  cases hdoes with
  | close =>
    have hsame : d.drain.failure = d.stopTimer.drain.failure :=
      (congrArg Attempt.failure (drain_withTimer d d.timer.stop)).symm
    rw [hsame]
    exact @phase_finish_drain d.stopTimer hrunning
  | closeAgain hphase => exact absurd hrunning hphase

/-! ## After the end -/

/-- What actions leave as it is, where they put no other lines on the page by themselves. -/
structure Frozen (d : Display) (actions : List DisplayAction) (s : Display) : Prop where
  phase : s.phase = d.phase := by rfl
  tracker : s.tracker = d.tracker := by rfl
  contents : (∀ page, .page page ∈ actions → page.contents = d.page.contents) →
    s.page.contents = d.page.contents := by exact fun _ => rfl

theorem Frozen.cons {a : DisplayAction} {rest : List DisplayAction} (h : d.Frozen [a] s)
    (hrest : s.Frozen rest t) : d.Frozen (a :: rest) t where
  phase := hrest.phase.trans h.phase
  tracker := hrest.tracker.trans h.tracker
  contents hpages := by
    have hcontents : s.page.contents = d.page.contents := h.contents fun page hpage =>
      hpages page (List.mem_singleton.mp hpage ▸ List.mem_cons_self)
    refine (hrest.contents fun page hpage => ?_).trans hcontents
    rw [hpages page (List.mem_cons_of_mem a hpage), hcontents]

namespace Watched

theorem frozen_act (h : d.Watched) (hidle : d.phase ≠ .running) (a : DisplayAction) :
    d.Frozen [a] (d.act a).state := by
  have hdoes : d.Does a (d.act a) := does h.interactive a
  generalize d.act a = r at hdoes
  cases hdoes with
  | last hphase | wait hphase | atOnce hphase | later hphase | close hphase | ring hphase =>
    exact absurd hphase hidle
  | unheeded | unheededLast | rejected | ringInVain | silence | clock | resize => exact {}
  | redraw => exact { contents := fun _ => Page.contents_flush d.page }
  | flush hwaits =>
    -- No event waits, so it is a stopped display that is flushed.
    have hstopped : d.phase = .stopped := by
      by_contra hended
      exact hwaits ⟨h.idle hidle, hended⟩
    rw [drain_of_stopped hstopped]
    exact {}
  | setVisible => exact { contents := fun _ => Page.contents_setVisible d.page _ }
  | output =>
    obtain ⟨page, hcontents, hpage⟩ := exists_output_eq d _
    rw [hpage]
    exact { contents := fun _ => hcontents }
  | giveUpOutput => exact { contents := fun _ => Page.contents_outputAll d.page _ }
  | closeAgain => exact { contents := fun _ => Page.contents_close d.page }
  | page => exact { contents := fun hpages => hpages _ List.mem_cons_self }

theorem frozen (h : d.Watched) (hidle : d.phase ≠ .running) (actions : List DisplayAction) :
    d.Frozen actions (d.run actions) := by
  induction actions generalizing d with
  | nil => exact {}
  | cons a rest ih =>
    have hact := h.frozen_act hidle a
    exact hact.cons (ih (h.act a) (by rw [hact.phase]; exact hidle))

end Watched

theorem page_ring (hidle : d.phase ≠ .running) (index : Nat) :
    (d.act (.ring index)).state.page = d.page := by
  have hdoes := does_ring d index
  generalize d.act (.ring index) = r at hdoes
  cases hdoes with
  | ring hphase => exact absurd hphase hidle
  | ringInVain | silence => rfl

theorem accept_of_stopped (hinteractive : d.interactive = true) (hstopped : d.phase = .stopped)
    (e : Event) :
    d.act (.accept e) = .done (if e = .endOfOutput then d.stopTimer else d) := by
  simp only [act, accept, hinteractive, hstopped, if_true]

theorem accept_of_ended (hinteractive : d.interactive = true) (hended : d.phase = .ended)
    (e : Event) : d.act (.accept e) = ⟨d, some (.event e .afterEnd)⟩ := by
  simp only [act, accept, hinteractive, hended, if_true]

theorem flush_of_stopped (hinteractive : d.interactive = true) (hstopped : d.phase = .stopped) :
    d.act .flush = ⟨d, some .stopped⟩ := by
  have hwaits : ¬(d.queue = [] ∧ d.phase ≠ .stopped) := fun h => h.2 hstopped
  calc d.act .flush = d.drain := by rw [act, flush, if_pos hinteractive, if_neg hwaits]
    _ = ⟨d, some .stopped⟩ := drain_of_stopped hstopped

/-- A display on a terminal ends or stops once, whatever befalls it. The last event and a close end
it, or stop it if what waited could not be applied and drawn. Whatever comes after that, the
operations, their lines, the headline and what the lines are to show stay as they are, an alarm
that rings does not touch the page, and events are no longer taken: an ended display rejects them, a
stopped one drops them and no longer draws on demand. -/
theorem run_final (page : Page) (present : LineAssignment.Presentation) (columns : Option Nat)
    (throttle : Nat) (actions : List DisplayAction) :
    let d := run actions (onTerminal page present columns throttle)
    (∀ a, (d.act a).state.phase ≠ d.phase → d.phase = .running) ∧
    (d.phase = .running →
      (d.act (.accept .endOfOutput)).state.phase =
        (if (d.act (.accept .endOfOutput)).failure.isSome then .stopped else .ended) ∧
      (d.act .close).state.phase = if d.drain.failure.isSome then .stopped else .ended) ∧
    (d.phase ≠ .running →
      (∀ later, (d.run later).phase = d.phase ∧ (d.run later).tracker = d.tracker ∧
        ((∀ page, .page page ∈ later → page.contents = d.page.contents) →
          (d.run later).page.contents = d.page.contents)) ∧
      ∀ index, (d.act (.ring index)).state.page = d.page) ∧
    (d.phase = .ended → ∀ e, d.act (.accept e) = ⟨d, some (.event e .afterEnd)⟩) ∧
    (d.phase = .stopped →
      (∀ e, d.act (.accept e) = .done (if e = .endOfOutput then d.stopTimer else d)) ∧
      d.act .flush = ⟨d, some .stopped⟩) := by
  intro d
  have hwatched : d.Watched := (watched_onTerminal page present columns throttle).run actions
  have hinteractive : d.interactive = true := hwatched.interactive
  refine ⟨fun a hchanged => ?_, fun hrunning => ?_, fun hidle => ⟨fun later => ?_, ?_⟩, ?_,
    fun hstopped => ⟨?_, ?_⟩⟩
  · by_contra hidle
    exact hchanged (hwatched.frozen_act hidle a).phase
  · exact ⟨phase_last hinteractive hrunning, phase_close hinteractive hrunning⟩
  · have hfrozen := hwatched.frozen hidle later
    exact ⟨hfrozen.phase, hfrozen.tracker, hfrozen.contents⟩
  · exact page_ring hidle
  · exact accept_of_ended hinteractive
  · exact accept_of_stopped hinteractive hstopped
  · exact flush_of_stopped hinteractive hstopped

end ProgressDisplay.Display
