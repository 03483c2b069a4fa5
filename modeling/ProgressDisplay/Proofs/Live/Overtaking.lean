import ProgressDisplay.Proofs.Live.Timeliness

/-!
# Which task runs ahead of which

The tasks that are due in a turn run in the order in which they arrived, whatever their deadlines
are, and the tasks that the runner keeps are due after all of them. So a task may run ahead of one
with an earlier deadline, but only in a turn at which both are due, and only if it arrived first.

* `Runner.chronological_dueAt_iff`: what is due comes in the order of the deadlines at every reading
  of the clock exactly if all that is pending does.
* `Reaches.precedes`: which tasks can run ahead of one with an earlier deadline.
* `not_precedes_iff`: in every order of the steps no task runs ahead of one with an earlier deadline
  exactly if the tasks arrive in the order of their deadlines.
-/

namespace ProgressDisplay

variable {τ : Type}

/-- The tasks come in the order of their deadlines. -/
def Chronological (tasks : List (Deadline τ)) : Prop := tasks.Pairwise fun d e => d.due ≤ e.due

theorem chronological_iff_sublist {tasks : List (Deadline τ)} :
    Chronological tasks ↔ ∀ d e, [d, e].Sublist tasks → d.due ≤ e.due :=
  List.pairwise_iff_forall_sublist.trans
    ⟨fun h _ _ hsublist => h hsublist, fun h d e hsublist => h d e hsublist⟩

namespace Runner

theorem chronological_dueAt_iff (r : Runner τ) :
    (∀ now, Chronological (r.dueAt now)) ↔ Chronological r.pending := by
  constructor
  · intro h
    refine chronological_iff_sublist.mpr fun d e hpending => ?_
    -- both have come due by the later one of their deadlines
    have hboth : ∀ f ∈ [d, e], decide (f.due ≤ max d.due e.due) = true := by
      simp only [List.forall_mem_cons, decide_eq_true_eq]
      exact ⟨Nat.le_max_left _ _, Nat.le_max_right _ _, nofun⟩
    have hdue := hpending.filter fun f => decide (f.due ≤ max d.due e.due)
    rw [List.filter_eq_self.mpr hboth] at hdue
    exact chronological_iff_sublist.mp (h (max d.due e.due)) d e hdue
  · intro h now
    exact h.filter _

theorem pending_receive_sublist {r : Runner τ} {message : Message τ} {rest : List (Message τ)}
    (hchannel : r.channel = message :: rest) :
    r.receive.pending.Sublist (r.pending ++ message.deadline?.toList) := by
  cases message with
  | schedule d => simp only [receive, hchannel, Message.deadline?, Option.toList, List.Sublist.refl]
  | shutdown => simp only [receive, hchannel, leave, List.nil_sublist]

end Runner

namespace Scheduler

variable {s t : Scheduler τ} {d e : Deadline τ}

/-! ## The order of arrival -/

/-- What is left of a turn and what is kept wait in the order of their arrival, and a turn goes by
the last reading of the clock. -/
structure Queued (s : Scheduler τ) : Prop where
  due : s.stage.due.Sublist s.received
  pending : s.runner.pending.Sublist s.received
  reading : ∀ reading due, s.stage = .running reading due → s.reading = some reading

theorem Queued.step (h : Queued s) (hstep : Step s t) : Queued t := by
  cases hstep with
  | pass | call | date | clear | stop | close => exact { h with }
  | send before after d =>
    unfold record
    split <;> exact { h with }
  | receive message rest hat hchannel =>
    exact
      { due := List.nil_sublist _
        pending := (Runner.pending_receive_sublist hchannel).trans (h.pending.append_right _)
        reading := nofun }
  | wake | check | finish => exact { h with due := List.nil_sublist _, reading := nofun }
  | disconnect | quit => exact { h with pending := List.nil_sublist _ }
  | read =>
    exact
      { due := List.filter_sublist.trans h.pending
        pending := List.filter_sublist.trans h.pending
        reading := fun reading due hstage => congrArg some (Stage.running.inj hstage).1 }
  | perform reading d rest hat =>
    have hdue := h.due
    rw [hat.1] at hdue
    exact
      { h with
        due := (List.sublist_cons_self d rest).trans hdue
        reading := fun _ _ hstage => by
          obtain ⟨rfl, -⟩ := Stage.running.inj hstage
          exact h.reading _ _ hat.1 }

theorem Reaches.queued {now : Nat} (h : Reaches { clock := now } s) : Queued s := by
  induction h with
  | refl => exact ⟨.refl _, .refl _, nofun⟩
  | tail _ hstep ih => exact ih.step hstep

/-! ## Tasks that run ahead of others -/

/-- The runner runs a task next, while another one that it has received is still to be run. -/
def Precedes (s : Scheduler τ) (d e : Deadline τ) : Prop :=
  ∃ reading rest, s.At (.running reading (d :: rest)) ∧ e ∈ rest ++ s.runner.pending

/-- What is kept in a turn is due after all that is run in it. -/
theorem Reaches.lt_due_of_pending {now : Nat} (h : Reaches { clock := now } s) {reading : Nat}
    {due : List (Deadline τ)} (hat : s.At (.running reading due)) (he : e ∈ s.runner.pending) :
    reading < e.due := by
  obtain ⟨last, hlast, hlater⟩ := h.timed.pending (.inr ⟨_, _, hat.1⟩) hat.2 e he
  rw [h.queued.reading _ _ hat.1] at hlast
  obtain rfl := Option.some.inj hlast
  exact hlater

/-- A task that runs ahead of one with an earlier deadline does so in a turn at which both are due,
and it arrived first. -/
theorem Reaches.precedes {now : Nat} (h : Reaches { clock := now } s) (hprecedes : s.Precedes d e)
    (hearlier : e.due < d.due) :
    ∃ reading rest, s.At (.running reading (d :: rest)) ∧ e ∈ rest ∧ d.due ≤ reading ∧
      [d, e].Sublist s.received := by
  obtain ⟨reading, rest, hat, he⟩ := hprecedes
  have hreading : d.due ≤ reading := (h.timed.due reading _ hat.1).2 d List.mem_cons_self
  have hrest : e ∈ rest := by
    refine (List.mem_append.mp he).resolve_right fun hpending => ?_
    have hlater := h.lt_due_of_pending hat hpending
    omega
  have hreceived := h.queued.due
  rw [hat.1] at hreceived
  exact ⟨reading, rest, hat, hrest, hreading,
    ((List.singleton_sublist.mpr hrest).cons_cons d).trans hreceived⟩

/-! ## A runner that wakes up late -/

/-- The runner waits, and no message has been sent to it. -/
structure Idle (s : Scheduler τ) : Prop where
  stage : s.stage = .waiting
  runner : s.runner = { pending := s.runner.pending }

/-- A task that is sent to a runner that waits wakes it up. -/
theorem Idle.reaches_woken (h : Idle s) (hdue : s.clock ≤ d.due) :
    s.Reaches
      { s with
        runner := { pending := s.runner.pending ++ [d] }
        stage := .woken
        sent := s.sent ++ [d]
        received := s.received ++ [d] } := by
  obtain ⟨delay, hdelay⟩ := Nat.exists_eq_add_of_le hdue
  have hdeadline : (⟨s.clock + delay, d.task⟩ : Deadline τ) = d := by rw [← hdelay]
  have hrunning : s.runner.running = true := by rw [h.runner]
  have hscheduled := reaches_schedule hrunning delay d.task
  have hrunner : s.runner.schedule s.clock delay d.task =
      { channel := [.schedule d], pending := s.runner.pending } := by
    rw [Runner.schedule, if_pos hrunning, hdeadline, h.runner]
    rfl
  rw [hrunner, hdeadline] at hscheduled
  exact hscheduled.step (.receive (.schedule d) [] ⟨h.stage, rfl⟩ rfl)

/-- A turn at the time at which a task is sent keeps what is not due at once. -/
theorem Idle.exists_turn (h : Idle s) (hdue : s.clock ≤ d.due) :
    ∃ t, s.Reaches t ∧ Idle t ∧ t.clock = s.clock ∧ t.received = s.received ++ [d] ∧
      ∀ f ∈ s.runner.pending ++ [d], s.clock < f.due → f ∈ t.runner.pending := by
  have hchecked := (h.reaches_woken hdue).step (.check ⟨rfl, rfl⟩ rfl)
  have hread := hchecked.step (.read ⟨rfl, rfl⟩)
  refine ⟨_, hread.trans (reaches_finish _ _ ⟨rfl, rfl⟩), ⟨rfl, rfl⟩, rfl, rfl, ?_⟩
  intro f hf hlater
  refine List.mem_filter.mpr ⟨hf, ?_⟩
  simpa using hlater

/-- Tasks that come in while no time passes are kept, but for those that are due at once. -/
theorem Idle.exists_received (h : Idle s) (tasks : List (Deadline τ))
    (hdue : ∀ d ∈ tasks, s.clock ≤ d.due) :
    ∃ t, s.Reaches t ∧ Idle t ∧ t.clock = s.clock ∧ t.received = s.received ++ tasks ∧
      ∀ d ∈ s.runner.pending ++ tasks, s.clock < d.due → d ∈ t.runner.pending := by
  induction tasks generalizing s with
  | nil =>
    refine ⟨s, .refl, h, rfl, (List.append_nil _).symm, fun d hd _ => ?_⟩
    rwa [List.append_nil] at hd
  | cons e tasks ih =>
    obtain ⟨t, ht, hidle, hclock, hreceived, hkept⟩ := h.exists_turn (hdue e List.mem_cons_self)
    rw [← hclock] at hdue hkept
    obtain ⟨u, hu, hidle', hclock', hreceived', hkept'⟩ :=
      ih hidle fun d hd => hdue d (List.mem_cons_of_mem _ hd)
    refine ⟨u, ht.trans hu, hidle', hclock'.trans hclock, ?_, fun d hd hlater => ?_⟩
    · rw [hreceived', hreceived, List.append_assoc, List.singleton_append]
    · rw [← hclock] at hlater
      rw [List.append_cons] at hd
      rcases List.mem_append.mp hd with hbefore | hafter
      · exact hkept' d (List.mem_append_left _ (hkept d hbefore hlater)) hlater
      · exact hkept' d (List.mem_append_right _ hafter) hlater

/-- If the runner wakes up late, it runs what it has kept ahead of a task that was due before. -/
theorem Idle.exists_precedes (h : Idle s) (hd : d ∈ s.runner.pending) (hdue : s.clock ≤ e.due)
    (hearlier : e.due < d.due) :
    ∃ t, s.Reaches t ∧ t.received = s.received ++ [e] ∧ t.Precedes d e := by
  have hpassed := (h.reaches_woken hdue).step (.pass d.due (by dsimp only; omega))
  have hread := (hpassed.step (.check ⟨rfl, rfl⟩ rfl)).step (.read ⟨rfl, rfl⟩)
  have hd' : d ∈ s.runner.dueAt d.due := List.mem_filter.mpr ⟨hd, by simp⟩
  obtain ⟨before, after, hsplit⟩ := List.append_of_mem hd'
  have hdueAt : Runner.dueAt { pending := s.runner.pending ++ [e] } d.due =
      before ++ d :: (after ++ [e]) := by
    have hlast : [e].filter (fun f => decide (f.due ≤ d.due)) = [e] :=
      List.filter_eq_self.mpr (by simpa using Nat.le_of_lt hearlier)
    rw [Runner.dueAt, List.filter_append, hlast, ← Runner.dueAt, hsplit, List.append_assoc]
    rfl
  rw [hdueAt] at hread
  have hrun := hread.trans (reaches_perform d.due before (d :: (after ++ [e])) ⟨rfl, rfl⟩)
  exact ⟨_, hrun, rfl, d.due, after ++ [e], ⟨rfl, rfl⟩, by simp⟩

/-- However the threads take their steps, no task runs ahead of one that was received and is due
before it, exactly if the tasks arrive in the order of their deadlines. -/
theorem not_precedes_iff (tasks : List (Deadline τ)) :
    (∀ now s, Reaches { clock := now } s → s.received <+: tasks →
      ∀ d e, s.Precedes d e → d.due ≤ e.due) ↔ Chronological tasks := by
  constructor
  · intro h
    refine chronological_iff_sublist.mpr fun d e hsublist => ?_
    by_contra hlater
    have hearlier := Nat.lt_of_not_le hlater
    obtain ⟨before, rest, rfl, hd, he⟩ := List.cons_sublist_iff.mp hsublist
    obtain ⟨middle, after, rfl⟩ := List.append_of_mem (List.singleton_sublist.mp he)
    have hidle : Idle ({ clock := 0 } : Scheduler τ) := ⟨rfl, rfl⟩
    obtain ⟨s, hs, hs', hclock, hreceived, hkept⟩ :=
      hidle.exists_received (before ++ middle) fun f _ => Nat.zero_le f.due
    have hpending : d ∈ s.runner.pending :=
      hkept d (List.mem_append_right _ (List.mem_append_left _ hd)) (Nat.zero_lt_of_lt hearlier)
    obtain ⟨t, ht, hreceived', hprecedes⟩ :=
      hs'.exists_precedes hpending (hclock ▸ Nat.zero_le e.due) hearlier
    refine hlater (h 0 t (hs.trans ht) ⟨after, ?_⟩ d e hprecedes)
    rw [hreceived', hreceived]
    simp
  · intro htasks now s h hreceived d e hprecedes
    refine Nat.le_of_not_lt fun hearlier => ?_
    obtain ⟨-, -, -, -, -, harrived⟩ := h.precedes hprecedes hearlier
    have hdue := chronological_iff_sublist.mp htasks d e (harrived.trans hreceived.sublist)
    exact Nat.not_le_of_lt hearlier hdue

/-- Two tasks that have both come due by the time the runner wakes up run in the order of their
arrival. -/
theorem overtaken_of_late_waking :
    ∃ s t : Scheduler Nat, Reaches { clock := 0 } s ∧ s.Precedes ⟨20, 1⟩ ⟨10, 2⟩ ∧ s.Reaches t ∧
      t.performed = [⟨⟨20, 1⟩, 20, 20⟩, ⟨⟨10, 2⟩, 20, 20⟩] := by
  have hidle : Idle ({ clock := 0 } : Scheduler Nat) := ⟨rfl, rfl⟩
  have hfirst := (hidle.reaches_woken (d := ⟨20, 1⟩) (Nat.zero_le _)).step (.check ⟨rfl, rfl⟩ rfl)
  have hkept := (hfirst.step (.read ⟨rfl, rfl⟩)).step (.finish 0 ⟨rfl, rfl⟩)
  have hsecond := hkept.trans (Idle.reaches_woken (d := ⟨10, 2⟩) ⟨rfl, rfl⟩ (Nat.zero_le _))
  have hlate := (hsecond.step (.pass 20 (by decide))).step (.check ⟨rfl, rfl⟩ rfl)
  have hread := hlate.step (.read ⟨rfl, rfl⟩)
  exact
    ⟨_, _, hread, ⟨20, [⟨10, 2⟩], ⟨rfl, rfl⟩, List.mem_cons_self⟩,
      reaches_finish 20 _ ⟨rfl, rfl⟩, rfl⟩

end Scheduler

end ProgressDisplay
