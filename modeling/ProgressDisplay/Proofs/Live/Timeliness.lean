import Mathlib.Data.List.Perm.Subperm
import ProgressDisplay.Proofs.Live.Interleaving

/-!
# No task early, twice or lost

Whatever the threads do in between, the tasks that a runner has received are those it has run and
those it keeps, and the tasks that it keeps after a turn were not due when it read the clock. Once
the running flag is cleared, the tasks of the turn that has looked at it before are the last.

* `Accounted`: where the tasks are that were sent, which holds after every step.
* `Timed`: what the deadlines of the tasks are to the readings of the clock.
* `Step.halted`: a turn that starts its check after the flag was cleared runs nothing.
* `performed_timely`: all of it about what the threads can come to.
-/

namespace ProgressDisplay.Scheduler

variable {τ : Type} {s t : Scheduler τ}

/-! ## Where the tasks are -/

/-- The tasks that were run or are to be run before the turn ends. -/
def begun (s : Scheduler τ) : List (Deadline τ) :=
  s.performed.map Performance.deadline ++ s.stage.due

structure Accounted (s : Scheduler τ) : Prop where
  sequence : s.received ++ s.runner.unread = s.sent ++ s.late
  late : s.runner.running = true → s.late = []
  kept : s.runner.gone = false → s.received.Perm (s.begun ++ s.runner.pending)
  -- between a message and the check behind it a task may have come in that was sent too late
  early : s.stage ≠ .woken → s.runner.gone = false → s.received <+: s.sent
  once : s.begun.Subperm s.sent

/-- A turn goes on without any other tasks to be run than before. -/
theorem Accounted.goOn (h : Accounted s) {stage : Stage τ} {performed : List (Performance τ)}
    (hbegun : performed.map Performance.deadline ++ stage.due = s.begun)
    (hearly : stage ≠ .woken → s.runner.gone = false → s.received <+: s.sent) :
    Accounted { s with stage := stage, performed := performed } where
  sequence := h.sequence
  late := h.late
  kept := by
    rw [begun, hbegun]
    exact h.kept
  early := hearly
  once := by
    rw [begun, hbegun]
    exact h.once

theorem Accounted.send (h : Accounted s) (d : Deadline τ) (calls : List (Call τ)) :
    Accounted { s.record d with runner := s.runner.send (.schedule d), calls := calls } := by
  cases hrunning : s.runner.running with
  | true =>
    have hprefix : s.sent <+: s.sent ++ [d] := List.prefix_append ..
    simp only [record, hrunning, if_true]
    exact
      { sequence := by
          rw [Runner.unread_send, ← List.append_assoc, h.sequence, h.late hrunning, List.append_nil,
            List.append_nil]
          rfl
        late := fun _ => h.late hrunning
        kept := h.kept
        early := fun hstage hgone => (h.early hstage hgone).trans hprefix
        once := h.once.trans hprefix.sublist.subperm }
  | false =>
    simp only [record, hrunning, Bool.false_eq_true, if_false]
    exact
      { h with
        sequence := by
          simp only [Runner.unread_send, ← List.append_assoc, h.sequence]
          rfl
        late := fun hrunning' => by simp [Runner.send, hrunning] at hrunning' }

theorem Accounted.receive (h : Accounted s) (hat : s.At .waiting) {message : Message τ}
    {rest : List (Message τ)} (hchannel : s.runner.channel = message :: rest) :
    Accounted
      { s with
        runner := s.runner.receive
        stage := .woken
        received := s.received ++ message.deadline?.toList } where
  sequence := by
    rw [List.append_assoc, Runner.unread_receive hchannel]
    exact h.sequence
  late := by
    rw [Runner.running_receive]
    exact h.late
  kept hgone := by
    rw [Runner.pending_receive hchannel hgone, ← List.append_assoc]
    have hkept := h.kept hat.2
    rw [begun, hat.1] at hkept
    exact hkept.append_right _
  early hstage := absurd rfl hstage
  once := by
    have honce := h.once
    rwa [begun, hat.1] at honce

theorem Accounted.read (h : Accounted s) (hat : s.At .checked) :
    Accounted
      { s with
        runner := s.runner.dropDue s.clock
        stage := .running s.clock (s.runner.dueAt s.clock)
        reading := some s.clock } := by
  have hkept := h.kept hat.2
  rw [begun, hat.1, Stage.due, List.append_nil] at hkept
  have hsplit := hkept.trans ((Runner.dueAt_append_dropDue s.runner s.clock).symm.append_left _)
  rw [← List.append_assoc] at hsplit
  have hearly := h.early (by simp [hat.1]) hat.2
  exact
    { h with
      kept := fun _ => hsplit
      early := fun _ => h.early (by simp [hat.1])
      once := (List.sublist_append_left _ _).subperm.trans
        (hsplit.symm.subperm.trans hearly.sublist.subperm) }

theorem Accounted.step (h : Accounted s) (hstep : Step s t) : Accounted t := by
  cases hstep with
  | pass | call | date | close => exact { h with }
  | send before after d => exact h.send d _
  | clear => exact { h with late := fun hrunning => absurd hrunning Bool.false_ne_true }
  | stop =>
    exact
      { h with
        sequence := by
          rw [Runner.unread_send]
          simpa [Message.deadline?] using h.sequence }
  | receive message rest hat hchannel => exact h.receive hat hchannel
  | wake due hat => exact h.goOn (by rw [begun, hat.1]; rfl) fun hstage => absurd rfl hstage
  | disconnect | quit =>
    have hleft : s.runner.leave.gone ≠ false := Bool.false_ne_true.symm
    exact
      { h with
        kept := fun hgone => absurd hgone hleft
        early := fun _ hgone => absurd hgone hleft }
  | check hat hrunning =>
    -- nothing was sent too late while the flag is still set
    have hsequence := h.sequence
    rw [h.late hrunning, List.append_nil] at hsequence
    exact h.goOn (by rw [begun, hat.1]; rfl) fun _ _ => ⟨_, hsequence⟩
  | read hat => exact h.read hat
  | perform reading d rest hat =>
    refine h.goOn ?_ fun _ => h.early (by simp [hat.1])
    simp only [begun, hat.1, Stage.due, List.map_append, List.map_cons, List.map_nil,
      List.append_assoc, List.singleton_append]
  | finish reading hat =>
    exact h.goOn (by rw [begun, hat.1]; rfl) fun _ => h.early (by simp [hat.1])

theorem Reaches.accounted {now : Nat} (h : Reaches { clock := now } s) : Accounted s := by
  induction h with
  | refl =>
    exact
      { sequence := rfl
        late := fun _ => rfl
        kept := fun _ => .refl _
        early := fun _ _ => List.prefix_refl _
        once := .refl _ }
  | tail _ hstep ih => exact ih.step hstep

/-! ## Deadlines and readings of the clock -/

/-- The runner has sorted out what was due when it last read the clock. -/
def Sorted (s : Scheduler τ) : Prop :=
  s.stage = .waiting ∨ ∃ reading due, s.stage = .running reading due

structure Timed (s : Scheduler τ) : Prop where
  performed : ∀ p ∈ s.performed, p.deadline.due ≤ p.reading ∧ p.reading ≤ p.start
  due : ∀ reading due, s.stage = .running reading due →
    reading ≤ s.clock ∧ ∀ d ∈ due, d.due ≤ reading
  pending : s.Sorted → s.runner.gone = false →
    ∀ d ∈ s.runner.pending, ∃ reading, s.reading = some reading ∧ reading < d.due

theorem not_sorted {stage : Stage τ} (hstage : s.stage = stage)
    (h : stage = .woken ∨ stage = .checked) : ¬ s.Sorted := by
  rintro (hsorted | ⟨reading, due, hsorted⟩) <;>
    obtain rfl | rfl := h <;> rw [hstage] at hsorted <;> cases hsorted

theorem Timed.read (h : Timed s) :
    Timed
      { s with
        runner := s.runner.dropDue s.clock
        stage := .running s.clock (s.runner.dueAt s.clock)
        reading := some s.clock } where
  performed := h.performed
  due := by
    rintro reading due hstage
    obtain ⟨rfl, rfl⟩ := Stage.running.inj hstage
    exact ⟨Nat.le_refl _, fun d hd => of_decide_eq_true (List.mem_filter.mp hd).2⟩
  pending := by
    intro _ _ d hd
    have hlater := (List.mem_filter.mp hd).2
    simp only [Bool.not_eq_true', decide_eq_false_iff_not] at hlater
    exact ⟨s.clock, rfl, Nat.lt_of_not_le hlater⟩

theorem Timed.perform (h : Timed s) {reading : Nat} {d : Deadline τ} {rest : List (Deadline τ)}
    (hat : s.At (.running reading (d :: rest))) :
    Timed
      { s with
        stage := .running reading rest
        performed := s.performed ++ [⟨d, reading, s.clock⟩] } where
  performed := by
    obtain ⟨hclock, hdue⟩ := h.due _ _ hat.1
    intro p hp
    rcases List.mem_append.mp hp with hbefore | hnow
    · exact h.performed p hbefore
    · obtain rfl := List.mem_singleton.mp hnow
      exact ⟨hdue d List.mem_cons_self, hclock⟩
  due := by
    rintro reading due hstage
    obtain ⟨rfl, rfl⟩ := Stage.running.inj hstage
    obtain ⟨hclock, hdue⟩ := h.due _ _ hat.1
    exact ⟨hclock, fun e he => hdue e (List.mem_cons_of_mem _ he)⟩
  pending _ := h.pending (.inr ⟨_, _, hat.1⟩)

theorem Timed.step (h : Timed s) (hstep : Step s t) : Timed t := by
  cases hstep with
  | pass now hclock =>
    exact
      { h with
        due := fun reading due hstage =>
          ⟨Nat.le_trans (h.due reading due hstage).1 hclock, (h.due reading due hstage).2⟩ }
  | call | date | clear | stop | close => exact { h with }
  | send before after d =>
    unfold record
    split <;> exact { h with }
  | receive | wake =>
    exact
      { h with
        due := nofun
        pending := fun hsorted => absurd hsorted (not_sorted rfl (.inl rfl)) }
  | disconnect | quit => exact { h with pending := fun _ => nofun }
  | check =>
    exact
      { h with
        due := nofun
        pending := fun hsorted => absurd hsorted (not_sorted rfl (.inr rfl)) }
  | read => exact h.read
  | perform reading d rest hat => exact h.perform hat
  | finish reading hat =>
    exact { h with due := nofun, pending := fun _ => h.pending (.inr ⟨_, _, hat.1⟩) }

theorem Reaches.timed {now : Nat} (h : Reaches { clock := now } s) : Timed s := by
  induction h with
  | refl => exact ⟨nofun, nofun, fun _ _ => nofun⟩
  | tail _ hstep ih => exact ih.step hstep

/-! ## After the shutdown -/

/-- The running flag is cleared before the runner looks at it. -/
def Halted (s : Scheduler τ) : Prop :=
  s.runner.running = false ∧ (s.stage = .waiting ∨ s.stage = .woken)

theorem Step.halted (hstep : Step s t) (h : s.Halted) :
    t.Halted ∧ t.performed = s.performed := by
  obtain ⟨hrunning, hstage⟩ := h
  cases hstep with
  | pass | date | stop | close | disconnect | quit => exact ⟨⟨hrunning, hstage⟩, rfl⟩
  | send =>
    unfold record
    split <;> exact ⟨⟨hrunning, hstage⟩, rfl⟩
  | call _ _ hset | clear hset | check _ hset =>
    rw [hrunning] at hset
    cases hset
  | receive => exact ⟨⟨(Runner.running_receive s.runner).trans hrunning, .inr rfl⟩, rfl⟩
  | wake => exact ⟨⟨hrunning, .inr rfl⟩, rfl⟩
  | read hat | perform _ _ _ hat | finish _ hat =>
    rcases hstage with hstage | hstage <;> rw [hat.1] at hstage <;> cases hstage

theorem Reaches.halted (h : s.Reaches t) (hhalted : s.Halted) :
    t.Halted ∧ t.performed = s.performed := by
  induction h with
  | refl => exact ⟨hhalted, rfl⟩
  | tail _ hstep ih =>
    obtain ⟨hnext, hperformed⟩ := hstep.halted ih.1
    exact ⟨hnext, hperformed.trans ih.2⟩

/-! ## Every order of the steps -/

/-- Of tasks that are all different, none is run twice, and none that was sent too late is run. -/
theorem once_of_different {run sent late : List (Deadline τ)} (hrun : run.Subperm sent)
    (hdifferent : ((sent ++ late).map Deadline.task).Nodup) :
    (run.map Deadline.task).Nodup ∧ ∀ d ∈ late, ∀ e ∈ run, e.task ≠ d.task := by
  rw [List.map_append] at hdifferent
  obtain ⟨hsent, -, hapart⟩ := List.nodup_append.mp hdifferent
  obtain ⟨others, hothers, hsublist⟩ := hrun
  constructor
  · have hnodup := (hsublist.map Deadline.task).nodup hsent
    exact (hothers.map Deadline.task).nodup_iff.mp hnodup
  · intro d hd e he
    have hsent := hsublist.subset (hothers.mem_iff.mpr he)
    exact hapart _ (List.mem_map_of_mem hsent) _ (List.mem_map_of_mem hd)

/-- Whatever the order in which the threads take their steps: tasks are received in the order in
which they were sent, a task is run at most once and not before it is due, none that was sent after
the running flag was cleared is run, what was received by the end of a turn was run or is kept until
after the turn's reading of the clock, and a runner that has yet to look at a cleared flag runs
nothing any more. -/
theorem performed_timely {now : Nat} (h : Reaches { clock := now } s) :
    s.received ++ s.runner.unread = s.sent ++ s.late ∧
    (s.performed.map Performance.deadline).Subperm s.sent ∧
    (((s.sent ++ s.late).map Deadline.task).Nodup →
      (s.performed.map fun p => p.deadline.task).Nodup ∧
        ∀ d ∈ s.late, ∀ p ∈ s.performed, p.deadline.task ≠ d.task) ∧
    (∀ p ∈ s.performed, p.deadline.due ≤ p.reading ∧ p.reading ≤ p.start) ∧
    (s.At .waiting →
      s.received.Perm (s.performed.map Performance.deadline ++ s.runner.pending) ∧
        ∀ d ∈ s.runner.pending, ∃ reading, s.reading = some reading ∧ reading < d.due) ∧
    (s.Halted → ∀ t, s.Reaches t → t.performed = s.performed) := by
  have haccounted := h.accounted
  have htimed := h.timed
  have honce : (s.performed.map Performance.deadline).Subperm s.sent :=
    (List.sublist_append_left _ _).subperm.trans haccounted.once
  refine ⟨haccounted.sequence, honce, fun hdifferent => ?_, htimed.performed, fun hat => ?_,
    fun hhalted t ht => (ht.halted hhalted).2⟩
  · obtain ⟨htasks, hlate⟩ := once_of_different honce hdifferent
    rw [List.map_map] at htasks
    exact ⟨htasks, fun d hd p hp => hlate d hd _ (List.mem_map_of_mem hp)⟩
  · have hkept := haccounted.kept hat.2
    rw [begun, hat.1, Stage.due, List.append_nil] at hkept
    exact ⟨hkept, htimed.pending (.inl hat.1) hat.2⟩

/-- A task that is overdue when the flag is cleared is run, one that is sent then is not. -/
theorem performed_timely_of_shutdown :
    ∃ s : Scheduler Nat, Reaches { clock := 0 } s ∧ s.performed = [⟨⟨5, 1⟩, 7, 9⟩] ∧
      s.received = [⟨5, 1⟩, ⟨8, 2⟩] ∧
      (s.performed.map fun p => p.deadline.task).Nodup ∧
      ∀ t, s.Reaches t → t.performed = s.performed := by
  have hscheduled := reaches_schedule (s := ({ clock := 0 } : Scheduler Nat)) rfl 5 1
  have hreceived := (hscheduled.step (.receive _ _ ⟨rfl, rfl⟩ rfl)).step (.check ⟨rfl, rfl⟩ rfl)
  have hwaiting := (hreceived.step (.read ⟨rfl, rfl⟩)).step (.finish 0 ⟨rfl, rfl⟩)
  have hwoken := (hwaiting.step (.pass 7 (by decide))).step (.wake 5 ⟨rfl, rfl⟩ rfl (by decide))
  have hread := (hwoken.step (.check ⟨rfl, rfl⟩ rfl)).step (.read ⟨rfl, rfl⟩)
  have hdated := (hread.step (.call 1 2 rfl)).step (.date [] [] 1 2 rfl)
  have hlate := (hdated.step (.clear rfl)).step (.send [] [.stopping] _ rfl)
  have hrun := (hlate.step (.pass 9 (by decide))).step (.perform 7 _ [] ⟨rfl, rfl⟩)
  have hfinished := (hrun.step (.finish 7 ⟨rfl, rfl⟩)).step (.receive _ _ ⟨rfl, rfl⟩ rfl)
  obtain ⟨-, -, hdifferent, -, -, hhalted⟩ := performed_timely hfinished
  exact ⟨_, hfinished, rfl, rfl, (hdifferent (by decide)).1, hhalted ⟨rfl, .inr rfl⟩⟩

end ProgressDisplay.Scheduler
