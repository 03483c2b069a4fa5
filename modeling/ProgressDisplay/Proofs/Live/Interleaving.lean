import Mathlib.Data.List.Perm.Basic
import Mathlib.Logic.Relation
import ProgressDisplay.Live.Runner

/-!
# A runner among the calls of others

Other threads call a runner while it works, and each step they take may fall between any two of its
own. A call to send a task looks at the running flag, reads the clock and sends, and a turn of the
runner receives, looks at the flag, reads the clock and runs what is due, one task after the other.

* `Step`: one step of one of the threads, or of the clock.
* `reaches_schedule`, `reaches_shutdown`, `runs_turn`: a call or a turn that no other thread
  disturbs is the call or the turn of the runner by itself.
-/

namespace ProgressDisplay

variable {τ : Type}

def Message.deadline? : Message τ → Option (Deadline τ)
  | schedule deadline => some deadline
  | shutdown => none

/-- A call to the runner that has not returned. -/
inductive Call (τ : Type) where
  /-- has found the running flag set -/
  | admitted (delay : Nat) (task : τ)
  /-- has read the clock -/
  | dated (deadline : Deadline τ)
  /-- has cleared the running flag -/
  | stopping
  deriving DecidableEq, Repr

/-- Where the runner is in its turn. -/
inductive Stage (τ : Type) where
  /-- for a message or the earliest deadline -/
  | waiting
  /-- has yet to look at the running flag -/
  | woken
  /-- has found the running flag set and has yet to read the clock -/
  | checked
  /-- runs what was due when it read the clock, of which these tasks are left -/
  | running (reading : Nat) (due : List (Deadline τ))
  deriving DecidableEq, Repr

/-- The tasks that the runner has yet to run before its turn ends. -/
def Stage.due : Stage τ → List (Deadline τ)
  | running _ due => due
  | waiting | woken | checked => []

/-- A task that was run, with the reading of the clock by which it was due and that at its start. -/
structure Performance (τ : Type) where
  deadline : Deadline τ
  reading : Nat
  start : Nat
  deriving DecidableEq, Repr

/-- A runner and the threads that call it. -/
structure Scheduler (τ : Type) where
  runner : Runner τ := {}
  clock : Nat
  calls : List (Call τ) := []
  /-- whether those who could send are gone -/
  closed : Bool := false
  stage : Stage τ := .waiting
  /-- the tasks that were sent while the running flag was set -/
  sent : List (Deadline τ) := []
  /-- the tasks that were sent after it was cleared -/
  late : List (Deadline τ) := []
  /-- the tasks that the runner has received -/
  received : List (Deadline τ) := []
  performed : List (Performance τ) := []
  /-- the clock as the runner read it in its last turn -/
  reading : Option Nat := none
  deriving DecidableEq, Repr

namespace Runner

/-- The tasks that were sent and not received. -/
def unread (r : Runner τ) : List (Deadline τ) := r.channel.filterMap Message.deadline?

def send (r : Runner τ) (message : Message τ) : Runner τ :=
  { r with channel := r.channel ++ [message] }

/-- Drops the tasks that have come due. -/
def dropDue (r : Runner τ) (now : Nat) : Runner τ :=
  { r with pending := r.pending.filter fun d => !decide (d.due ≤ now) }

theorem runDue_of_running {r : Runner τ} (hgone : r.gone = false) (hrunning : r.running = true)
    (now : Nat) : r.runDue now = (r.dropDue now, (r.dueAt now).map Deadline.task) := by
  simp only [runDue, hgone, hrunning, Bool.false_eq_true, if_false, if_true, dropDue]

theorem runDue_of_stopped {r : Runner τ} (hgone : r.gone = false) (hrunning : r.running = false)
    (now : Nat) : r.runDue now = (r.leave, []) := by
  simp only [runDue, hgone, hrunning, Bool.false_eq_true, if_false]

theorem runDue_of_gone {r : Runner τ} (hgone : r.gone = true) (now : Nat) :
    r.runDue now = (r, []) := by
  simp only [runDue, hgone, if_true]

theorem unread_send (r : Runner τ) (message : Message τ) :
    (r.send message).unread = r.unread ++ message.deadline?.toList := by
  cases message <;> simp [unread, send, Message.deadline?]

theorem unread_receive {r : Runner τ} {message : Message τ} {rest : List (Message τ)}
    (hchannel : r.channel = message :: rest) :
    message.deadline?.toList ++ r.receive.unread = r.unread := by
  cases message <;>
    simp [receive, unread, leave, hchannel, Message.deadline?, List.filterMap_cons]

theorem pending_receive {r : Runner τ} {message : Message τ} {rest : List (Message τ)}
    (hchannel : r.channel = message :: rest) (hgone : r.receive.gone = false) :
    r.receive.pending = r.pending ++ message.deadline?.toList := by
  cases message with
  | schedule d => simp only [receive, hchannel, Message.deadline?, Option.toList]
  | shutdown => simp [receive, leave, hchannel] at hgone

theorem running_receive (r : Runner τ) : r.receive.running = r.running := by
  unfold receive
  split <;> rfl

/-- What is due and what is kept are all that was pending. -/
theorem dueAt_append_dropDue (r : Runner τ) (now : Nat) :
    (r.dueAt now ++ (r.dropDue now).pending).Perm r.pending :=
  List.filter_append_perm _ r.pending

end Runner

namespace Scheduler

/-- The runner has come to this stage of a turn and has not left its loop. -/
def At (s : Scheduler τ) (stage : Stage τ) : Prop := s.stage = stage ∧ s.runner.gone = false

/-- The task has been sent, which is too late once the running flag is cleared. -/
def record (s : Scheduler τ) (d : Deadline τ) : Scheduler τ :=
  if s.runner.running then { s with sent := s.sent ++ [d] } else { s with late := s.late ++ [d] }

/-- One step of a thread that calls, of the runner, or of the clock. -/
inductive Step (s : Scheduler τ) : Scheduler τ → Prop where
  | pass (now : Nat) (hclock : s.clock ≤ now) : Step s { s with clock := now }
  | call (delay : Nat) (task : τ) (hrunning : s.runner.running = true) :
      Step s { s with calls := s.calls ++ [.admitted delay task] }
  | date (before after : List (Call τ)) (delay : Nat) (task : τ)
      (hcalls : s.calls = before ++ .admitted delay task :: after) :
      Step s { s with calls := before ++ .dated ⟨s.clock + delay, task⟩ :: after }
  | send (before after : List (Call τ)) (d : Deadline τ)
      (hcalls : s.calls = before ++ .dated d :: after) :
      Step s { s.record d with runner := s.runner.send (.schedule d), calls := before ++ after }
  | clear (hrunning : s.runner.running = true) :
      Step s
        { s with runner := { s.runner with running := false }, calls := s.calls ++ [.stopping] }
  | stop (before after : List (Call τ)) (hcalls : s.calls = before ++ .stopping :: after) :
      Step s { s with runner := s.runner.send .shutdown, calls := before ++ after }
  -- what holds the sending end shuts the runner down before it drops that end
  | close (hrunning : s.runner.running = false) (hcalls : s.calls = []) :
      Step s { s with closed := true }
  | receive (message : Message τ) (rest : List (Message τ)) (hat : s.At .waiting)
      (hchannel : s.runner.channel = message :: rest) :
      Step s
        { s with
          runner := s.runner.receive
          stage := .woken
          received := s.received ++ message.deadline?.toList }
  | wake (due : Nat) (hat : s.At .waiting) (hdue : s.runner.wakeUp = some due)
      (hclock : due ≤ s.clock) : Step s { s with stage := .woken }
  | disconnect (hat : s.At .waiting) (hchannel : s.runner.channel = [])
      (hclosed : s.closed = true) : Step s { s with runner := s.runner.leave }
  | check (hat : s.At .woken) (hrunning : s.runner.running = true) :
      Step s { s with stage := .checked }
  | quit (hat : s.At .woken) (hrunning : s.runner.running = false) :
      Step s { s with runner := s.runner.leave }
  | read (hat : s.At .checked) :
      Step s
        { s with
          runner := s.runner.dropDue s.clock
          stage := .running s.clock (s.runner.dueAt s.clock)
          reading := some s.clock }
  | perform (reading : Nat) (d : Deadline τ) (rest : List (Deadline τ))
      (hat : s.At (.running reading (d :: rest))) :
      Step s
        { s with
          stage := .running reading rest
          performed := s.performed ++ [⟨d, reading, s.clock⟩] }
  | finish (reading : Nat) (hat : s.At (.running reading [])) : Step s { s with stage := .waiting }

/-- What may become of the threads and the clock. -/
def Reaches : Scheduler τ → Scheduler τ → Prop := Relation.ReflTransGen Step

variable {s t u : Scheduler τ}

theorem Step.reaches (h : Step s t) : s.Reaches t := .single h

theorem Reaches.trans (h : s.Reaches t) (h' : t.Reaches u) : s.Reaches u :=
  Relation.ReflTransGen.trans h h'

theorem Reaches.step (h : s.Reaches t) (h' : Step t u) : s.Reaches u :=
  Relation.ReflTransGen.tail h h'

/-! ## Calls and turns that nothing disturbs -/

/-- A call that finds the running flag set sends its task. -/
theorem reaches_schedule (hrunning : s.runner.running = true) (delay : Nat) (task : τ) :
    s.Reaches
      { s with
        runner := s.runner.schedule s.clock delay task
        sent := s.sent ++ [⟨s.clock + delay, task⟩] } := by
  have hdate := (Step.call delay task hrunning).reaches.step (.date s.calls [] delay task rfl)
  have hsend := hdate.step (.send s.calls [] _ rfl)
  simpa only [record, hrunning, if_true, List.append_nil, Runner.send, Runner.schedule] using hsend

theorem reaches_shutdown (s : Scheduler τ) :
    s.Reaches { s with runner := s.runner.shutdown } := by
  by_cases hrunning : s.runner.running = true
  · have hstop := (Step.clear hrunning).reaches.step (.stop s.calls [] rfl)
    simpa only [List.append_nil, Runner.send, Runner.shutdown, hrunning, if_true] using hstop
  · rw [Runner.shutdown, if_neg hrunning]
    exact .refl

/-- The runner gets by its own steps to where a function takes it that runs these tasks. -/
def Runs (s : Scheduler τ) (outcome : Runner τ × List τ) : Prop :=
  ∃ t, s.Reaches t ∧ t.runner = outcome.1 ∧ (outcome.1.gone = false → t.stage = .waiting) ∧
    ∃ due : List (Deadline τ), due.map Deadline.task = outcome.2 ∧
      t.performed = s.performed ++ due.map fun d => ⟨d, s.clock, s.clock⟩

/-- Tasks at the head of what is due are run one after the other. -/
theorem reaches_perform (reading : Nat) (due rest : List (Deadline τ))
    (hat : s.At (.running reading (due ++ rest))) :
    s.Reaches
      { s with
        stage := .running reading rest
        performed := s.performed ++ due.map fun d => ⟨d, reading, s.clock⟩ } := by
  induction due generalizing s with
  | nil =>
    obtain ⟨hstage, -⟩ := hat
    rw [List.nil_append] at hstage
    rw [List.map_nil, List.append_nil, ← hstage]
    exact .refl
  | cons d due ih =>
    have hrest := ih (s := { s with
      stage := .running reading (due ++ rest)
      performed := s.performed ++ [⟨d, reading, s.clock⟩] }) ⟨rfl, hat.2⟩
    simp only [List.append_assoc, List.singleton_append] at hrest
    exact (Step.perform reading d (due ++ rest) hat).reaches.trans hrest

theorem reaches_finish (reading : Nat) (due : List (Deadline τ))
    (hat : s.At (.running reading due)) :
    s.Reaches
      { s with
        stage := .waiting
        performed := s.performed ++ due.map fun d => ⟨d, reading, s.clock⟩ } := by
  rw [← List.append_nil due] at hat
  exact (reaches_perform reading due [] hat).step (.finish reading ⟨rfl, hat.2⟩)

theorem runs_runDue (hat : s.At .woken) : s.Runs (s.runner.runDue s.clock) := by
  cases hrunning : s.runner.running with
  | false =>
    rw [Runner.runDue_of_stopped hat.2 hrunning]
    refine ⟨_, (Step.quit hat hrunning).reaches, rfl, nofun, [], rfl, ?_⟩
    exact (List.append_nil _).symm
  | true =>
    rw [Runner.runDue_of_running hat.2 hrunning]
    have hread := (Step.check hat hrunning).reaches.step (.read ⟨rfl, hat.2⟩)
    exact ⟨_, hread.trans (reaches_finish s.clock _ ⟨rfl, hat.2⟩), rfl, fun _ => rfl, _, rfl, rfl⟩

theorem Runs.of_reaches {outcome : Runner τ × List τ} (h : s.Reaches t)
    (hclock : t.clock = s.clock) (hperformed : t.performed = s.performed)
    (hruns : t.Runs outcome) : s.Runs outcome := by
  obtain ⟨u, hreaches, hrest⟩ := hruns
  rw [hclock, hperformed] at hrest
  exact ⟨u, h.trans hreaches, hrest⟩

theorem runs_turn (hat : s.At .waiting) (hawake : s.runner.awake s.clock = true) :
    s.Runs (s.runner.turn s.clock) := by
  have hturn : s.runner.turn s.clock = s.runner.receive.runDue s.clock := by
    simp only [Runner.turn, hat.2, hawake, Bool.not_true, Bool.or_self, Bool.false_eq_true,
      if_false]
  rw [hturn]
  cases hchannel : s.runner.channel with
  | cons message rest =>
    have hreceive := (Step.receive message rest hat hchannel).reaches
    cases hgone : s.runner.receive.gone with
    | false => exact .of_reaches hreceive rfl rfl (runs_runDue ⟨rfl, hgone⟩)
    | true =>
      rw [Runner.runDue_of_gone hgone]
      refine ⟨_, hreceive, rfl, fun h => ?_, [], rfl, (List.append_nil _).symm⟩
      rw [hgone] at h
      cases h
  | nil =>
    have hreceive : s.runner.receive = s.runner := by
      simp only [Runner.receive, hchannel]
    rw [hreceive]
    obtain ⟨due, hdue, hclock⟩ : ∃ due, s.runner.wakeUp = some due ∧ due ≤ s.clock := by
      simpa [Runner.awake, hchannel, Option.any_eq_true] using hawake
    exact .of_reaches (Step.wake due hat hdue hclock).reaches rfl rfl (runs_runDue ⟨rfl, hat.2⟩)

end Scheduler

end ProgressDisplay
