/-!
# The runner of delayed tasks

A runner carries out tasks once their deadlines have come. Others send it tasks, or the order to
stop, through a channel. In each turn it receives one message, or wakes up at the earliest
deadline, and then runs what is due, in the order in which the tasks arrived.

* `mem_run_or_later`: a task that a runner looks at runs now or is kept.
* `due_of_mem_run`: what runs had been received and is due.
-/

namespace ProgressDisplay

/-- A task with the clock's reading at which it is due. -/
structure Deadline (τ : Type) where
  due : Nat
  task : τ
  deriving DecidableEq, Repr

inductive Message (τ : Type) where
  | schedule (deadline : Deadline τ)
  | shutdown
  deriving DecidableEq, Repr

structure Runner (τ : Type) where
  /-- messages that were sent and not received -/
  channel : List (Message τ) := []
  /-- tasks that were received and have not run, in the order of their arrival -/
  pending : List (Deadline τ) := []
  /-- cleared by a shutdown -/
  running : Bool := true
  /-- whether the runner has left its loop -/
  gone : Bool := false
  deriving DecidableEq, Repr

namespace Runner

variable {τ : Type}

/-- Sends a task that is due after a delay, unless the runner was shut down. -/
def schedule (r : Runner τ) (now delay : Nat) (task : τ) : Runner τ :=
  if r.running then { r with channel := r.channel ++ [.schedule ⟨now + delay, task⟩] } else r

/-- Clears the running flag and tells the runner to stop. -/
def shutdown (r : Runner τ) : Runner τ :=
  if r.running then { r with running := false, channel := r.channel ++ [.shutdown] } else r

/-- The earliest deadline of the tasks kept. -/
def wakeUp (r : Runner τ) : Option Nat := (r.pending.map Deadline.due).min?

/-- The tasks that have come due, in the order of their arrival. -/
def dueAt (r : Runner τ) (now : Nat) : List (Deadline τ) :=
  r.pending.filter fun d => decide (d.due ≤ now)

/-- Whether there is a message to receive, or the earliest deadline has come. -/
def awake (r : Runner τ) (now : Nat) : Bool :=
  !r.channel.isEmpty || r.wakeUp.any fun due => decide (due ≤ now)

/-- Leaves the loop and drops the tasks that were kept. -/
def leave (r : Runner τ) : Runner τ := { r with gone := true, pending := [] }

/-- Receives the next message, if there is one. -/
def receive (r : Runner τ) : Runner τ :=
  match r.channel with
  | .schedule d :: rest => { r with channel := rest, pending := r.pending ++ [d] }
  | .shutdown :: rest => { r with channel := rest }.leave
  | [] => r

/-- Runs what is due, unless the running flag is cleared. -/
def runDue (r : Runner τ) (now : Nat) : Runner τ × List τ :=
  if r.gone then (r, [])
  else if r.running then
    ({ r with pending := r.pending.filter fun d => !decide (d.due ≤ now) },
      (r.dueAt now).map Deadline.task)
  else (r.leave, [])

/-- One turn of the loop at a reading of the clock. A runner that is not awake goes on sleeping. -/
def turn (r : Runner τ) (now : Nat) : Runner τ × List τ :=
  if r.gone || !r.awake now then (r, []) else r.receive.runDue now

/-- A number of turns at one reading of the clock. -/
def turns (now : Nat) : Nat → Runner τ → Runner τ × List τ
  | 0, r => (r, [])
  | n + 1, r =>
    let first := r.turn now
    let rest := turns now n first.1
    (rest.1, first.2 ++ rest.2)

/-- As many turns as it takes to receive all messages and to run what is due. -/
def settle (r : Runner τ) (now : Nat) : Runner τ × List τ := turns now (r.channel.length + 1) r

theorem mem_run_or_later {r : Runner τ} (hg : r.gone = false) (hr : r.running = true) {now : Nat}
    {d : Deadline τ} (hd : d ∈ r.pending) :
    d.task ∈ (r.runDue now).2 ∨ d ∈ (r.runDue now).1.pending := by
  by_cases hdue : d.due ≤ now
  · refine Or.inl ?_
    simp only [runDue, hg, hr, if_true, Bool.false_eq_true, if_false, dueAt, List.mem_map,
      List.mem_filter, decide_eq_true_eq]
    exact ⟨d, ⟨hd, hdue⟩, rfl⟩
  · refine Or.inr ?_
    simp only [runDue, hg, hr, if_true, Bool.false_eq_true, if_false, List.mem_filter]
    exact ⟨hd, by simp [hdue]⟩

theorem due_of_mem_run {r : Runner τ} {now : Nat} {t : τ} (h : t ∈ (r.runDue now).2) :
    ∃ d ∈ r.pending, d.due ≤ now ∧ d.task = t := by
  unfold runDue at h
  split at h
  · cases h
  · split at h
    · simp only [dueAt, List.mem_map, List.mem_filter, decide_eq_true_eq] at h
      obtain ⟨d, ⟨hd, hdue⟩, rfl⟩ := h
      exact ⟨d, hd, hdue, rfl⟩
    · cases h

end Runner

end ProgressDisplay
