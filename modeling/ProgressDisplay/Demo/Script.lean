import ProgressDisplay.Live.Display
import ProgressDisplay.Operations.Gauge

/-!
# A simulated build

The script of a build in three phases: it starts up, configures its projects one after the other,
and runs the tasks of each project on a number of workers. The script is the list of what the build
does to the display, and of the pauses between.

The tasks are taken in order, each by the worker that is free first. What the workers do is put
into one line by the time at which it happens.

* `schedule_tasks`: as long as there is a worker, every task is run.
-/

namespace ProgressDisplay.Demo

inductive Action where
  | event (event : Event)
  | output (requests : List OutputRequest)
  | pause (milliseconds : Nat)
  deriving DecidableEq, Repr

def projects : List String := ["app", "core", "util", "web"]

def taskNames : List String := ["compileJava", "processResources", "classes", "jar", "test"]

/-- The tasks of all projects, in the order in which they are run. -/
def tasks : List String :=
  projects.flatMap fun project => taskNames.map fun task => ":" ++ project ++ ":" ++ task

/-- The operation that stands for the build. -/
def root : OperationId := 1

/-- The build reports how far it is. Its gauges are short, so that there is always room for them. -/
def report (gauge : Gauge) : Action := .event (.progress root gauge.text)

def initialization : List Action :=
  let gauge : Gauge := { activity := Gauge.initializing, total := 1 }
  [.event (.start root none "BUILD" gauge.text), report gauge, .pause 300, report gauge.increment]

/-- The configuration of projects, given the next id and the gauge so far. -/
def configure : List String → OperationId → Gauge → List Action
  | [], _, _ => []
  | project :: rest, id, gauge =>
    [.event (.start id (some root) (":" ++ project) "Configuring"), .pause 150,
      .event (.complete id), report gauge.increment] ++ configure rest (id + 1) gauge.increment

/-! ## Tasks on workers -/

/-- How long the work on a task takes. -/
def duration (task : String) : Nat := 60 + (task.utf8ByteSize * 37) % 240

def isTest (task : String) : Bool := task.endsWith ":test"

/-- The parts of a run of tests. Each takes the same time. -/
def testParts : Nat := 5

/-- How long a task keeps its worker. -/
def occupation (task : String) : Nat :=
  if isTest task then testParts * (duration task / testParts) else duration task

/-- A time put into a list of times, earliest first. -/
def insertTime (time : Nat) : List Nat → List Nat
  | [] => [time]
  | t :: rest => if time ≤ t then time :: t :: rest else t :: insertTime time rest

/-- When each task starts, given when each worker is free, earliest first. -/
def schedule : List Nat → List String → List (Nat × String)
  | free :: others, task :: rest =>
    (free, task) :: schedule (insertTime (free + occupation task) others) rest
  | _, _ => []

theorem insertTime_ne_nil (time : Nat) (times : List Nat) : insertTime time times ≠ [] := by
  cases times with
  | nil => simp [insertTime]
  | cons t rest =>
    simp only [insertTime]
    split <;> simp

theorem schedule_tasks {free : List Nat} (h : free ≠ []) (tasks : List String) :
    (schedule free tasks).map Prod.snd = tasks := by
  induction tasks generalizing free with
  | nil => simp [schedule]
  | cons task rest ih =>
    cases free with
    | nil => exact absurd rfl h
    | cons first others =>
      simp only [schedule, List.map_cons, ih (insertTime_ne_nil _ others)]

/-- A step of a worker. -/
inductive Step where
  | action (action : Action)
  /-- one more task is done -/
  | finished
  deriving DecidableEq, Repr

/-- The run of a test task: the tests report through an operation of their own. -/
def testSteps (task : String) (parent id : OperationId) : List Action :=
  [.event (.start id (some parent) "Executing tests" "")] ++
    (List.range testParts).flatMap (fun i =>
      [.pause (duration task / testParts),
        .event (.progress id (Nat.repr ((i + 1) * 20) ++ " tests completed"))]) ++
    [.event (.complete id)]

/-- The run of a task. -/
def taskSteps (task : String) (id : OperationId) : List Step :=
  let actions :=
    [.event (.start id (some root) task ""),
      .output [.style (.of .header), .text "> Task ", .style (.of .identifier), .line task]] ++
    (if isTest task then testSteps task id (id + 1) else [.pause (duration task)]) ++
    [.event (.complete id)]
  actions.map Step.action ++ [.finished]

/-- The number of operations that a task starts. -/
def operations (task : String) : Nat := if isTest task then 2 else 1

/-- Steps with the times at which they happen, from a time on. -/
def timed : Nat → List Step → List (Nat × Step)
  | _, [] => []
  | now, .action (.pause milliseconds) :: rest => timed (now + milliseconds) rest
  | now, step :: rest => (now, step) :: timed now rest

/-- The steps of all tasks, task by task, given the next id. -/
def timeline : OperationId → List (Nat × String) → List (Nat × Step)
  | _, [] => []
  | id, (start, task) :: rest =>
    timed start (taskSteps task id) ++ timeline (id + operations task) rest

/-- Steps in the order in which they happen, with pauses between, given the gauge so far. -/
def inSequence : Nat → Gauge → List (Nat × Step) → List Action
  | _, _, [] => []
  | now, gauge, (time, step) :: rest =>
    let pause := if now < time then [.pause (time - now)] else []
    match step with
    | .action action => pause ++ action :: inSequence time gauge rest
    | .finished => pause ++ report gauge.increment :: inSequence time gauge.increment rest

/-- The run of tasks on a number of workers, given the next id and the gauge so far. -/
def execute (workers : Nat) (tasks : List String) (id : OperationId) (gauge : Gauge) :
    List Action :=
  inSequence 0 gauge <|
    (timeline id (schedule (List.replicate workers 0) tasks)).mergeSort
      fun a b => decide (a.1 ≤ b.1)

/-- The whole build, with the tasks run on a number of workers. -/
def build (workers : Nat) : List Action :=
  let configuring : Gauge :=
    { activity := Gauge.configuring, total := projects.length }
  let executing : Gauge := { activity := Gauge.executing, total := tasks.length }
  initialization ++ report configuring :: configure projects 2 configuring ++
    report executing :: execute workers tasks (2 + projects.length) executing ++
    [.event (.complete root), .event .endOfOutput]

/-- The last line of output: how the build ended and how many seconds it took. -/
def outcome (failed : Bool) (seconds : String) : List OutputRequest :=
  [.style (.of (if failed then .failure else .success)),
    .text (if failed then "BUILD FAILED" else "BUILD SUCCESSFUL"),
    .style .normal, .line (" in " ++ seconds ++ "s")]

end ProgressDisplay.Demo
