/-!
# Operations that may stop half way

Some operations take several steps, and what the steps before a failing one have done stays done.
An `Attempt` is the state that was reached together with the failure that ended it, if any.

* `andThen_failure_none_iff`: a sequence succeeds exactly if both of its parts do.
-/

namespace ProgressDisplay

structure Attempt (ε σ : Type) where
  state : σ
  failure : Option ε := none

namespace Attempt

variable {ε σ τ α : Type}

/-- A success that ends in a state. -/
def done (state : σ) : Attempt ε σ := { state }

/-- Goes on from the state reached, unless there was a failure. -/
def andThen (a : Attempt ε σ) (next : σ → Attempt ε σ) : Attempt ε σ :=
  match a.failure with
  | none => next a.state
  | some _ => a

/-- The attempt as part of a larger state. -/
def map (a : Attempt ε σ) (f : σ → τ) : Attempt ε τ := ⟨f a.state, a.failure⟩

/-- The attempt with its failure seen as one of a larger kind. -/
def mapFailure {ε' : Type} (a : Attempt ε σ) (f : ε → ε') : Attempt ε' σ :=
  ⟨a.state, a.failure.map f⟩

/-- One operation that leaves `before` as it is where it fails. -/
def ofExcept (before : σ) (result : Except ε τ) (after : τ → σ) : Attempt ε σ :=
  match result with
  | .ok value => ⟨after value, none⟩
  | .error failure => ⟨before, some failure⟩

/-- Steps taken in order until one fails. -/
def each (step : α → σ → Attempt ε σ) : List α → σ → Attempt ε σ
  | [], state => done state
  | x :: rest, state => (step x state).andThen (each step rest)

theorem andThen_failure_none_iff {a : Attempt ε σ} {next : σ → Attempt ε σ} :
    (a.andThen next).failure = none ↔ a.failure = none ∧ (next a.state).failure = none := by
  unfold andThen
  cases h : a.failure <;> simp [h]

theorem andThen_of_none {a : Attempt ε σ} {next : σ → Attempt ε σ} (h : a.failure = none) :
    a.andThen next = next a.state := by
  simp [andThen, h]

theorem done_andThen (state : σ) (next : σ → Attempt ε σ) :
    (done state).andThen next = next state := rfl

end Attempt

end ProgressDisplay
