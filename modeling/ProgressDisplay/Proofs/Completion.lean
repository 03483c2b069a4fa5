import ProgressDisplay.Attempt

/-!
# Operations that complete

`Ensures` says what holds of the state that an attempt reaches if nothing stops it. What no step of
a sequence changes is unchanged in the state that the sequence reaches, wherever it stops.

* `Ensures.andThen`: what a sequence ensures.
* `unchanged_andThen`, `unchanged_each`: what a sequence leaves unchanged.
* `Agree.andThen`: what two sequences do alike.
* `each_append`: a run of steps is cut into two.
-/

namespace ProgressDisplay.Attempt

variable {ε σ τ α β : Type} {P Q : σ → Prop} {a : Attempt ε σ} {f : σ → β}

def Ensures (a : Attempt ε σ) (Q : σ → Prop) : Prop := a.failure = none → Q a.state

theorem ensures_done {state : σ} (h : Q state) : (done state : Attempt ε σ).Ensures Q := fun _ => h

theorem Ensures.andThen {next : σ → Attempt ε σ} (ha : a.Ensures P)
    (hnext : ∀ s, P s → (next s).Ensures Q) : (a.andThen next).Ensures Q := by
  intro hok
  obtain ⟨hfirst, hrest⟩ := andThen_failure_none_iff.mp hok
  rw [andThen_of_none hfirst]
  exact hnext a.state (ha hfirst) hrest

theorem Ensures.mono (ha : a.Ensures P) (h : ∀ s, P s → Q s) : a.Ensures Q :=
  fun hok => h a.state (ha hok)

theorem Ensures.map {f : σ → τ} {R : τ → Prop} (ha : a.Ensures fun s => R (f s)) :
    (a.map f).Ensures R := ha

theorem ensures_ofExcept {before : σ} {result : Except ε τ} {after : τ → σ}
    (h : ∀ value, result = .ok value → Q (after value)) :
    (ofExcept before result after).Ensures Q := by
  intro hok
  cases result with
  | ok value => exact h value rfl
  | error failure => cases hok

theorem unchanged_andThen {next : σ → Attempt ε σ} {before : β} (ha : f a.state = before)
    (hnext : ∀ s, f (next s).state = f s) : f (a.andThen next).state = before := by
  unfold andThen
  split
  · exact (hnext a.state).trans ha
  · exact ha

theorem unchanged_ofExcept {before : σ} {result : Except ε τ} {after : τ → σ}
    (h : ∀ value, f (after value) = f before) :
    f (ofExcept before result after).state = f before := by
  cases result with
  | ok value => exact h value
  | error failure => rfl

theorem unchanged_each {step : α → σ → Attempt ε σ} (h : ∀ x s, f (step x s).state = f s)
    (steps : List α) (state : σ) : f (each step steps state).state = f state := by
  induction steps generalizing state with
  | nil => rfl
  | cons x rest ih => exact unchanged_andThen (h x state) ih

theorem eq_done_of_none (h : a.failure = none) : a = done a.state := by
  obtain ⟨state, failure⟩ := a
  cases h
  rfl

theorem andThen_done (a : Attempt ε σ) : a.andThen done = a := by
  obtain ⟨state, failure⟩ := a
  cases failure <;> rfl

theorem andThen_assoc (a : Attempt ε σ) (next last : σ → Attempt ε σ) :
    (a.andThen next).andThen last = a.andThen fun s => (next s).andThen last := by
  obtain ⟨state, failure⟩ := a
  cases failure <;> rfl

theorem each_append (step : α → σ → Attempt ε σ) (first second : List α) (state : σ) :
    each step (first ++ second) state = (each step first state).andThen (each step second) := by
  induction first generalizing state with
  | nil => rfl
  | cons x rest ih =>
    rw [List.cons_append, each, each]
    cases hx : (step x state).failure with
    | none => rw [andThen_of_none hx, andThen_of_none hx, ih]
    | some failure => simp [andThen, hx]

theorem each_singleton (step : α → σ → Attempt ε σ) (x : α) (state : σ) :
    each step [x] state = step x state := andThen_done _

theorem each_concat (step : α → σ → Attempt ε σ) (steps : List α) (last : α) (state : σ) :
    each step (steps ++ [last]) state = (each step steps state).andThen (step last) := by
  rw [each_append]
  congr 1
  funext s
  exact each_singleton step last s

/-! ## Two attempts -/

variable {σ' τ' : Type} {R : σ → σ' → Prop}

/-- Both attempts complete, and the states that they come to are related. -/
structure Agree (R : σ → σ' → Prop) (a : Attempt ε σ) (b : Attempt ε σ') : Prop where
  left : a.failure = none
  right : b.failure = none
  related : R a.state b.state

theorem agree_done {s : σ} {s' : σ'} (h : R s s') :
    Agree R (done s : Attempt ε σ) (done s') := ⟨rfl, rfl, h⟩

namespace Agree

variable {b : Attempt ε σ'}

theorem andThen {S : σ → σ' → Prop} {next : σ → Attempt ε σ} {next' : σ' → Attempt ε σ'}
    (h : Agree R a b) (hnext : ∀ s s', R s s' → Agree S (next s) (next' s')) :
    Agree S (a.andThen next) (b.andThen next') := by
  rw [andThen_of_none h.left, andThen_of_none h.right]
  exact hnext _ _ h.related

theorem map {f : σ → τ} {f' : σ' → τ'} {S : τ → τ' → Prop} (h : Agree R a b)
    (hmap : ∀ s s', R s s' → S (f s) (f' s')) : Agree S (a.map f) (b.map f') :=
  ⟨h.left, h.right, hmap _ _ h.related⟩

end Agree

end ProgressDisplay.Attempt
