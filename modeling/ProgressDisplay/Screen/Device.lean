import ProgressDisplay.Screen.Emission

/-!
# The output device

A `Device` records what it was given and how often it was flushed. It may refuse: each write
either delivers everything or delivers nothing and fails. A write of nothing never reaches the
device, so it succeeds even where every write fails.

* `write_eq_ok_iff`: a write succeeds exactly if it is not refused, and appends what was written.
-/

namespace ProgressDisplay

/-- A failed operation of the device, with the reason it gave. -/
structure DeviceFailure where
  reason : String
  deriving DecidableEq, Repr

/-- Which writes the device refuses. -/
inductive WriteFault where
  | none
  /-- every write that holds anything -/
  | always (reason : String)
  /-- every write that completes a line: what is not complete waits in a buffer -/
  | completedLines (reason : String)
  deriving DecidableEq, Repr

structure Device where
  output : List Emission := []
  flushes : Nat := 0
  writeFault : WriteFault := .none
  /-- the reason that a flush fails for, if it does -/
  flushFault : Option String := none
  deriving DecidableEq, Repr

namespace Device

/-- Why a write of these emissions fails, if it does. -/
def refusal (d : Device) (emissions : List Emission) : Option DeviceFailure :=
  match d.writeFault with
  | .none => none
  | .always reason => if emissions.isEmpty then none else some ⟨reason⟩
  | .completedLines reason =>
    if emissions.any Emission.completesLine then some ⟨reason⟩ else none

def write (d : Device) (emissions : List Emission) : Except DeviceFailure Device :=
  match d.refusal emissions with
  | some failure => .error failure
  | none => .ok { d with output := d.output ++ emissions }

def flush (d : Device) : Except DeviceFailure Device :=
  match d.flushFault with
  | some reason => .error ⟨reason⟩
  | none => .ok { d with flushes := d.flushes + 1 }

theorem write_eq_ok_iff {d d' : Device} {emissions : List Emission} :
    d.write emissions = .ok d' ↔
      d.refusal emissions = none ∧ d' = { d with output := d.output ++ emissions } := by
  unfold write
  cases h : d.refusal emissions <;> simp [eq_comm]

end Device

end ProgressDisplay
