import ProgressDisplay.Operations.Protocol
import ProgressDisplay.Style.Line

/-!
# The headline

The headline is the status of the build as a whole. The operation that started last without a
parent stands for the build. Its description is shown until it reports a status, then its latest
status, and nothing once it has completed.
-/

namespace ProgressDisplay

structure Headline where
  /-- the operation that stands for the build, while it runs -/
  root : Option OperationId := none
  /-- what is shown, once an operation has stood for the build -/
  current : Option String := none
  deriving DecidableEq, Repr

namespace Headline

/-- The headline after an event. -/
def after (s : Headline) : Event → Headline
  | .start id none description _ => ⟨some id, some description⟩
  | .start _ (some _) _ _ => s
  | .progress id status => if s.root = some id then { s with current := some status } else s
  | .complete id => if s.root = some id then ⟨none, some ""⟩ else s
  | .endOfOutput => s

/-- The bold text of the status, cut to the terminal. Before the first build there is none, and
what the line held stays. -/
def content (s : Headline) (columns : Option Nat) : Option Line :=
  s.current.map fun text =>
    if text = "" then []
    else Line.fitColumns columns [⟨.emphasized { bold := true }, text⟩]

end Headline

end ProgressDisplay
