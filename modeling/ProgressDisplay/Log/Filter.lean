import ProgressDisplay.Log.Directive

/-!
# Log filters

A filter says which records are kept. It is a list of directives, written with commas between
them. Of the directives that concern a record the most specific decides, and the record is kept if
it is at least as urgent as that directive says.

* `keeps_of_nil`: a filter without directives keeps nothing.
* `keeps_standard_iff`: the filter in force where none is given.
-/

namespace ProgressDisplay.Log

structure Filter where
  directives : List Directive
  deriving DecidableEq, Repr

namespace Filter

/-- Reads a filter. Nothing between commas is no directive. -/
def ofText? (text : List Char) : Option Filter :=
  (((Text.pieces ',' text).filter (!·.isEmpty)).mapM Directive.ofText?).map Filter.mk

/-- The filter in force where none is given that can be read. -/
def standard : Filter := ⟨[{ level := .info }]⟩

/-- The filter that a setting gives. -/
def ofSetting (text : Option String) : Filter :=
  (text.bind fun t => ofText? t.toList).getD standard

/-- The most specific directive that concerns a record. Of two alike the later counts. -/
def deciding? (f : Filter) (r : Record) : Option Directive :=
  (f.directives.filter (·.concerns r)).foldl (fun best d =>
    match best with
    | none => some d
    | some b => if d.atLeast b then some d else best) none

/-- Whether a filter keeps a record. -/
def keeps (f : Filter) (r : Record) : Bool :=
  (f.deciding? r).any fun d => r.level.rank ≤ d.level.rank

theorem keeps_of_nil (r : Record) : keeps ⟨[]⟩ r = false := rfl

theorem deciding?_level (level : Level) (r : Record) :
    deciding? ⟨[{ level }]⟩ r = some { level } := rfl

theorem keeps_standard_iff (r : Record) :
    standard.keeps r = true ↔ r.level.rank ≤ Level.info.rank := by
  simp [keeps, standard, deciding?_level]

end Filter

end ProgressDisplay.Log
