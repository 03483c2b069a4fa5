import ProgressDisplay.Toml.Value

/-!
# Tables

A table maps keys to what stands under them. A key may be defined once. A table that came about
only because a longer header or a dotted key leads through it can still be added to, in the way in
which it came about; a table that was defined by a header or as a value cannot.

* `define_fresh`: a key that is not there yet can be defined.
-/

namespace ProgressDisplay.Toml

/-- How a table came about. -/
inductive Origin where
  /-- by a header of its own, or as the whole document -/
  | header
  /-- on the way to the table of a longer header -/
  | onTheWay
  /-- on the way to the value of a dotted key -/
  | dotted
  deriving DecidableEq, Repr

/-- What stands under a key. -/
inductive Entry where
  | value (v : Value)
  | table (origin : Origin) (entries : List (String × Entry))
  /-- tables under one repeated header: the last, and those before it -/
  | tables (last : List (String × Entry)) (earlier : List (List (String × Entry)))

abbrev Entries := List (String × Entry)

namespace Entries

def get? (entries : Entries) (key : String) : Option Entry := entries.lookup key

/-- The entries with something else under a key that is there. -/
def replace (entries : Entries) (key : String) (entry : Entry) : Entries :=
  entries.map fun e => if e.1 = key then (key, entry) else e

/-- Changes the table that a path leads to from a table of some origin. Tables that are missing on
the way come about, with the origin given; a dotted key may not lead into a table that has a header
of its own. Where a header is repeated the path leads into its last table. -/
def changeAt (missing : Origin) (change : Origin → Entries → Option Entries) :
    Path → Origin → Entries → Option Entries
  | [], origin, entries => change origin entries
  | key :: path, _, entries =>
    match entries.get? key with
    | none =>
      (changeAt missing change path missing []).map fun inner =>
        entries ++ [(key, .table missing inner)]
    | some (.value _) => none
    | some (.table origin inner) =>
      if missing = .dotted ∧ origin = .header then none
      else
        (changeAt missing change path origin inner).map fun inner =>
          entries.replace key (.table origin inner)
    | some (.tables last earlier) =>
      (changeAt missing change path .header last).map fun last =>
        entries.replace key (.tables last earlier)

/-- Defines a key that has no entry yet. -/
def define (key : String) (v : Value) (entries : Entries) : Option Entries :=
  match entries.get? key with
  | none => some (entries ++ [(key, .value v)])
  | some _ => none

/-- Defines a key behind a path. Where a path is given, the table it leads to must have come about
by a dotted key. -/
def definePair (path : Path) (key : String) (v : Value) (origin : Origin) (entries : Entries) :
    Option Entries :=
  changeAt .dotted
    (fun origin entries =>
      if path ≠ [] ∧ origin ≠ .dotted then none else define key v entries)
    path origin entries

/-- Opens the table of a header. The table may be there if no header has opened it. -/
def openTable (key : String) (entries : Entries) : Option Entries :=
  match entries.get? key with
  | none => some (entries ++ [(key, .table .header [])])
  | some (.table .onTheWay inner) => some (entries.replace key (.table .header inner))
  | some _ => none

/-- Opens another table of a repeated header. -/
def openNext (key : String) (entries : Entries) : Option Entries :=
  match entries.get? key with
  | none => some (entries ++ [(key, .tables [] [])])
  | some (.tables last earlier) => some (entries.replace key (.tables [] (last :: earlier)))
  | some _ => none

theorem define_fresh {key : String} {v : Value} {entries : Entries}
    (h : entries.get? key = none) : define key v entries = some (entries ++ [(key, .value v)]) := by
  simp [define, h]

end Entries

mutual

/-- Whether all inline tables within a value define each of their keys once. -/
def Value.consistent : Value → Bool
  | .array items => allConsistent items
  | .inline pairs => pairsConsistent pairs []
  | _ => true

def Value.allConsistent : List Value → Bool
  | [] => true
  | v :: rest => v.consistent && allConsistent rest

/-- Whether pairs can be defined in order on top of the entries before them. -/
def Value.pairsConsistent : List (Path × String × Value) → Entries → Bool
  | [], _ => true
  | (path, key, v) :: rest, entries =>
    v.consistent &&
      match entries.definePair path key v .header with
      | some entries => pairsConsistent rest entries
      | none => false

end

end ProgressDisplay.Toml
