import Mathlib.Data.List.Induction
import ProgressDisplay.CommandLine

/-!
# Command lines one after the other

Arguments that are read completely are pairs of an option and its value. They leave nothing but the
options they gave, so what follows them is read as if it stood alone, and only where it gives no
option the earlier one counts.

* `read_cons_cons`: what becomes of an argument and the one behind it.
* `read_over`: options that were read before count where nothing is given later.
* `read_append`, `parse_append`: arguments are read one part after the other.
* `read_eq_run_iff`: which arguments are read completely, and the options they give.
* `parse_composes`: two command lines in one.
-/

namespace ProgressDisplay.CommandLine

variable {a b arguments : List String} {o p : Options}

/-! ## The first arguments -/

/-- An option with its value. -/
inductive Setting where
  | workers (count : Nat)
  | throttle (milliseconds : Nat)
  | scheme (name : String)
  deriving DecidableEq, Repr

namespace Setting

def set (o : Options) : Setting → Options
  | workers count => { o with workers := some count }
  | throttle milliseconds => { o with throttle := some milliseconds }
  | scheme name => { o with scheme := some name }

def workers? : Setting → Option Nat
  | workers count => some count
  | _ => none

def throttle? : Setting → Option Nat
  | throttle milliseconds => some milliseconds
  | _ => none

def scheme? : Setting → Option String
  | scheme name => some name
  | _ => none

end Setting

/-- What an argument makes of the one behind it, if it takes a value. -/
def Argument.take? : Argument → String → Option (Except Mistake Setting)
  | .workers, value =>
    match number? value with
    | some count => some (.ok (.workers count))
    | none => some (.error (.invalidWorkers value))
  | .throttle, value =>
    match number? value with
    | some milliseconds => some (.ok (.throttle milliseconds))
    | none => some (.error (.invalidThrottle value))
  | .scheme, value => some (.ok (.scheme value))
  | .help, _ | .version, _ | .other, _ => none

/-- What an argument asks for that has no value. -/
def alone (text : String) : Request :=
  match argument text with
  | .help => .help
  | .version => .version
  | .workers => .refuse .missingWorkers
  | .throttle => .refuse .missingThrottle
  | .scheme => .refuse .missingScheme
  | .other => .refuse (.unknown text)

theorem read_singleton (o : Options) (first : String) : read o [first] = alone first := by
  unfold read alone
  cases argument first <;> rfl

theorem read_cons_cons (o : Options) (first value : String) (rest : List String) :
    read o (first :: value :: rest) =
      match (argument first).take? value with
      | some (.ok setting) => read (setting.set o) rest
      | some (.error mistake) => .refuse mistake
      | none => alone first := by
  rw [read.eq_def]
  dsimp only
  unfold alone Argument.take?
  cases argument first with
  | workers | throttle =>
    dsimp only
    cases number? value <;> rfl
  | help | version | scheme | other => rfl

/-! ## Options read before -/

/-- The options of `p`, and those of `o` where `p` has none. -/
def Options.over (p o : Options) : Options where
  workers := p.workers.or o.workers
  throttle := p.throttle.or o.throttle
  scheme := p.scheme.or o.scheme

/-- What a request is if its arguments stand behind others that gave options. -/
def Request.after (o : Options) : Request → Request
  | .run p => .run (p.over o)
  | .help => .help
  | .version => .version
  | .refuse mistake => .refuse mistake

theorem Setting.set_over (setting : Setting) (p o : Options) :
    setting.set (p.over o) = (setting.set p).over o := by
  cases setting <;> rfl

theorem after_alone (o : Options) (first : String) : (alone first).after o = alone first := by
  unfold alone
  cases argument first <;> rfl

theorem alone_ne_run (first : String) : alone first ≠ .run o := by
  unfold alone
  cases argument first <;> simp

theorem read_over (p o : Options) (arguments : List String) :
    read (p.over o) arguments = (read p arguments).after o := by
  induction arguments using List.twoStepInduction generalizing p with
  | nil => rfl
  | singleton first => rw [read_singleton, read_singleton, after_alone]
  | cons_cons first value rest ih _ =>
    rw [read_cons_cons, read_cons_cons]
    split
    · rw [Setting.set_over]
      exact ih _
    · rfl
    · exact (after_alone o first).symm

theorem read_append (h : read p a = .run o) (b : List String) : read p (a ++ b) = read o b := by
  induction a using List.twoStepInduction generalizing p with
  | nil =>
    obtain rfl : p = o := Request.run.inj h
    rfl
  | singleton first =>
    rw [read_singleton] at h
    exact absurd h (alone_ne_run first)
  | cons_cons first value rest ih _ =>
    rw [List.cons_append, List.cons_append, read_cons_cons]
    rw [read_cons_cons] at h
    split at h
    · exact ih h
    · cases h
    · exact absurd h (alone_ne_run first)

theorem none_over (o : Options) : Options.over {} o = o := rfl

theorem over_none (p : Options) : p.over {} = p := by
  simp only [Options.over, Option.or_none]

theorem parse_append (h : parse a = .run o) (b : List String) :
    parse (a ++ b) = (parse b).after o := by
  rw [parse, read_append h b, parse, ← read_over, none_over]

/-! ## Arguments that are read completely -/

/-- The arguments are options with their values, which give these settings. -/
inductive Gives : List String → List Setting → Prop where
  | nil : Gives [] []
  | cons {option value : String} {rest : List String} {setting : Setting}
      {settings : List Setting} (htake : (argument option).take? value = some (.ok setting))
      (hrest : Gives rest settings) : Gives (option :: value :: rest) (setting :: settings)

/-- Of each option the last value counts. -/
def Options.ofSettings (settings : List Setting) : Options where
  workers := (settings.filterMap Setting.workers?).getLast?
  throttle := (settings.filterMap Setting.throttle?).getLast?
  scheme := (settings.filterMap Setting.scheme?).getLast?

theorem getLast?_filterMap_cons {α β : Type} (f : α → Option β) (x : α) (xs : List α) :
    ((x :: xs).filterMap f).getLast? = (xs.filterMap f).getLast?.or (f x) := by
  rw [List.filterMap_cons]
  cases f x with
  | none => rw [Option.or_none]
  | some y =>
    rw [List.getLast?_cons]
    cases (xs.filterMap f).getLast? <;> rfl

theorem foldl_set (settings : List Setting) (o : Options) :
    settings.foldl Setting.set o = (Options.ofSettings settings).over o := by
  induction settings generalizing o with
  | nil => rfl
  | cons setting rest ih =>
    rw [List.foldl_cons, ih]
    simp only [Options.over, Options.ofSettings, getLast?_filterMap_cons, Option.or_assoc]
    cases setting <;> rfl

theorem Setting.set_none (setting : Setting) : setting.set {} = .ofSettings [setting] := by
  cases setting <;> rfl

theorem read_eq_run_iff :
    read p arguments = .run o ↔
      ∃ settings, Gives arguments settings ∧ o = settings.foldl Setting.set p := by
  constructor
  · intro h
    induction arguments using List.twoStepInduction generalizing p with
    | nil => exact ⟨[], .nil, (Request.run.inj h).symm⟩
    | singleton first =>
      rw [read_singleton] at h
      exact absurd h (alone_ne_run first)
    | cons_cons first value rest ih _ =>
      rw [read_cons_cons] at h
      split at h
      · rename_i setting htake
        obtain ⟨settings, hgives, rfl⟩ := ih h
        exact ⟨setting :: settings, .cons htake hgives, rfl⟩
      · cases h
      · exact absurd h (alone_ne_run first)
  · rintro ⟨settings, hgives, rfl⟩
    induction hgives generalizing p with
    | nil => rfl
    | cons htake _ ih =>
      rw [read_cons_cons, htake]
      exact ih

/-- Arguments that are read completely can be followed by any others: these are read as if they
stood alone, and their options count before the earlier ones. Complete arguments are options, each
with the very next argument as its value, and of each option the last value counts. An option takes
the argument behind it whatever it looks like. -/
theorem parse_composes :
    (∀ (a b : List String) (o : Options), parse a = .run o →
      parse (a ++ b) = (parse b).after o) ∧
    (∀ (arguments : List String) (o : Options), parse arguments = .run o ↔
      ∃ settings, Gives arguments settings ∧ o = .ofSettings settings) ∧
    ∀ (option value : String) (rest : List String) (outcome : Except Mistake Setting),
      (argument option).take? value = some outcome →
      parse (option :: value :: rest) =
        match outcome with
        | .ok setting => (parse rest).after (.ofSettings [setting])
        | .error mistake => .refuse mistake := by
  refine ⟨fun a b o h => parse_append h b, fun arguments o => ?_, ?_⟩
  · simp only [parse, read_eq_run_iff, foldl_set, over_none]
  · rintro option value rest (mistake | setting) htake
    · rw [parse, read_cons_cons, htake]
    · simp only [parse, read_cons_cons, htake, ← read_over, Setting.set_none, none_over]

theorem parse_composes_of_option_like_value :
    parse ["--scheme", "-h", "-w", "3"] = .run { workers := some 3, scheme := some "-h" } ∧
    parse (["--scheme", "-h", "-w", "3"] ++ ["-t", "5", "-w", "8"]) =
      .run { workers := some 8, throttle := some 5, scheme := some "-h" } ∧
    parse (["--scheme", "-h", "-w", "3"] ++ ["-t", "-w", "8"]) =
      .refuse (.invalidThrottle "-w") := by
  have hfirst : parse ["--scheme", "-h", "-w", "3"] =
      .run { workers := some 3, scheme := some "-h" } :=
    (parse_composes.2.2 "--scheme" "-h" ["-w", "3"] (.ok (.scheme "-h")) rfl).trans rfl
  exact ⟨hfirst, (parse_composes.1 _ _ _ hfirst).trans rfl,
    (parse_composes.1 _ _ _ hfirst).trans rfl⟩

end ProgressDisplay.CommandLine
