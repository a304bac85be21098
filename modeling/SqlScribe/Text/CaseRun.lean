/-!
# Runs of code points

The properties of characters that the library needs are tables of runs: a run of code points that
have a property, or a run of code points whose other case lies at one fixed distance.
-/

namespace SqlScribe.Text

/-- Whether a code point lies in one of the closed intervals `runs`. -/
def inRuns (runs : List (Nat × Nat)) (code : Nat) : Bool :=
  runs.any fun run => run.1 ≤ code && code ≤ run.2

/-- Every `step`-th code point from `first` to `last` has its other case at distance `shift`. -/
structure CaseRun where
  first : Nat
  last : Nat
  step : Nat
  shift : Int
deriving DecidableEq, Repr

namespace CaseRun

/-- Whether `code` is one of the code points of the run. -/
def covers (run : CaseRun) (code : Nat) : Bool :=
  run.first ≤ code && code ≤ run.last && (code - run.first) % run.step == 0

/-- The other case of `code` by the first run that covers it, `code` itself where none does. -/
def shifted (runs : List CaseRun) (code : Nat) : Nat :=
  match runs.find? (·.covers code) with
  | some run => (code + run.shift).toNat
  | none => code

end CaseRun

end SqlScribe.Text
