import Nucleus.Text.Number

/-!
Log records and the filter they pass: a record is written as one line `[LEVEL] target: text` if its level
is not finer than the filter.
-/

namespace Nucleus.Log

/-- How important a record is, from coarse to fine. -/
inductive Level where
  | error
  | warn
  | info
  | debug
  | trace
  deriving DecidableEq, Repr

/-- Position of a level, one for the coarsest. -/
def Level.rank : Level → Nat
  | error => 1
  | warn => 2
  | info => 3
  | debug => 4
  | trace => 5

def Level.name : Level → String
  | error => "ERROR"
  | warn => "WARN"
  | info => "INFO"
  | debug => "DEBUG"
  | trace => "TRACE"

/-- Which records are written. -/
inductive Filter where
  | off
  | upTo (level : Level)
  deriving DecidableEq, Repr

/-- Position of a filter: the rank of the finest level it lets pass. -/
def Filter.rank : Filter → Nat
  | off => 0
  | upTo l => l.rank

def Filter.name : Filter → String
  | off => "OFF"
  | upTo l => l.name

/-- The filter `f` lets records of level `l` pass. -/
def Filter.Admits (f : Filter) (l : Level) : Prop := l.rank ≤ f.rank

instance (f : Filter) (l : Level) : Decidable (f.Admits l) := inferInstanceAs (Decidable (_ ≤ _))

/-- One message of a part of the system, which the target names. -/
structure Record where
  level : Level
  target : String
  text : String
  deriving DecidableEq, Repr

/-- The written form of a record, ended by a line feed. -/
def Record.line (r : Record) : String :=
  "[" ++ Text.left 5 r.level.name ++ "] " ++ r.target ++ ": " ++ r.text ++ "\n"

end Nucleus.Log
