import ProcessLint.Text.Columns

/-!
The log of a run: lines of some importance, of which those that reach the chosen level are shown.
-/
namespace ProcessLint.Log

inductive Level where
  | error
  | warn
  | info
  | debug
  | trace
  deriving DecidableEq, Repr

namespace Level

def rank : Level → Nat
  | error => 1
  | warn => 2
  | info => 3
  | debug => 4
  | trace => 5

def name : Level → String
  | error => "ERROR"
  | warn => "WARN"
  | info => "INFO"
  | debug => "DEBUG"
  | trace => "TRACE"

def all : List Level := [error, warn, info, debug, trace]

/-- The level with a name; ASCII letters may be upper or lower case. -/
def ofName? (name : String) : Option Level := all.find? (·.name == name.map Char.toUpper)

/-- The level to show. What is asked for on the command line counts before the environment. -/
def choose (verbosity : Nat) (environment : Option String) : Level :=
  match verbosity with
  | 0 => (environment.bind ofName?).getD warn
  | 1 => info
  | _ => debug

end Level

/-- The part of the program that a line is about. -/
inductive Source where
  | program
  | reading
  | rules
  deriving DecidableEq, Repr

def Source.name : Source → String
  | program => "dd_pclint"
  | reading => "dd_pclint::parser"
  | rules => "dd_pclint::rules"

structure Line where
  level : Level
  source : Source
  message : String
  deriving DecidableEq, Repr

/-- The level takes five columns. -/
def Line.text (line : Line) : String :=
  line.level.name.padTo 5 ++ " [" ++ line.source.name ++ "] " ++ line.message

/-- The lines that a level shows. -/
def shown (level : Level) (lines : List Line) : List String :=
  (lines.filter (·.level.rank ≤ level.rank)).map (·.text)

end ProcessLint.Log
