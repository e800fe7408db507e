import ProcessLint.Text.Split

/-!
The arguments of the command line as tokens. An option is known by a name behind two dashes or by
a letter behind one; letters may stand together. The value of an option follows an equals sign, or
its letter directly, or is the next argument. Behind two dashes alone all are operands.
-/
namespace ProcessLint.Command

inductive Token where
  | help
  | version
  | verbose
  | check
  | disable (rule : String)
  | reportFormat (name : String)
  | graphFormat (name : String)
  | process (name : String)
  | operand (text : String)
  /-- An option that is not known, lacks its value or has one without taking any. -/
  | invalid
  deriving DecidableEq, Repr

inductive SwitchKind where
  | flag (token : Token)
  | valued (token : String → Token)

/-- An option that a command knows. -/
structure Switch where
  name : String
  letter : Option Char
  kind : SwitchKind

namespace Switch

def kindOfName? (switches : List Switch) (name : String) : Option SwitchKind :=
  (switches.find? (·.name == name)).map (·.kind)

def kindOfLetter? (switches : List Switch) (letter : Char) : Option SwitchKind :=
  (switches.find? (·.letter == some letter)).map (·.kind)

end Switch

/-- The tokens of one argument, and what its last option makes of the next argument. -/
abbrev Reading := List Token × Option (String → Token)

namespace Reading

def ofName (switches : List Switch) (text : List Char) : Reading :=
  let (name, value) :=
    match Text.splitFirst '=' text with
    | some (name, value) => (String.ofList name, some (String.ofList value))
    | none => (String.ofList text, none)
  match Switch.kindOfName? switches name, value with
  | some (.flag token), none => ([token], none)
  | some (.valued token), some value => ([token value], none)
  | some (.valued token), none => ([], some token)
  | _, _ => ([.invalid], none)

def ofLetters (switches : List Switch) : List Char → Reading
  | [] => ([], none)
  | c :: rest =>
      match Switch.kindOfLetter? switches c with
      | some (.flag token) =>
          let (tokens, pending) := ofLetters switches rest
          (token :: tokens, pending)
      | some (.valued token) =>
          match rest with
          | [] => ([], some token)
          | '=' :: value => ([token (String.ofList value)], none)
          | value => ([token (String.ofList value)], none)
      | none => ([.invalid], none)

end Reading

/-- A dash alone is an operand, and two are the end of the options. -/
def isOption (argument : String) : Bool :=
  argument.toList.head? = some '-' && argument != "-" && argument != "--"

def Reading.ofArgument (switches : List Switch) (argument : String) : Reading :=
  match argument.toList with
  | '-' :: '-' :: text => ofName switches text
  | '-' :: letters => ofLetters switches letters
  | _ => ([.operand argument], none)

/-- The tokens of arguments. `pending` is the option that takes its value from the first. -/
def tokens (switches : List Switch) (pending : Option (String → Token)) : List String → List Token
  | [] => if pending.isSome then [.invalid] else []
  | argument :: rest =>
      match pending with
      | some token =>
          if isOption argument || argument = "--" then [.invalid]
          else token argument :: tokens switches none rest
      | none =>
          if argument = "--" then rest.map .operand
          else if isOption argument then
            let (found, pending) := Reading.ofArgument switches argument
            found ++ tokens switches pending rest
          else .operand argument :: tokens switches none rest

end ProcessLint.Command
