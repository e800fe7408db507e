import ProcessLint.Document.Parse

/-!
Files and the paths that lead to them. A path is followed name by name, from the root or from the
working directory. Whatever has a name behind it, be it empty, must be a directory; a link is
followed from where it stands.
-/
namespace ProcessLint

/-- The names on the way from a place up to the root. -/
abbrev Location := List String

/-- What a place holds. -/
inductive FileSystem.Node where
  | directory
  /-- The file with a number. It may be at many places. -/
  | file (number : Nat)
  | link (target : String)
  deriving DecidableEq, Repr

structure FileSystem where
  working : Location
  node? : Location → Option FileSystem.Node
  /-- Why a directory may not be searched, or a file not be read; the message of the system. -/
  refusal? : Location → Option String
  content : Nat → ByteArray

namespace FileSystem

/-- Links that may be followed on the way of one path. -/
def maxLinks : Nat := 40

/-- The names in a path. That behind a slash at the end is empty. -/
def names (path : String) : List String := (path.toList.splitOn '/').map String.ofList

/-- Where a path starts that stands at a place. -/
def start (here : Location) (path : String) : Location :=
  if path.toList.head? = some '/' then [] else here

variable (fs : FileSystem)

/-- What a place holds. The root is always there. -/
def nodeAt? : Location → Option Node
  | [] => some .directory
  | here => fs.node? here

def refuses (here : Location) : Except ReadFault Unit :=
  match fs.refusal? here with
  | some message => .error (.refused message)
  | none => .ok ()

/-- Whether a name may be looked up at a place. -/
def enter (here : Location) : Except ReadFault Unit :=
  match fs.nodeAt? here with
  | some .directory => fs.refuses here
  | some (.file _) => .error .notADirectory
  | some (.link _) | none => .error .notFound

/-- Where names lead from a place, with so many links that may still be followed. -/
def walk (links : Nat) (here : Location) : List String → Except ReadFault Location
  | [] => .ok here
  | name :: rest => do
      fs.enter here
      if name = "" ∨ name = "." then walk links here rest
      else if name = ".." then walk links here.tail rest
      else
        match fs.nodeAt? (name :: here) with
        | none => .error .notFound
        | some (.link target) =>
            if links = 0 then .error .tooManyLinks
            else walk (links - 1) (start here target) (names target ++ rest)
        | some _ => walk links (name :: here) rest
  termination_by names => (links, names.length)

/-- Where a path leads. -/
def resolve (path : String) : Except ReadFault Location :=
  if path = "" then .error .notFound
  else fs.walk maxLinks (start fs.working path) (names path)

/-- The file that a path leads to, if it can be read. -/
def target (path : String) : Except ReadFault Nat := do
  let here ← fs.resolve path
  fs.refuses here
  match fs.nodeAt? here with
  | some (.file number) => .ok number
  | some .directory => .error .isDirectory
  | some (.link _) | none => .error .notFound

def read (path : String) : Except ReadFault ByteArray := fs.content <$> fs.target path

/-- The files with new content for the one that a path leads to. -/
def write (path : String) (content : ByteArray) : FileSystem :=
  match fs.target path with
  | .ok number => { fs with
      content := fun other => if other = number then content else fs.content other }
  | .error _ => fs

end FileSystem

end ProcessLint
