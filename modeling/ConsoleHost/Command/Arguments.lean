/-! The arguments of the command line: flags that are counted or answered at once, and one path. -/
namespace ConsoleHost.Command

inductive Flag where
  | verbose
  | help
  | version
  deriving DecidableEq, Repr

def Flag.all : List Flag := [.verbose, .help, .version]

def Flag.letter : Flag → Char
  | verbose => 'v'
  | help => 'h'
  | version => 'V'

def Flag.name : Flag → String
  | verbose => "verbose"
  | help => "help"
  | version => "version"

def Flag.ofLetter? (c : Char) : Option Flag := all.find? (·.letter == c)

def Flag.ofName? (name : String) : Option Flag := all.find? (·.name == name)

theorem Flag.ofLetter?_letter (f : Flag) : ofLetter? f.letter = some f := by cases f <;> rfl

theorem Flag.ofName?_name (f : Flag) : ofName? f.name = some f := by cases f <;> rfl

inductive ArgumentError where
  | unknownLetter (letter : Char)
  /-- A name that there is not, the flags given before it, and whether a path was given. -/
  | unknownName (name : String) (before : List Flag) (pathGiven : Bool)
  /-- A path after the only one. -/
  | secondPath (path : String)
  /-- A value given to a flag, and the flags given before it. -/
  | valueForFlag (flag : Flag) (value : String) (before : List Flag)
  | emptyPath
  deriving DecidableEq, Repr

/-- What the arguments ask for. -/
inductive Request where
  | help
  | version
  | refused (e : ArgumentError)
  | run (verbosity : Nat) (path : Option String)
  deriving DecidableEq, Repr

/-- What the arguments read so far have given. -/
structure Reading where
  verbosity : Nat := 0
  path : Option String := none
  /-- Whether options have been ended by `--`. -/
  ended : Bool := false
  deriving DecidableEq, Repr

namespace Reading

/-- The flags given so far; the others are answered at once. -/
def flags (r : Reading) : List Flag := if r.verbosity = 0 then [] else [.verbose]

/-- An empty path is refused when the next flag is taken, or at the end. -/
def takeFlag (r : Reading) (flag : Flag) : Except Request Reading :=
  if r.path = some "" then .error (.refused .emptyPath)
  else
    match flag with
    | .verbose => .ok { r with verbosity := r.verbosity + 1 }
    | .help => .error .help
    | .version => .error .version

/-- The letters after a single dash. -/
def takeLetters (r : Reading) : List Char → Except Request Reading
  | [] => .ok r
  | c :: rest =>
    match Flag.ofLetter? c with
    | none => .error (.refused (.unknownLetter c))
    | some flag =>
      match r.takeFlag flag with
      | .ok r => r.takeLetters rest
      | .error answer => .error answer

/-- The name after two dashes, and the value after an equals sign. -/
def takeName (r : Reading) (name : String) (value : Option String) : Except Request Reading :=
  match Flag.ofName? name, value with
  | none, _ => .error (.refused (.unknownName name r.flags r.path.isSome))
  | some flag, none => r.takeFlag flag
  | some flag, some value => .error (.refused (.valueForFlag flag value r.flags))

def takePath (r : Reading) (path : String) : Except Request Reading :=
  match r.path with
  | none => .ok { r with path := some path }
  | some _ => .error (.refused (.secondPath path))

/-- One argument. A single dash is a path. -/
def take (r : Reading) (arg : String) : Except Request Reading :=
  if r.ended then r.takePath arg
  else
    match arg.toList with
    | ['-', '-'] => .ok { r with ended := true }
    | '-' :: '-' :: text =>
      let name := String.ofList (text.takeWhile (· != '='))
      match text.dropWhile (· != '=') with
      | [] => r.takeName name none
      | _ :: value => r.takeName name (some (String.ofList value))
    | '-' :: c :: letters => r.takeLetters (c :: letters)
    | _ => r.takePath arg

def finish (r : Reading) : Request :=
  if r.path = some "" then .refused .emptyPath else .run r.verbosity r.path

end Reading

/-- Arguments are taken from left to right; the first that is answered at once ends the reading. -/
def Request.ofArguments (args : List String) : Request :=
  match args.foldlM Reading.take {} with
  | .ok r => r.finish
  | .error answer => answer

end ConsoleHost.Command
