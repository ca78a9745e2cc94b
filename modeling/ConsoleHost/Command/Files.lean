/-! A tree of files, and what reading a path in it gives. -/
namespace ConsoleHost.Command

inductive FileError where
  | notFound
  | notDirectory
  | isDirectory
  | noSpace
  | nameTooLong
  | other (text : String)
  deriving DecidableEq, Repr

def FileError.text : FileError → String
  | notFound => "No such file or directory (os error 2)"
  | notDirectory => "Not a directory (os error 20)"
  | isDirectory => "Is a directory (os error 21)"
  | noSpace => "No space left on device (os error 28)"
  | nameTooLong => "File name too long (os error 36)"
  | other text => text

/-- A file with its contents, or a directory with its entries. -/
inductive FileTree (α : Type) where
  | file (contents : α)
  | directory (entries : List (String × FileTree α))

/-- The most bytes of one name in a directory. -/
def maxNameSize : Nat := 255

/-- The most bytes of a path. -/
def maxPathSize : Nat := 4095

namespace FileTree

variable {α : Type}

/-- Adds a file under the names that lead to it, all but the last of which are directories already. -/
def add (contents : α) : List String → FileTree α → FileTree α
  | [name], directory entries => directory ((name, file contents) :: entries)
  | name :: rest, directory entries =>
    directory (entries.map fun (n, t) => if n = name then (n, add contents rest t) else (n, t))
  | _, here => here

/-- Follows the parts of a path from a place in the tree, `above` being the directories that hold
it, the nearest first. Above the root there is nothing but the root. -/
def walk (here : FileTree α) (above : List (FileTree α)) :
    List String → Except FileError (FileTree α)
  | [] => .ok here
  | part :: rest =>
    match here with
    | file _ => .error .notDirectory
    | directory entries =>
      if part = "" ∨ part = "." then walk here above rest
      else if part = ".." then
        match above with
        | [] => walk here [] rest
        | parent :: above => walk parent above rest
      else if maxNameSize < part.utf8ByteSize then .error .nameTooLong
      else
        match entries.lookup part with
        | none => .error .notFound
        | some next => walk next (here :: above) rest

/-- The parts between the slashes of a path, after the letters of a part that are already known, the
last first. -/
def partsAfter (known : List Char) : List Char → List String
  | [] => [.ofList known.reverse]
  | c :: rest =>
    if c = '/' then .ofList known.reverse :: partsAfter [] rest else partsAfter (c :: known) rest

/-- What is at a path in the tree with this root: with a slash at its start the path starts from
there, and otherwise from the working directory, to which the given names lead. -/
def find (root : FileTree α) (working : List String) (path : String) :
    Except FileError (FileTree α) :=
  if path = "" then .error .notFound
  else if maxPathSize < path.utf8ByteSize then .error .nameTooLong
  else
    let parts := partsAfter [] path.toList
    walk root [] (if path.toList.head? = some '/' then parts else working ++ parts)

/-- The contents of the file at a path. -/
def read (root : FileTree α) (working : List String) (path : String) : Except FileError α :=
  match root.find working path with
  | .ok (file contents) => .ok contents
  | .ok (directory _) => .error .isDirectory
  | .error e => .error e

end FileTree
end ConsoleHost.Command
