import TreeRules.Text.Quoted

/-!
# Script files

A script is found by the name of its file. Names are written plainly before they are used: single
slashes, no `.` between them, but every `..` kept, since what lies above a directory is for the file
system to say. `FileTree` is a file system of that kind held in memory: its files and directories,
each with the names on the way to it, and the working directory, where the way of a name begins
that has no slash in front.
-/

namespace TreeRules

/-- Why a file cannot be read. -/
inductive FileFault where
  /-- there is nothing of this name -/
  | notFound
  /-- the name leads through a file -/
  | notDirectory
  /-- the name is a directory's -/
  | isDirectory
  /-- the name, or a part of it, is longer than any may be -/
  | nameTooLong
  /-- something else, with its number and wording -/
  | other (number : Nat) (wording : String)
deriving DecidableEq

namespace FileFault

/-- The number of a fault. -/
def number : FileFault → Nat
  | .notFound => 2
  | .notDirectory => 20
  | .isDirectory => 21
  | .nameTooLong => 36
  | .other number _ => number

/-- The wording of a fault. -/
def wording : FileFault → String
  | .notFound => "No such file or directory"
  | .notDirectory => "Not a directory"
  | .isDirectory => "Is a directory"
  | .nameTooLong => "File name too long"
  | .other _ wording => wording

/-- The message for a file of this name that cannot be read. -/
def message (fault : FileFault) (path : String) : String :=
  s!"Error reading {path}: [Errno {fault.number}] " ++ fault.wording ++ ": " ++ Text.quoted path

end FileFault

namespace Path

/-- The names between the slashes. -/
def parts : List Char → List (List Char)
  | [] => [[]]
  | c :: cs =>
    if c = '/' then [] :: parts cs
    else
      match parts cs with
      | [] => [[c]]
      | part :: rest => (c :: part) :: rest

/-- The slashes a name keeps at its start: two if there are exactly two, one if there is any other
number of them. -/
def root : List Char → List Char
  | '/' :: '/' :: '/' :: _ => ['/']
  | '/' :: '/' :: _ => ['/', '/']
  | '/' :: _ => ['/']
  | _ => []

/-- The names that count: neither empty nor `.`. -/
def steps (cs : List Char) : List (List Char) :=
  (parts cs).filter fun part => part != [] && part != ['.']

/-- A file name written plainly. -/
def plain (name : String) : String :=
  let cs := name.toList
  let written := root cs ++ (['/'].intercalate (steps cs))
  if written.isEmpty then "." else String.ofList written

end Path

/-- The names on the way from the root to a file or directory. -/
abbrev Way := List (List Char)

/-- The way one name further: `..` leads back to where the way came from. -/
def Way.followed (way : Way) (name : List Char) : Way :=
  if name = ['.', '.'] then way.dropLast else way ++ [name]

/-- Directories and files, by the way to each. -/
structure FileTree where
  /-- the working directory -/
  home : Way
  /-- the directories other than those on the way to the working directory -/
  directories : List Way := []
  /-- the files and what they hold, those written last first -/
  files : List (Way × String) := []

namespace FileTree

/-- A tree with no more than a working directory of this name. -/
def workingIn (name : String) : FileTree := { home := Path.steps name.toList }

/-- Where the way of a name begins. -/
def start (t : FileTree) (name : String) : Way :=
  if (Path.root name.toList).isEmpty then t.home else []

/-- Go on by these names and make a directory of each. -/
def enter (t : FileTree) (way : Way) : List (List Char) → FileTree × Way
  | [] => (t, way)
  | name :: rest =>
    let way := way.followed name
    enter { t with directories := way :: t.directories } way rest

/-- Make a directory of this name, and those on the way to it. -/
def makeDirectory (t : FileTree) (name : String) : FileTree :=
  (t.enter (t.start name) (Path.steps name.toList)).1

/-- Write a file of this name, and make the directories on the way to it. It takes the place of an
older file. -/
def write (t : FileTree) (name text : String) : FileTree :=
  let steps := Path.steps name.toList
  let (t, way) := t.enter (t.start name) steps.dropLast
  match steps.getLast? with
  | none => t
  | some last => { t with files := (way.followed last, text) :: t.files }

/-- Where a walk through the tree has come to. -/
inductive Place where
  /-- a directory -/
  | directory (way : Way)
  /-- a file -/
  | file (text : String)

/-- The most bytes in one name. -/
def longestName : Nat := 255

/-- The most bytes in all the names and slashes together. -/
def longestPath : Nat := 4095

/-- The fault of a name under which there is nothing. -/
def missing (name : List Char) : FileFault :=
  if longestName < (String.ofList name).utf8ByteSize then .nameTooLong else .notFound

/-- Is there a directory at the end of this way? -/
def isDirectory (t : FileTree) (way : Way) : Bool :=
  way.isPrefixOf t.home || t.directories.contains way

/-- What lies one name further. -/
def follow (t : FileTree) (place : Place) (name : List Char) : Except FileFault Place :=
  match place with
  | .file _ => .error .notDirectory
  | .directory way =>
    let way := way.followed name
    match t.files.lookup way with
    | some text => .ok (.file text)
    | none => if t.isDirectory way then .ok (.directory way) else .error (missing name)

/-- What a file of this name holds. -/
def read (t : FileTree) (name : String) : Except FileFault String := do
  if longestPath < name.utf8ByteSize then throw .nameTooLong
  match ← (Path.steps name.toList).foldlM t.follow (.directory (t.start name)) with
  | .file text => return text
  | .directory _ => throw .isDirectory

end FileTree

end TreeRules
