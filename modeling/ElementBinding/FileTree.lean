import ElementBinding.Path
import ElementBinding.Text.Quoted
import ElementBinding.Text.Utf8
/-!
# File trees

A tree of directories and files, seen from the directory in which a pass runs. A path is followed
component by component: all but its last component must be directories, and a double dot leads back
to the directory above. Changes are made in steps, so that what stands after an interruption can be
told.

The tree is all that is known of the file system. What lies outside of it is not modelled: paths
with a root, which lead to nothing here, and paths that a double dot takes above the directory in
which the pass runs, which stay there. There are no links, and no file or directory is closed to the
pass.
-/
namespace ElementBinding
open ElementBinding.Text

inductive Entry where
  | directory
  | file (content : Octets)
deriving DecidableEq

/-- The components from the root of the tree down to a place. -/
abbrev Location := List String

/-- A file tree: its places other than the root, each once. -/
structure FileTree where
  entries : List (Location × Entry) := []
deriving DecidableEq

inductive Condition where
  | notFound
  | alreadyExists
  | notDirectory
  | isDirectory
deriving DecidableEq

namespace Condition

/-- The number by which a condition is known. -/
def number : Condition → Nat
  | notFound => 2
  | alreadyExists => 17
  | notDirectory => 20
  | isDirectory => 21

def text : Condition → String
  | notFound => "No such file or directory"
  | alreadyExists => "File exists"
  | notDirectory => "Not a directory"
  | isDirectory => "Is a directory"

end Condition

inductive FileFault where
  | at (condition : Condition) (path : Path)
  /-- A failure known by its message only. -/
  | reported (message : String)
deriving DecidableEq

def FileFault.message : FileFault → String
  | .at condition path =>
    "[Errno " ++ toString condition.number ++ "] " ++ condition.text ++ ": " ++ quoted path.text
  | reported message => message

namespace FileTree

def lookup (tree : FileTree) (location : Location) : Option Entry :=
  if location = [] then some .directory
  else (tree.entries.find? (·.1 = location)).map (·.2)

/-- The tree with an entry at a place, in the stead of what stood there. -/
def put (tree : FileTree) (location : Location) (entry : Entry) : FileTree :=
  if tree.entries.any (·.1 = location) then
    ⟨tree.entries.map fun (place, old) => if place = location then (place, entry) else (place, old)⟩
  else ⟨tree.entries ++ [(location, entry)]⟩

/-- The tree without a place and all that is below it. -/
def erase (tree : FileTree) (location : Location) : FileTree :=
  ⟨tree.entries.filter fun (place, _) => !location.isPrefixOf place⟩

/-- Follows components from a place. -/
def follow (tree : FileTree) : Location → List String → Except Condition Location
  | here, [] => .ok here
  | here, component :: rest =>
    match tree.lookup here with
    | none => .error .notFound
    | some (.file _) => .error .notDirectory
    | some .directory =>
      tree.follow (if component = ".." then here.dropLast else here ++ [component]) rest

/-- The place a path leads to, whether anything stands there or not. A path with a root leads out of
what is known. -/
def locate (tree : FileTree) (path : Path) : Except Condition Location :=
  if path.root = "" then tree.follow [] path.parts else .error .notFound

/-- What stands where a path leads to. -/
def find? (tree : FileTree) (path : Path) : Option Entry :=
  match tree.locate path with
  | .ok location => tree.lookup location
  | .error _ => none

def isDirectory (tree : FileTree) (path : Path) : Bool := tree.find? path = some .directory

def read (tree : FileTree) (path : Path) : Except FileFault Octets :=
  match tree.locate path with
  | .error condition => .error (.at condition path)
  | .ok location =>
    match tree.lookup location with
    | none => .error (.at .notFound path)
    | some .directory => .error (.at .isDirectory path)
    | some (.file content) => .ok content

/-- The paths below a directory whose names end in a given way, relative to it and sorted. Nothing
if the path leads to no directory. -/
def below (tree : FileTree) (root : Path) (ending : String) : List Path :=
  match tree.locate root with
  | .error _ => []
  | .ok location =>
    let paths := tree.entries.filterMap fun (place, _) =>
      if location.isPrefixOf place && location.length < place.length then
        let path : Path := { parts := place.drop location.length }
        if ending.toList.isSuffixOf path.name.toList then some path else none
      else none
    if tree.lookup location = some .directory then paths.mergeSort Path.le else []

inductive Step where
  /-- Makes a directory, unless it is there. -/
  | makeDirectory (path : Path)
  /-- Opens a file for writing, which empties it or creates it. -/
  | openFile (path : Path)
  | append (path : Path) (octets : Octets)
  | delete (path : Path)

def apply (tree : FileTree) (step : Step) : Except FileFault FileTree :=
  match step with
  | .makeDirectory path =>
    match tree.locate path with
    | .error condition => .error (.at condition path)
    | .ok location =>
      match tree.lookup location with
      | none => .ok (tree.put location .directory)
      | some .directory => .ok tree
      | some (.file _) => .error (.at .alreadyExists path)
  | .openFile path =>
    match tree.locate path with
    | .error condition => .error (.at condition path)
    | .ok location =>
      match tree.lookup location with
      | some .directory => .error (.at .isDirectory path)
      | _ => .ok (tree.put location (.file []))
  | .append path octets =>
    match tree.locate path with
    | .error condition => .error (.at condition path)
    | .ok location =>
      match tree.lookup location with
      | some (.file content) => .ok (tree.put location (.file (content ++ octets)))
      | some .directory => .error (.at .isDirectory path)
      | none => .error (.at .notFound path)
  | .delete path =>
    match tree.locate path with
    | .error condition => .error (.at condition path)
    | .ok location =>
      match tree.lookup location with
      | some (.file _) => .ok (tree.erase location)
      | some .directory => .error (.at .isDirectory path)
      | none => .error (.at .notFound path)

/-- Takes steps until one fails: the tree after the last that did not, and the failure. -/
def applyAll (tree : FileTree) : List Step → FileTree × Option FileFault
  | [] => (tree, none)
  | step :: rest =>
    match tree.apply step with
    | .ok next => next.applyAll rest
    | .error fault => (tree, some fault)

/-- The paths that the beginnings of a list of components spell, the shortest first. -/
def beginnings (root : String) (parts : List String) : List Path :=
  (List.range parts.length).map fun n => ⟨root, parts.take (n + 1)⟩

/-- The steps that make a directory with all directories above it. What is in the way of them is
met by the first step. -/
def makeDirectories (tree : FileTree) (path : Path) : List Step :=
  match tree.find? path, tree.locate path with
  | some .directory, _ => []
  | some (.file _), _ => [.makeDirectory path]
  | none, .error .notDirectory => [.makeDirectory path]
  | none, _ =>
    ((beginnings path.root path.parts).filter fun beginning => !tree.isDirectory beginning).map
      .makeDirectory

/-- The steps that write a file, making the directories above it. -/
def writeSteps (tree : FileTree) (path : Path) (octets : Octets) : List Step :=
  tree.makeDirectories path.parent ++ [.openFile path, .append path octets]

/-- The tree with a file of some content, or a directory, and the directories above it. -/
def place (tree : FileTree) (path : Path) (content : Option Octets) : FileTree :=
  match content with
  | some octets => (tree.applyAll (tree.writeSteps path octets)).1
  | none => (tree.applyAll (tree.makeDirectories path)).1

end FileTree

end ElementBinding
