import ElementBinding.Text.Lines
/-!
# Paths

A path is a root mark and a list of components. Joining segments drops empty components and single
dots, and a segment with a root mark restarts the path; double dots are kept. Paths are ordered by
their components, not by their text.
-/
namespace ElementBinding

/-- A path: the root mark, which is empty for a relative path, and the components after it. -/
structure Path where
  root : String := ""
  parts : List String := []
deriving DecidableEq

namespace Path
open ElementBinding.Text

/-- The root mark of a segment and what follows it. Exactly two slashes are a root of their own. -/
def splitRoot (segment : List Char) : String × List Char :=
  let body := segment.dropWhile (· = '/')
  let slashes := segment.length - body.length
  (if slashes = 0 then "" else if slashes = 2 then "//" else "/", body)

/-- The components of a segment without its root mark. -/
def components (body : List Char) : List String :=
  ((splitAt '/' body).filter fun part => part ≠ [] && part ≠ ['.']).map String.ofList

def extend (path : Path) (segment : String) : Path :=
  let (root, body) := splitRoot segment.toList
  if root = "" then { path with parts := path.parts ++ components body }
  else ⟨root, components body⟩

/-- The path that segments join to. -/
def ofSegments (segments : List String) : Path := segments.foldl extend {}

/-- The path that a text spells. -/
def ofText (text : String) : Path := ofSegments [text]

/-- One path after another; a path with a root mark stands for itself. -/
def append (base path : Path) : Path :=
  if path.root = "" then { base with parts := base.parts ++ path.parts } else path

instance : Append Path := ⟨append⟩

/-- The text of a path; the empty relative path is a dot. -/
def text (path : Path) : String :=
  let body := path.root ++ "/".intercalate path.parts
  if body = "" then "." else body

/-- The components that comparison looks at. -/
def sortKey (path : Path) : List String :=
  if path.root = "" then path.parts else path.root :: path.parts

def le (a b : Path) : Bool := !(b.sortKey < a.sortKey)

def name (path : Path) : String := path.parts.getLast?.getD ""

def parent (path : Path) : Path := { path with parts := path.parts.dropLast }

structure NotBelow where
  path : Path
  base : Path

def relativeTo (path base : Path) : Except NotBelow Path :=
  if path.root = base.root && base.parts.isPrefixOf path.parts then
    .ok { parts := path.parts.drop base.parts.length }
  else .error ⟨path, base⟩

/-- A name without its suffix: the last dot and what follows, if neither side of it is empty. -/
def stem (name : String) : String :=
  let chars := name.toList
  let suffix := chars.reverse.takeWhile (· ≠ '.')
  let rest := chars.reverse.drop suffix.length
  match rest with
  | '.' :: before =>
    if before ≠ [] && suffix ≠ [] then String.ofList before.reverse else name
  | _ => name

end Path

end ElementBinding
