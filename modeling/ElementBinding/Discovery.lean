import ElementBinding.Glob
import ElementBinding.Sink
/-!
# Discovery

The hand-written modules below a source root, sorted by path. Hidden and build directories are not
entered, excluded paths and generated units are left out, and the file of a package itself has the
name of the package.
-/
namespace ElementBinding

inductive NameFault where
  | notBelow (path base : Path)
  | emptyName (path : Path)

def NameFault.message : NameFault → String
  | notBelow path base =>
    Text.quoted path.text ++ " is not in the subpath of " ++ Text.quoted base.text ++
      " OR one path is relative and the other is absolute."
  | emptyName path => "PosixPath(" ++ Text.quoted path.text ++ ") has an empty name"

/-- The file name of a package's own module. -/
def packageFile : String := "__init__.py"

/-- The dotted name of the module in a file, by its path relative to the source root. -/
def moduleNameOf (path : Path) : String :=
  let stem := Path.stem path.name
  ".".intercalate (path.parts.dropLast ++ if stem = "__init__" then [] else [stem])

def moduleName (path root : Path) : Except NameFault String :=
  match path.relativeTo root with
  | .error _ => .error (.notBelow path root)
  | .ok relative =>
    if relative.parts.isEmpty then .error (.emptyName relative) else .ok (moduleNameOf relative)

structure SourceFile where
  path : Path
  moduleName : String
  isPackage : Bool

def isIgnoredByDiscovery (directory : String) : Bool :=
  isIgnoredBySink directory || directory = "build" || directory = "dist"

/-- The files below a source root that may hold modules, relative to it and sorted. -/
def candidateFiles (tree : FileTree) (root : Path) : List Path :=
  (tree.below root ".py").filter fun path => !path.parts.dropLast.any isIgnoredByDiscovery

def isExcluded (exclude : List String) (path : Path) : Bool :=
  exclude.any fun pattern => Glob.admits pattern path.text

/-- The files below a source root that are left out by a pattern. -/
def excludedFiles (tree : FileTree) (root : Path) (exclude : List String) : List Path :=
  (candidateFiles tree root).filter (isExcluded exclude)

/-- The hand-written modules below a source root. -/
def discover (tree : FileTree) (root : Path) (exclude : List String) :
    Except FileFault (List SourceFile) := do
  let files := (candidateFiles tree root).filter fun path => !isExcluded exclude path
  let handWritten ← files.filterM fun path => do
    let octets ← tree.read (root ++ path)
    return !isGenerated (readFirstLine octets)
  return handWritten.filterMap fun path =>
    let name := moduleNameOf path
    if name = "" then none else some ⟨root ++ path, name, path.name = packageFile⟩

end ElementBinding
