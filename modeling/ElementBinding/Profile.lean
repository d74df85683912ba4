/-!
# Conventions of a generation

How a marker is spelled in scanned sources, how binders and their modules are named, and how a
binder addresses its host. Generator and runtime resolver share one profile.
-/
namespace ElementBinding

/-- The naming and emission conventions of one generation. -/
structure Profile where
  id : String
  markerName : String := "bind_view"
  markerKeyword : String := "view_id"
  binderSuffix : String := "Binding"
  moduleSuffix : String := "_binding"
  lookupMethod : String := "find_by_identifier"
  targetParameter : String := "target"

/-- The profile used where none is given. -/
def Profile.standard : Profile := { id := "python-treesitter-v0" }

end ElementBinding
