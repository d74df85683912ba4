import ElementBinding.Declaration
/-!
# Binding specifications

Groups scanned fields into one specification per owner. A binder's name is never altered to make it
unique: owners that claim one binder module are all rejected, and so is an owner whose binder would
replace a module that was not generated.
-/
namespace ElementBinding
open ElementBinding.Naming

/-- All that is needed to write one binder. -/
structure Spec where
  ownerModule : String
  ownerName : String
  binderModule : String
  binderName : String
  fields : List Field
deriving DecidableEq

namespace Spec

def ownerQualifiedName (spec : Spec) : String :=
  Owner.qualifiedName ⟨spec.ownerModule, spec.ownerName, false⟩

def binderQualifiedName (spec : Spec) : String := spec.binderModule ++ "." ++ spec.binderName

def unitPath (spec : Spec) : String := modulePath spec.binderModule

end Spec

namespace DeclaredClass

/-- The specification that the fields of a class give, however many they are. -/
def spec (declared : DeclaredClass) (profile : Profile) : Spec where
  ownerModule := declared.owner.moduleName
  ownerName := declared.owner.name
  binderModule := declared.owner.binderModule profile
  binderName := declared.owner.binderName profile
  fields := declared.fields

/-- The specification of a class that is sound and has fields. -/
def candidate? (profile : Profile) (declared : DeclaredClass) : Option (DeclaredClass × Spec) :=
  if declared.fault.isNone && !declared.fields.isEmpty then
    some (declared, declared.spec profile)
  else none

end DeclaredClass

/-- The outcome of building the specifications of one pass. -/
structure Build where
  /-- What is to be written, in the order of the classes. -/
  specs : List Spec
  /-- Classes without fields. -/
  skipped : List DeclaredClass
  /-- Classes that are faulty in themselves. -/
  faulty : List (DeclaredClass × Fault)
  /-- Classes whose binders have no free name. -/
  colliding : List (DeclaredClass × Fault)

/-- The classes that get no binder though they may need one, each with the reason. -/
def Build.rejected (build : Build) : List (DeclaredClass × Fault) := build.faulty ++ build.colliding

/-- The owners that claim a binder module, in order of their names. -/
def claimants (candidates : List (DeclaredClass × Spec)) (binderModule : String) : List String :=
  ((candidates.filter fun (_, spec) => spec.binderModule = binderModule).map
    fun (declared, _) => declared.owner.qualifiedName).mergeSort

/-- Why a class cannot have the binder it would get. -/
def collision? (candidates : List (DeclaredClass × Spec)) (known : List String)
    (declared : DeclaredClass) (spec : Spec) : Option Fault :=
  let owners := claimants candidates spec.binderModule
  let fault (cause : Cause) : Fault := ⟨cause, declared.owner.moduleName, some declared.line⟩
  if 1 < owners.length then some (fault (.shared spec.binderModule owners))
  else if known.contains spec.binderModule then some (fault (.handWritten spec.binderModule))
  else none

/-- Builds the specifications of one pass over all its classes. No binder module may be one of the
known modules, which were not generated. -/
def build (classes : List DeclaredClass) (profile : Profile) (known : List String) : Build :=
  let candidates := classes.filterMap (DeclaredClass.candidate? profile)
  let collision? := collision? candidates known
  { specs := candidates.filterMap fun (declared, spec) =>
      if (collision? declared spec).isNone then some spec else none
    skipped := classes.filter fun declared => declared.fault.isNone && declared.fields.isEmpty
    faulty := classes.filterMap fun declared => declared.fault.map (declared, ·)
    colliding := candidates.filterMap fun (declared, spec) =>
      (collision? declared spec).map (declared, ·) }

end ElementBinding
