import ElementBinding.Proofs.Binding.Populate
import ElementBinding.Registry
import ElementBinding.Spec

/-!
# Generated binders

The binder that is meant by a specification takes the instance of its owner, and its constructor
assigns the fields in order. An owner without an entry can be given this one.
-/
namespace ElementBinding.Spec

def pairs (spec : Spec) : List (String × Int) :=
  spec.fields.map fun field => (field.name, field.viewId)

def binderClass (spec : Spec) (profile : Profile) (identity : Identity) : Class where
  identity
  name := spec.binderName
  path := spec.binderName
  moduleName := spec.binderModule
  constructor := some (.written ⟨[{ name := profile.targetParameter }]⟩
    (Host.populateSteps profile.lookupMethod spec.pairs))

def registration (spec : Spec) (profile : Profile) (identity : Identity) (owner : Class) :
    Registration :=
  ⟨owner, spec.binderClass profile identity, spec.pairs⟩

@[simp] theorem registration_qualifiedName (spec : Spec) (profile : Profile) (identity : Identity)
    (owner : Class) :
    (spec.registration profile identity owner).binder.qualifiedName = spec.binderQualifiedName :=
  rfl

end ElementBinding.Spec
