import ElementBinding.Binding
import ElementBinding.Proofs.Binding.Installation

/-!
# Round trips

Generator and resolver name the module of a binder alike, so binding a host for the first time
imports the unit that was rendered for its class, and later calls find the entry it made. Every call
runs the constructor anew: each field holds what its own look-up gave in the last call, and an
element that the host does not know stops every call at the same field.
-/
namespace ElementBinding
open ElementBinding.Text ElementBinding.Naming ElementBinding.Grammar

namespace Class

/-- A specification of a class has the markers of the class for its fields, each of a type of its
own or of none. -/
def Gives (owner : Class) (isPackage : Bool) (profile : Profile) (spec : Spec) : Prop :=
  ∃ fields : List Field,
    fields.map (fun field => (field.name, field.viewId)) = owner.declared ∧
    DeclaredClass.spec? { owner := ⟨owner.moduleName, owner.name, isPackage⟩, fields } profile =
      .ok spec

theorem Gives.common {owner : Class} {isPackage : Bool} {profile : Profile} {spec : Spec}
    (h : owner.Gives isPackage profile spec) :
    owner.declared ≠ [] ∧ spec.ownerModule = owner.moduleName ∧ spec.ownerName = owner.name ∧
      spec.binderModule = Owner.binderModule ⟨owner.moduleName, owner.name, isPackage⟩ profile ∧
      spec.binderName = owner.name ++ profile.binderSuffix ∧ spec.pairs = owner.declared := by
  obtain ⟨fields, hfields, hspec⟩ := h
  unfold DeclaredClass.spec? at hspec
  split at hspec
  · simp at hspec
  · rename_i hne
    obtain rfl := Except.ok.inj hspec
    refine ⟨fun hnone => hne ?_, rfl, rfl, rfl, rfl, hfields⟩
    rw [hnone, List.map_eq_nil_iff] at hfields
    simp [hfields]

/-- The markers of a class can be bound by a generated binder: their fields differ, keep their names
within the binder, and leave the look-up method, which instances have, as it is. -/
structure Bindable (owner : Class) : Prop where
  distinct : (owner.declared.map Prod.fst).Nodup
  plain : ∀ field ∈ owner.declared,
    privateName (owner.name ++ Profile.standard.binderSuffix) field.1 = field.1
  apart : ∀ field ∈ owner.declared, field.1 ≠ Profile.standard.lookupMethod
  finder : owner.attribute? Profile.standard.lookupMethod = some .finder

end Class

/-- A class has a rendered unit whose module is there but has not been imported. The module of the
class is imported and defines it, the packages around the unit can be imported, and the class has no
entry when they are. -/
structure Program.Offers (program : Program) (normal : String → String) (owner : Class)
    (spec : Spec) (identity : Identity) : Prop extends program.HasFunctions where
  specified : ∃ isPackage, Pairs.get? program.loaded owner.moduleName = some isPackage ∧
    owner.Gives isPackage .standard spec
  defined : Pairs.get? program.classes (owner.moduleName, owner.name) = some owner
  importable : ∃ unit, spec.render .standard = .ok unit ∧
    Pairs.get? program.modules unit.moduleName = some (unit.importable normal identity)
  fresh : program.isLoaded spec.binderModule = false
  reachable : ∃ ready, (importModule (packageOf spec.binderModule)).from program = (.ok ⟨⟩, ready) ∧
    (packageOf spec.binderModule ≠ "" →
      ready.isLoadedPackage (packageOf spec.binderModule) = true) ∧
    ready.registry.lookup? owner = none

private theorem registryIn_default (program : Program) :
    BindOptions.registryIn {} program = program.registry := rfl

private theorem findEntry_of_lookup {program : Program} {owner : Class} {entry : Registration}
    (h : program.registry.lookup? owner = some entry) :
    (findEntry {} owner).from program = (.ok (some entry), program) := by
  rw [findEntry, Action.from_bind_of_ok (Action.from_get program), registryIn_default, h]
  rfl

private theorem bind_eq_of_findEntry {program after : Program} {host : Host}
    {entry : Registration}
    (h : (findEntry {} host.type).from program = (.ok (some entry), after))
    (hentry : after.registry.lookup? host.type = some entry) :
    bind {} program host = bind {} after host := by
  unfold bind
  simp only [h, findEntry_of_lookup hentry]

namespace Program.Offers
variable {program : Program} {normal : String → String} {owner : Class} {spec : Spec}
  {identity : Identity}

private theorem binderModule_ne_empty (owner : Owner) : owner.binderModule .standard ≠ "" := by
  intro h
  unfold Owner.binderModule at h
  dsimp only at h
  generalize (if owner.isPackage then owner.moduleName else packageOf owner.moduleName) = package
    at h
  split at h <;> simp [Profile.standard] at h

private theorem exists_ready (h : program.Offers normal owner spec identity) :
    ∃ ready, (importModule (packageOf spec.binderModule)).from program = (.ok ⟨⟩, ready) ∧
      (packageOf spec.binderModule ≠ "" →
        ready.isLoadedPackage (packageOf spec.binderModule) = true) ∧
      ready.registry.lookup? owner = none ∧ Extends program ready := by
  obtain ⟨ready, himport, hpackage, hnone⟩ := h.reachable
  have hextends := importModule_extending (packageOf spec.binderModule) program
  rw [himport] at hextends
  exact ⟨ready, himport, hpackage, hnone, hextends⟩

private theorem importModule_from (h : program.Offers normal owner spec identity)
    (hnormal : IsNormalForm normal) (hspec : spec.Importable normal) :
    ∃ after, (importModule spec.binderModule).from program = (.ok ⟨⟩, after) ∧
      after.registry.lookup? owner = some (spec.entered normal identity owner) := by
  obtain ⟨isPackage, -, hgiven⟩ := h.specified
  obtain ⟨-, hmodule, hname, hbinder, -, -⟩ := hgiven.common
  obtain ⟨unit, hrender, himportable⟩ := h.importable
  obtain ⟨ready, himport, hpackage, hnone, hextends⟩ := h.exists_ready
  have hne : spec.binderModule ≠ "" := hbinder ▸ binderModule_ne_empty _
  have hunit : unit.moduleName = spec.binderModule := (Spec.render_ok hrender).2.1
  have hclass : Pairs.get? ready.classes (spec.ownerModule, spec.ownerName) = some owner := by
    rw [hextends.classes, hmodule, hname]
    exact h.defined
  have hrun := run_importable hnormal hspec hrender (h.toHasFunctions.of_extends hextends) hclass
    hnone identity
  rw [hunit] at himportable hrun
  refine ⟨_, (importModule_found hne h.fresh himport hpackage himportable).trans hrun, ?_⟩
  exact Registry.lookup?_insert_self ready.registry (spec.entered normal identity owner)

theorem binderModuleIn_eq (h : program.Offers normal owner spec identity) :
    binderModuleIn program owner .standard = spec.binderModule := by
  obtain ⟨isPackage, hloaded, hspec⟩ := h.specified
  obtain ⟨-, -, -, hbinder, -, -⟩ := hspec.common
  have hflag : program.isLoadedPackage owner.moduleName = isPackage := by
    simp [isLoadedPackage, hloaded]
  rw [hbinder, binderModuleIn, hflag]

/-- The first call for a class imports its unit and finds the entry this makes. -/
theorem findEntry_from (h : program.Offers normal owner spec identity)
    (hnormal : IsNormalForm normal) (hspec : spec.Importable normal) :
    ∃ after, (findEntry {} owner).from program =
        (.ok (some (spec.entered normal identity owner)), after) ∧
      after.registry.lookup? owner = some (spec.entered normal identity owner) := by
  obtain ⟨isPackage, -, hgiven⟩ := h.specified
  have hdeclared : owner.declared.isEmpty = false := by
    simpa using hgiven.common.1
  obtain ⟨after, himport, hentry⟩ := h.importModule_from hnormal hspec
  obtain ⟨ready, -, -, hnone, hextends⟩ := h.exists_ready
  have hautoload : (autoload {} owner).from program =
      (.ok (spec.entered normal identity owner), after) := by
    rw [autoload, Action.from_bind_of_ok (Action.from_get program), h.binderModuleIn_eq,
      Action.from_bind_of_ok (Action.from_adapt_of_ok himport _),
      Action.from_bind_of_ok (Action.from_get after), registryIn_default, hentry]
    rfl
  have hunclaimed : program.registry.lookup? owner = none := hextends.unclaimed .own owner hnone
  refine ⟨after, ?_, hentry⟩
  rw [findEntry, Action.from_bind_of_ok (Action.from_get program), registryIn_default, hunclaimed]
  simp only [hdeclared]
  exact Action.from_bind_of_ok hautoload _

/-- Installing the unit of a class of an imported module offers it, if the package around the unit
is imported. -/
theorem of_install {installed : Program} {unit : BinderUnit} {isPackage : Bool}
    (h : program.install spec .standard normal identity = .ok (installed, unit))
    (hfunctions : program.HasFunctions)
    (hloaded : Pairs.get? program.loaded owner.moduleName = some isPackage)
    (hspec : owner.Gives isPackage .standard spec)
    (hdefined : Pairs.get? program.classes (owner.moduleName, owner.name) = some owner)
    (hfresh : program.isLoaded spec.binderModule = false)
    (hpackage : packageOf spec.binderModule ≠ "" →
      program.isLoadedPackage (packageOf spec.binderModule) = true)
    (hnone : program.registry.lookup? owner = none) :
    installed.Offers normal owner spec identity := by
  obtain ⟨hrender, rfl⟩ := install_ok h
  refine ⟨⟨hfunctions.cast, hfunctions.registration⟩, ⟨isPackage, hloaded, hspec⟩, hdefined,
    ⟨unit, hrender, Pairs.get?_put_self _ _ _⟩, hfresh,
    program.declareModule unit.moduleName (unit.importable normal identity), ?_, hpackage, hnone⟩
  by_cases hempty : packageOf spec.binderModule = ""
  · rw [hempty, importModule, enclosing_empty]
    rfl
  · have hflag : Pairs.get? program.loaded (packageOf spec.binderModule) = some true := by
      simpa [isLoadedPackage] using hpackage hempty
    exact importModule_of_isLoaded hempty (Option.isSome_of_eq_some hflag)

end Program.Offers

/-- What successive calls return, and the program and the host that they leave. -/
def bindTimes (options : BindOptions) :
    Nat → Program → Host → List (Except Raised BindResult) × Program × Host
  | 0, program, host => ([], program, host)
  | calls + 1, program, host =>
    let outcome := bind options program host
    let (results, last) := bindTimes options calls outcome.program outcome.host
    (outcome.result :: results, last)

private theorem bindTimes_eq {program : Program} {result : Except Raised BindResult}
    {change : Host → Host} {good : Host → Prop} (hkeeps : ∀ host, good host → good (change host))
    (hcall : ∀ host, good host → bind {} program host = ⟨result, program, change host⟩)
    {host : Host} (h : good host) (calls : Nat) :
    bindTimes {} calls program host =
      (List.replicate calls result, program, change^[calls] host) := by
  induction calls generalizing host with
  | zero => rfl
  | succ calls ih =>
    simp only [bindTimes, hcall host h, ih (hkeeps host h)]
    rfl

namespace Registration
variable {entry : Registration} {declared : List (String × Int)} {host last : Host}

private theorem bind_from_ok (hcurrent : entry.isCurrent declared = true)
    (h : (Host.populate entry.binder).from host = (.ok ⟨⟩, last)) :
    (entry.bind declared).from host = (.ok ⟨⟩, last) := by
  rw [Registration.bind, if_pos hcurrent]
  exact Action.from_adapt_of_ok h _

private theorem bind_from_error {raised : Raised} (hcurrent : entry.isCurrent declared = true)
    (hends : raised.endsProgram = false)
    (h : (Host.populate entry.binder).from host = (.error raised, last)) :
    (entry.bind declared).from host =
      (.error (.failed (.instantiation entry.binder.qualifiedName raised)), last) := by
  rw [Registration.bind, if_pos hcurrent, Action.from_adapt_of_error h]
  simp [hends]

end Registration

/-- A call fails with what the binder of the entry raises. -/
private theorem bind_eq_of_populate_error {program : Program} {host last : Host}
    {entry : Registration} {raised : Raised}
    (hentry : program.registry.lookup? host.type = some entry)
    (hcurrent : entry.isCurrent host.type.declared = true) (hends : raised.endsProgram = false)
    (h : (Host.populate entry.binder).from host = (.error raised, last)) :
    bind {} program host = ⟨.ok (.failed host.type.qualifiedName (some entry.binder.qualifiedName)
      (.instantiation entry.binder.qualifiedName raised)), program, last⟩ := by
  unfold bind
  simp only [findEntry_of_lookup hentry, Registration.bind_from_error hcurrent hends h]
  rfl

/-- A host that is as one was before its fields were assigned. -/
private structure Host.Like (first host : Host) : Prop where
  type : host.type = first.type
  finds : host.CanFind Profile.standard.lookupMethod
  knows : ∀ viewId, host.Knows viewId ↔ first.Knows viewId

private theorem Host.Like.assignAll {first host : Host} (h : first.Like host)
    {fields : List (String × Int)}
    (hfields : ∀ field ∈ fields, field.1 ≠ Profile.standard.lookupMethod) :
    first.Like (host.assignAll fields) where
  type := (Host.assignAll_type host fields).trans h.type
  finds := h.finds.assignAll hfields
  knows viewId := (Host.assignAll_knows host fields viewId).trans (h.knows viewId)

section Calls
variable {program : Program} {owner : Class} {spec : Spec} {identity : Identity}
  {isPackage : Bool}

private theorem registration_isCurrent (hspec : owner.Gives isPackage .standard spec)
    (hmarkers : owner.Bindable) :
    (spec.registration .standard identity owner).isCurrent owner.declared = true := by
  obtain ⟨-, -, -, -, -, hpairs⟩ := hspec.common
  rw [Registration.isCurrent, Spec.registration, hpairs, Pairs.ofList_of_nodup hmarkers.distinct,
    Pairs.agree_self]

private theorem binderClass_constructor (identity : Identity)
    (hspec : owner.Gives isPackage .standard spec) :
    ∃ signature, (spec.binderClass .standard identity).constructor? = some (.written signature
      (Host.populateSteps Profile.standard.lookupMethod owner.declared)) := by
  obtain ⟨-, -, -, -, -, hpairs⟩ := hspec.common
  rw [← hpairs]
  exact ⟨_, rfl⟩

private theorem bind_known (hspec : owner.Gives isPackage .standard spec)
    (hmarkers : owner.Bindable)
    (hentry : program.registry.lookup? owner = some (spec.registration .standard identity owner))
    {host : Host} (htype : host.type = owner)
    (hfinds : host.CanFind Profile.standard.lookupMethod)
    (hknows : ∀ field ∈ owner.declared, host.Knows field.2) :
    bind {} program host = ⟨.ok (.bound owner.qualifiedName spec.binderQualifiedName), program,
      host.assignAll owner.declared⟩ := by
  subst owner
  obtain ⟨signature, hconstructor⟩ := binderClass_constructor identity hspec
  have hpopulate := Host.populate_known hfinds hmarkers.apart hknows hconstructor
  have hbind :
      ((spec.registration .standard identity host.type).bind host.type.declared).from host =
        (.ok ⟨⟩, host.assignAll host.type.declared) :=
    Registration.bind_from_ok (registration_isCurrent hspec hmarkers) hpopulate
  unfold bind
  simp only [findEntry_of_lookup hentry, hbind, Spec.registration_qualifiedName]

private theorem bind_unknown (hspec : owner.Gives isPackage .standard spec)
    (hmarkers : owner.Bindable)
    (hentry : program.registry.lookup? owner = some (spec.registration .standard identity owner))
    {host : Host} (htype : host.type = owner)
    (hfinds : host.CanFind Profile.standard.lookupMethod)
    {found rest : List (String × Int)} {missing : String × Int} {text : String}
    (hdeclared : owner.declared = found ++ missing :: rest)
    (hfound : ∀ field ∈ found, host.Knows field.2) (hmissing : ¬host.Knows missing.2)
    (htext : idText missing.2 = .ok text) :
    bind {} program host = ⟨.ok (.failed owner.qualifiedName (some spec.binderQualifiedName)
      (.instantiation spec.binderQualifiedName (Host.noView text))), program,
      host.assignAll found⟩ := by
  subst owner
  obtain ⟨signature, hconstructor⟩ := binderClass_constructor identity hspec
  have hapart : ∀ field ∈ found, field.1 ≠ Profile.standard.lookupMethod := fun field hfield =>
    hmarkers.apart field (hdeclared ▸ List.mem_append_left _ hfield)
  rw [hdeclared] at hconstructor
  have hpopulate := Host.populate_unknown hfinds hapart hfound hmissing htext hconstructor
  exact bind_eq_of_populate_error hentry (registration_isCurrent hspec hmarkers) rfl hpopulate

end Calls

/-- Generating, importing and binding is a round trip. If the class of a host has an importable
unit, each of some successive calls binds the host by the generated binder if the host knows all
elements, and else fails in that binder at the first element that it does not know. The class must
not be called like the cast if its unit casts. -/
theorem bindTimes_of_offers {normal : String → String} (hnormal : IsNormalForm normal)
    {program : Program} {spec : Spec} (hspec : spec.Importable normal)
    (hcast : spec.fields.any (·.type.isSome) → spec.ownerName ≠ "cast") {identity : Identity}
    {host : Host} (hoffers : program.Offers normal host.type spec identity)
    (hmarkers : host.type.Bindable)
    (hunhidden : Pairs.get? host.fields Profile.standard.lookupMethod = none) {calls : Nat}
    (hcalls : 0 < calls) :
    ((∀ field ∈ host.type.declared, host.Knows field.2) →
      (bindTimes {} calls program host).1 = List.replicate calls
        (.ok (.bound host.type.qualifiedName spec.binderQualifiedName)) ∧
      host.Populated host.type.declared calls (bindTimes {} calls program host).2.2) ∧
    ∀ found missing rest, host.type.declared = found ++ missing :: rest →
      (∀ field ∈ found, host.Knows field.2) → ¬host.Knows missing.2 →
      ∃ text, idText missing.2 = .ok text ∧
        (bindTimes {} calls program host).1 = List.replicate calls
          (.ok (.failed host.type.qualifiedName (some spec.binderQualifiedName)
            (.instantiation spec.binderQualifiedName (Host.noView text)))) ∧
        host.Populated found calls (bindTimes {} calls program host).2.2 := by
  obtain ⟨isPackage, -, hgiven⟩ := hoffers.specified
  obtain ⟨-, -, -, -, hname, hpairs⟩ := hgiven.common
  obtain ⟨unit, hrender, -⟩ := hoffers.importable
  have hplain : ∀ field ∈ spec.pairs, privateName spec.binderName field.1 = field.1 := by
    rw [hpairs, hname]
    exact hmarkers.plain
  obtain ⟨after, hfind, hentry⟩ := hoffers.findEntry_from hnormal hspec
  rw [hspec.entered_eq hnormal hcast hplain] at hfind hentry
  obtain ⟨further, rfl⟩ : ∃ further, calls = further + 1 := ⟨calls - 1, by omega⟩
  -- Once the first call has imported the unit, all calls find its entry.
  have hstart : bindTimes {} (further + 1) program host =
      bindTimes {} (further + 1) after host := by
    simp only [bindTimes, bind_eq_of_findEntry hfind hentry]
  have hlike : host.Like host := ⟨rfl, ⟨hmarkers.finder, hunhidden⟩, fun _ => .rfl⟩
  rw [hstart]
  constructor
  · intro hknows
    have hruns := bindTimes_eq (fun _ h => h.assignAll hmarkers.apart)
      (fun other (h : host.Like other) => bind_known hgiven hmarkers hentry h.type h.finds
        fun field hfield => (h.knows field.2).mpr (hknows field hfield)) hlike (further + 1)
    rw [hruns]
    exact ⟨rfl, Host.populated_iterate hmarkers.distinct host further⟩
  · intro found missing rest hdeclared hfound hmissing
    have hmem : missing ∈ spec.pairs := by
      rw [hpairs, hdeclared]
      simp
    obtain ⟨field, hfield, rfl⟩ := List.mem_map.mp hmem
    obtain ⟨text, htext⟩ := Spec.idText_of_render hrender field hfield
    have hsub : ∀ other ∈ found, other ∈ host.type.declared := fun other hother =>
      hdeclared ▸ List.mem_append_left _ hother
    have hdistinct : (found.map Prod.fst).Nodup := by
      have hall := hmarkers.distinct
      rw [hdeclared, List.map_append] at hall
      exact (List.nodup_append.mp hall).1
    have hruns := bindTimes_eq (fun _ h => h.assignAll fun other hother =>
        hmarkers.apart other (hsub other hother))
      (fun other (h : host.Like other) => bind_unknown hgiven hmarkers hentry h.type h.finds
        hdeclared (fun field hfield => (h.knows field.2).mpr (hfound field hfield))
        (fun hknows => hmissing ((h.knows _).mp hknows)) htext) hlike (further + 1)
    rw [hruns]
    exact ⟨text, htext, rfl, Host.populated_iterate hdistinct host further⟩

/-- A class of the package `shop` with two markers. -/
private def sampleClass (name : String) : Class where
  identity := .created 0
  name
  path := name
  moduleName := "shop"
  attributes := [("title", .marker { viewId := 7 }), ("body", .marker { viewId := 9 }),
    ("find_by_identifier", .finder)]

private def sampleSpec (name binderModule : String) : Spec where
  ownerModule := "shop"
  ownerName := name
  binderModule
  binderName := name ++ "Binding"
  fields :=
    [⟨"shop." ++ name, "title", some "Text", 7, 1⟩, ⟨"shop." ++ name, "body", some "Text", 9, 2⟩]

private def sampleProgram (name : String) : Program where
  classes := [(("shop", name), sampleClass name)]
  loaded := [("shop", true)]

private def sampleHost (name : String) (known : Option (List Int)) : Host :=
  { type := sampleClass name, known }

private theorem sample_fields {name binderModule : String} {field : Field}
    (h : field ∈ (sampleSpec name binderModule).fields) :
    field.type = some "Text" ∧ IsFreeName field.name ∧ IsShort field.viewId := by
  revert field
  simp only [sampleSpec, List.forall_mem_cons, true_and]
  exact ⟨by decide, by decide, by simp⟩

private theorem sample_type {name binderModule : String} {field : Field}
    (h : field ∈ (sampleSpec name binderModule).fields) {type : String}
    (htype : field.type = some type) : type = "Text" :=
  Option.some.inj (htype.symm.trans (sample_fields h).1)

private theorem sample_importable {name binderModule : String} (hname : IsName name)
    (hfree : isReserved name = false) (hpublic : ¬IsPrivate name)
    (hother : name ≠ "register_binder") : (sampleSpec name binderModule).Importable id where
  module := (by decide : ∀ part ∈ dottedParts "shop", IsName part)
  owner := hname
  binder := rfl
  name _ hfield := (sample_fields hfield).2.1.toIsName
  type _ hfield type htype := by
    rw [sample_type hfield htype]
    exact ⟨"Text", by decide⟩
  short _ hfield := (sample_fields hfield).2.2
  freeModule := (by decide : ∀ part ∈ dottedParts "shop", isReserved part = false)
  freeOwner := hfree
  nonempty := List.cons_ne_nil _ _
  freeName _ hfield := (sample_fields hfield).2.1.free
  nullFree _ hfield type htype := by
    rw [sample_type hfield htype]
    simp
  normalModule _ _ := rfl
  normalOwner := rfl
  normalName _ _ := rfl
  unhidden := hpublic
  uncaptured := hother

private theorem Program.exists_install {spec : Spec} (h : spec.IsShort) (program : Program)
    (normal : String → String) (identity : Identity) :
    ∃ unit installed, program.install spec .standard normal identity = .ok (installed, unit) := by
  unfold install
  rw [Spec.render_eq h]
  exact ⟨_, _, rfl⟩

/-- A class of a package, bound twice by its installed unit on a host that knows one element. -/
theorem bindTimes_of_offers_sample :
    ∃ unit installed,
      (sampleProgram "Pane").install (sampleSpec "Pane" "shop.pane_binding") .standard
        id (.created 1) = .ok (installed, unit) ∧
      (bindTimes {} 2 installed (sampleHost "Pane" (some [7]))).1 = List.replicate 2
        (.ok (.failed "shop.Pane" (some "shop.pane_binding.PaneBinding")
          (.instantiation "shop.pane_binding.PaneBinding" (Host.noView "9")))) ∧
      (sampleHost "Pane" (some [7])).Populated [("title", 7)] 2
        (bindTimes {} 2 installed (sampleHost "Pane" (some [7]))).2.2 := by
  have himportable : (sampleSpec "Pane" "shop.pane_binding").Importable id :=
    sample_importable (by decide) (by decide) (by decide) (by decide)
  have hgives : (sampleClass "Pane").Gives true .standard (sampleSpec "Pane" "shop.pane_binding") :=
    ⟨(sampleSpec "Pane" "shop.pane_binding").fields, by decide, by decide +kernel⟩
  have hmarkers : (sampleClass "Pane").Bindable := ⟨by decide, by decide, by decide, rfl⟩
  obtain ⟨unit, installed, hinstall⟩ :=
    Program.exists_install himportable.short (sampleProgram "Pane") id (.created 1)
  have hoffers : installed.Offers id (sampleHost "Pane" (some [7])).type _ (.created 1) :=
    .of_install hinstall ⟨rfl, rfl⟩ rfl hgives rfl (by decide +kernel) (by decide +kernel) rfl
  have hcalls : 0 < 2 := by decide
  obtain ⟨text, htext, hresults, hlast⟩ :=
    (bindTimes_of_offers isNormalForm_id himportable (by decide) hoffers hmarkers rfl hcalls).2
      [("title", 7)] ("body", 9) [] rfl (by decide) (by decide)
  have hnine : idText 9 = .ok "9" := by decide +kernel
  obtain rfl := Except.ok.inj (htext.symm.trans hnine)
  exact ⟨unit, installed, hinstall, hresults, hlast⟩

/-- A class that is called like the cast takes its place in its own unit: its binder fails on a host
that knows all elements. -/
theorem bindTimes_captured :
    ∃ unit installed,
      (sampleClass "cast").spec? true (some "Text") .standard =
        .ok (sampleSpec "cast" "shop.cast_binding") ∧
      (sampleProgram "cast").install (sampleSpec "cast" "shop.cast_binding") .standard id
        (.created 1) = .ok (installed, unit) ∧
      installed.Offers id (sampleClass "cast") (sampleSpec "cast" "shop.cast_binding")
        (.created 1) ∧
      (sampleClass "cast").Bindable ∧
      (∀ field ∈ (sampleClass "cast").declared, (sampleHost "cast" none).Knows field.2) ∧
      (bindTimes {} 1 installed (sampleHost "cast" none)).1 =
        [.ok (.failed "shop.cast" (some "shop.cast_binding.castBinding")
          (.instantiation "shop.cast_binding.castBinding" ((sampleClass "cast").refusal 2)))] := by
  have himportable : (sampleSpec "cast" "shop.cast_binding").Importable id :=
    sample_importable (by decide) (by decide) (by decide) (by decide)
  have hgives : (sampleClass "cast").Gives true .standard (sampleSpec "cast" "shop.cast_binding") :=
    ⟨(sampleSpec "cast" "shop.cast_binding").fields, by decide, by decide +kernel⟩
  have hmarkers : (sampleClass "cast").Bindable := ⟨by decide, by decide, by decide, rfl⟩
  obtain ⟨unit, installed, hinstall⟩ :=
    Program.exists_install himportable.short (sampleProgram "cast") id (.created 1)
  have hoffers : installed.Offers id (sampleHost "cast" none).type
      (sampleSpec "cast" "shop.cast_binding") (.created 1) :=
    .of_install hinstall ⟨rfl, rfl⟩ rfl hgives rfl (by decide +kernel) (by decide +kernel) rfl
  refine ⟨unit, installed, by decide +kernel, hinstall, hoffers, hmarkers, by decide, ?_⟩
  obtain ⟨after, hfind, hentry⟩ := hoffers.findEntry_from isNormalForm_id himportable
  have hstop : (Host.populate ((sampleSpec "cast" "shop.cast_binding").entered id (.created 1)
      (sampleClass "cast")).binder).from (sampleHost "cast" none) =
      (.error ((sampleClass "cast").refusal 2),
        { sampleHost "cast" none with lookups := [7] }) := rfl
  have hbind := bind_eq_of_populate_error hentry (by decide) (by decide +kernel) hstop
  simp only [bindTimes, bind_eq_of_findEntry hfind hentry, hbind]
  rfl

end ElementBinding
