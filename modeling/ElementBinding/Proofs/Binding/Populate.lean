import ElementBinding.Host
import ElementBinding.Proofs.Action
import ElementBinding.Proofs.Pairs

/-!
# Populating hosts

A binder's constructor assigns its fields one after another, each from a look-up of its own, and
stops at the first element that the host does not know. What it assigned until then stays. Running
it again assigns the same fields afresh.
-/
namespace ElementBinding
open ElementBinding.Text

namespace Host

def Knows (host : Host) (viewId : Int) : Prop := ∀ known ∈ host.known, viewId ∈ known

instance (host : Host) (viewId : Int) : Decidable (host.Knows viewId) :=
  inferInstanceAs (Decidable (∀ known ∈ host.known, viewId ∈ known))

private theorem known_all_iff {host : Host} {viewId : Int} :
    host.known.all (·.contains viewId) = true ↔ host.Knows viewId := by
  cases hknown : host.known <;> simp [Knows, hknown]

/-- The error when an element is looked up that the host does not know. -/
def noView (text : String) : Raised := .of "LookupError" (some ("no view with id " ++ text))

/-- The host can look elements up: its class has the method, and no field hides it. -/
structure CanFind (host : Host) (finder : String) : Prop where
  method : host.type.attribute? finder = some .finder
  unhidden : Pairs.get? host.fields finder = none

def assign (host : Host) (field : String × Int) : Host :=
  { host with
    fields := Pairs.put host.fields field.1 ⟨field.2, host.lookups.length + 1⟩
    lookups := host.lookups ++ [field.2] }

/-- The host after some fields were assigned, each from a look-up of its own. -/
def assignAll (host : Host) (fields : List (String × Int)) : Host := fields.foldl assign host

@[simp] theorem assignAll_nil (host : Host) : host.assignAll [] = host := rfl

@[simp] theorem assignAll_cons (host : Host) (field : String × Int)
    (rest : List (String × Int)) :
    host.assignAll (field :: rest) = (host.assign field).assignAll rest := rfl

theorem CanFind.assign {host : Host} {finder : String} (h : host.CanFind finder)
    {field : String × Int} (hfield : field.1 ≠ finder) : (host.assign field).CanFind finder where
  method := h.method
  unhidden := by
    rw [Host.assign, Pairs.get?_put_of_ne hfield]
    exact h.unhidden

theorem assignAll_knows (host : Host) (fields : List (String × Int)) (viewId : Int) :
    (host.assignAll fields).Knows viewId ↔ host.Knows viewId := by
  induction fields generalizing host with
  | nil => rfl
  | cons field rest ih => exact ih (host.assign field)

theorem CanFind.assignAll {host : Host} {finder : String} (h : host.CanFind finder)
    {fields : List (String × Int)} (hfields : ∀ field ∈ fields, field.1 ≠ finder) :
    (host.assignAll fields).CanFind finder := by
  induction fields generalizing host with
  | nil => exact h
  | cons field rest ih =>
    exact ih (h.assign (hfields field List.mem_cons_self))
      fun other hother => hfields other (List.mem_cons_of_mem _ hother)

theorem CanFind.call_from {host : Host} {finder : String} (h : host.CanFind finder)
    (viewId : Int) : (call finder viewId).from host = (lookUp viewId).from host := by
  rw [call, Action.from_bind_of_ok (Action.from_get host), h.unhidden, h.method]

theorem lookUp_known {host : Host} {viewId : Int} (h : host.Knows viewId) :
    (lookUp viewId).from host =
      (.ok ⟨viewId, host.lookups.length + 1⟩,
        { host with lookups := host.lookups ++ [viewId] }) := by
  rw [lookUp, Action.from_bind_of_ok (Action.from_get host), if_pos (known_all_iff.mpr h)]
  simp only [List.length_append, List.length_singleton]
  rfl

theorem lookUp_unknown {host : Host} {viewId : Int} {text : String} (h : ¬host.Knows viewId)
    (htext : idText viewId = .ok text) :
    (lookUp viewId).from host = (.error (noView text), host) := by
  rw [lookUp, Action.from_bind_of_ok (Action.from_get host),
    if_neg fun hall => h (known_all_iff.mp hall), htext]
  rfl

def populateSteps (finder : String) (fields : List (String × Int)) : List ConstructorStep :=
  fields.map fun field => .populate field.1 finder field.2

private theorem carryOut_known {host : Host} {finder : String} (h : host.CanFind finder)
    {field : String × Int} (hknows : host.Knows field.2) :
    (carryOut (.populate field.1 finder field.2)).from host = (.ok ⟨⟩, host.assign field) := by
  rw [carryOut, Action.from_bind_of_ok ((h.call_from field.2).trans (lookUp_known hknows))]
  rfl

private theorem carryOut_unknown {host : Host} {finder : String} (h : host.CanFind finder)
    {field : String × Int} {text : String} (hknows : ¬host.Knows field.2)
    (htext : idText field.2 = .ok text) :
    (carryOut (.populate field.1 finder field.2)).from host = (.error (noView text), host) := by
  rw [carryOut,
    Action.from_bind_of_error ((h.call_from field.2).trans (lookUp_unknown hknows htext))]

/-- Steps whose elements are known assign all fields, and those after them follow. -/
theorem forM_populateSteps {host : Host} {finder : String} (h : host.CanFind finder)
    {fields : List (String × Int)} (hfields : ∀ field ∈ fields, field.1 ≠ finder)
    (hknows : ∀ field ∈ fields, host.Knows field.2) (steps : List ConstructorStep) :
    ((populateSteps finder fields ++ steps).forM carryOut).from host =
      (steps.forM carryOut).from (host.assignAll fields) := by
  induction fields generalizing host with
  | nil => rfl
  | cons field rest ih =>
    have hfirst := carryOut_known h (hknows field List.mem_cons_self)
    rw [populateSteps, List.map_cons, List.cons_append, List.forM_eq_forM, List.forM_cons,
      Action.from_bind_of_ok hfirst, assignAll_cons]
    exact ih (h.assign (hfields field List.mem_cons_self))
      (fun other hother => hfields other (List.mem_cons_of_mem _ hother))
      fun other hother => hknows other (List.mem_cons_of_mem _ hother)

theorem populate_known {host : Host} {finder : String} (h : host.CanFind finder)
    {fields : List (String × Int)} (hfields : ∀ field ∈ fields, field.1 ≠ finder)
    (hknows : ∀ field ∈ fields, host.Knows field.2) {binder : Class} {signature : Signature}
    (hbinder : binder.constructor? = some (.written signature (populateSteps finder fields))) :
    (populate binder).from host = (.ok ⟨⟩, host.assignAll fields) := by
  rw [populate, hbinder]
  have hsteps := forM_populateSteps h hfields hknows []
  rwa [List.append_nil] at hsteps

theorem populate_unknown {host : Host} {finder : String} (h : host.CanFind finder)
    {found rest : List (String × Int)} {missing : String × Int} {text : String}
    (hfields : ∀ field ∈ found, field.1 ≠ finder) (hfound : ∀ field ∈ found, host.Knows field.2)
    (hmissing : ¬host.Knows missing.2) (htext : idText missing.2 = .ok text) {binder : Class}
    {signature : Signature}
    (hbinder : binder.constructor? =
      some (.written signature (populateSteps finder (found ++ missing :: rest)))) :
    (populate binder).from host = (.error (noView text), host.assignAll found) := by
  have hsteps := forM_populateSteps h hfields hfound
    (.populate missing.1 finder missing.2 :: populateSteps finder rest)
  have hstop := carryOut_unknown (h.assignAll hfields)
    (fun hknows => hmissing ((assignAll_knows host found missing.2).mp hknows)) htext
  rw [populate, hbinder]
  simp only [populateSteps, List.map_append, List.map_cons] at hsteps ⊢
  rw [hsteps, List.forM_eq_forM, List.forM_cons, Action.from_bind_of_error hstop]

/-! ### What repeated constructors leave -/

theorem assignAll_type (host : Host) (fields : List (String × Int)) :
    (host.assignAll fields).type = host.type := by
  induction fields generalizing host with
  | nil => rfl
  | cons field rest ih => exact ih (host.assign field)

theorem assignAll_lookups (host : Host) (fields : List (String × Int)) :
    (host.assignAll fields).lookups = host.lookups ++ fields.map Prod.snd := by
  induction fields generalizing host with
  | nil => simp
  | cons field rest ih => simp [ih, assign]

theorem assignAll_append (host : Host) (first second : List (String × Int)) :
    host.assignAll (first ++ second) = (host.assignAll first).assignAll second :=
  List.foldl_append

/-- A field that is not assigned keeps its element. -/
theorem get?_assignAll_of_not_mem {fields : List (String × Int)} {name : String}
    (h : name ∉ fields.map Prod.fst) (host : Host) :
    Pairs.get? (host.assignAll fields).fields name = Pairs.get? host.fields name := by
  induction fields generalizing host with
  | nil => rfl
  | cons field rest ih =>
    simp only [List.map_cons, List.mem_cons, not_or] at h
    rw [assignAll_cons, ih h.2, assign, Pairs.get?_put_of_ne (Ne.symm h.1)]

/-- A field that is assigned once holds what its own look-up gave. -/
theorem get?_assignAll {before after : List (String × Int)} {field : String × Int}
    (h : field.1 ∉ after.map Prod.fst) (host : Host) :
    Pairs.get? (host.assignAll (before ++ field :: after)).fields field.1 =
      some ⟨field.2, host.lookups.length + before.length + 1⟩ := by
  rw [assignAll_append, assignAll_cons, get?_assignAll_of_not_mem h, assign, Pairs.get?_put_self,
    assignAll_lookups, List.length_append, List.length_map]

/-- What some runs of a constructor leave: every run looks each element up afresh, in order, and
a field holds what its look-up in the last run gave. -/
structure Populated (host : Host) (fields : List (String × Int)) (runs : Nat) (last : Host) :
    Prop where
  lookups : last.lookups = host.lookups ++ (List.replicate runs (fields.map Prod.snd)).flatten
  assigned : ∀ before field after, fields = before ++ field :: after →
    Pairs.get? last.fields field.1 =
      some ⟨field.2, host.lookups.length + (runs - 1) * fields.length + before.length + 1⟩
  others : ∀ name, name ∉ fields.map Prod.fst →
    Pairs.get? last.fields name = Pairs.get? host.fields name

private theorem iterate_lookups (host : Host) (fields : List (String × Int)) (runs : Nat) :
    ((assignAll · fields)^[runs] host).lookups =
      host.lookups ++ (List.replicate runs (fields.map Prod.snd)).flatten := by
  induction runs with
  | zero => simp
  | succ runs ih =>
    rw [Function.iterate_succ_apply', assignAll_lookups, ih, List.replicate_succ',
      List.flatten_append]
    simp

private theorem get?_iterate_of_not_mem {fields : List (String × Int)} {name : String}
    (h : name ∉ fields.map Prod.fst) (host : Host) (runs : Nat) :
    Pairs.get? ((assignAll · fields)^[runs] host).fields name = Pairs.get? host.fields name := by
  induction runs with
  | zero => rfl
  | succ runs ih => rw [Function.iterate_succ_apply', get?_assignAll_of_not_mem h, ih]

/-- The runs of a constructor whose fields differ. -/
theorem populated_iterate {fields : List (String × Int)} (h : (fields.map Prod.fst).Nodup)
    (host : Host) (runs : Nat) :
    Populated host fields (runs + 1) ((assignAll · fields)^[runs + 1] host) where
  lookups := iterate_lookups host fields (runs + 1)
  assigned := by
    rintro before field after rfl
    have hfresh : field.1 ∉ after.map Prod.fst := by
      rw [List.map_append, List.map_cons, List.nodup_append, List.nodup_cons] at h
      exact h.2.1.1
    have hlength : ((assignAll · (before ++ field :: after))^[runs] host).lookups.length =
        host.lookups.length + runs * (before ++ field :: after).length := by
      rw [iterate_lookups]
      simp
    rw [Function.iterate_succ_apply', get?_assignAll hfresh, hlength, Nat.add_sub_cancel]
  others name hname := get?_iterate_of_not_mem hname host (runs + 1)

end Host
end ElementBinding
