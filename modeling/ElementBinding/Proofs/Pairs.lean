import ElementBinding.Pairs
import Mathlib

/-!
# Ordered pairs

What is found under a key once a value was put under it, or has replaced all that stood there. Pairs
whose keys differ are their own ordered form, and so agree with it.
-/
namespace ElementBinding.Pairs
variable {κ ν : Type} [DecidableEq κ]

theorem get?_put (pairs : List (κ × ν)) (key other : κ) (value : ν) :
    get? (put pairs key value) other = if key = other then some value else get? pairs other := by
  induction pairs with
  | nil => rfl
  | cons pair rest ih =>
    obtain ⟨first, old⟩ := pair
    by_cases hfirst : first = key
    · subst first
      by_cases hother : key = other <;> simp [put, get?, hother]
    · by_cases hother : key = other
      · subst key
        simpa [put, get?, hfirst] using ih
      · simp [put, get?, hfirst, hother, ih]

@[simp] theorem get?_put_self (pairs : List (κ × ν)) (key : κ) (value : ν) :
    get? (put pairs key value) key = some value := by
  rw [get?_put, if_pos rfl]

theorem get?_put_of_ne {key other : κ} (h : key ≠ other) (pairs : List (κ × ν)) (value : ν) :
    get? (put pairs key value) other = get? pairs other := by
  rw [get?_put, if_neg h]

private theorem find?_replaced (pairs : List (κ × ν)) (key other : κ) (value : ν) :
    ((pairs.map fun (place, old) =>
      if place = key then (place, value) else (place, old)).find? (·.1 = other)).map (·.2) =
      if other = key ∧ pairs.any (·.1 = key) then some value
      else (pairs.find? (·.1 = other)).map (·.2) := by
  induction pairs with
  | nil => simp
  | cons first rest ih =>
    obtain ⟨place, old⟩ := first
    by_cases hplace : place = key
    · subst hplace
      by_cases hother : other = place
      · simp [hother]
      · have hne : ¬place = other := fun h => hother h.symm
        simp only [List.map_cons, if_true, List.find?_cons, hne, decide_false, hother, false_and,
          if_false] at ih ⊢
        simpa using ih
    · by_cases hother : place = other
      · subst hother
        simp [hplace]
      · simp only [List.map_cons, hplace, if_false, List.find?_cons, hother, decide_false,
          List.any_cons, Bool.false_or]
        exact ih

/-- What is found first under a key once a value has replaced all that stood under one, or was added
if nothing did. -/
theorem find?_replaced_or_added (pairs : List (κ × ν)) (key other : κ) (value : ν) :
    ((if pairs.any (·.1 = key) then pairs.map fun (place, old) =>
        if place = key then (place, value) else (place, old)
      else pairs ++ [(key, value)]).find? (·.1 = other)).map (·.2) =
      if other = key then some value else (pairs.find? (·.1 = other)).map (·.2) := by
  by_cases hany : pairs.any (·.1 = key)
  · rw [if_pos hany, find?_replaced]
    simp only [hany, and_true]
  · rw [if_neg hany, List.find?_append, Option.map_or]
    by_cases hother : other = key
    · subst other
      have hnone : pairs.find? (·.1 = key) = none := by
        rw [List.find?_eq_none]
        exact fun pair hpair hkey => hany (List.any_eq_true.mpr ⟨pair, hpair, hkey⟩)
      simp [hnone]
    · have hne : ¬key = other := fun h => hother h.symm
      simp [hother, hne]

theorem find?_eq_some_iff {pairs : List (κ × ν)} (h : (pairs.map Prod.fst).Nodup) {key : κ}
    {value : ν} :
    (pairs.find? (·.1 = key)).map (·.2) = some value ↔ (key, value) ∈ pairs := by
  constructor
  · intro hfind
    obtain ⟨⟨other, _⟩, hpair, rfl⟩ := Option.map_eq_some_iff.mp hfind
    have hkey := List.find?_some hpair
    obtain rfl : other = key := of_decide_eq_true hkey
    exact List.mem_of_find?_eq_some hpair
  · intro hmem
    obtain ⟨pair, hpair⟩ := Option.isSome_iff_exists.mp
      ((List.find?_isSome (p := fun pair => decide (pair.1 = key))).mpr
        ⟨_, hmem, decide_eq_true rfl⟩)
    have hkey := List.find?_some hpair
    have hsame : pair = (key, value) := List.inj_on_of_nodup_map h
      (List.mem_of_find?_eq_some hpair) hmem (of_decide_eq_true hkey)
    rw [hpair, hsame, Option.map_some]

theorem get?_eq_none {pairs : List (κ × ν)} {key : κ} (h : key ∉ pairs.map Prod.fst) :
    get? pairs key = none := by
  induction pairs with
  | nil => rfl
  | cons pair rest ih =>
    simp only [List.map_cons, List.mem_cons, not_or] at h
    simp [get?, Ne.symm h.1, ih h.2]

private theorem put_of_not_mem {pairs : List (κ × ν)} {key : κ}
    (h : key ∉ pairs.map Prod.fst) (value : ν) : put pairs key value = pairs ++ [(key, value)] := by
  induction pairs with
  | nil => rfl
  | cons pair rest ih =>
    simp only [List.map_cons, List.mem_cons, not_or] at h
    simp [put, Ne.symm h.1, ih h.2]

private theorem foldl_put_of_nodup {before pairs : List (κ × ν)}
    (h : ((before ++ pairs).map Prod.fst).Nodup) :
    pairs.foldl (fun pairs (key, value) => put pairs key value) before = before ++ pairs := by
  induction pairs generalizing before with
  | nil => simp
  | cons pair rest ih =>
    obtain ⟨key, value⟩ := pair
    have hfresh : key ∉ before.map Prod.fst := by
      rw [List.map_append, List.nodup_append] at h
      exact fun hmem => h.2.2 _ hmem _ List.mem_cons_self rfl
    rw [List.append_cons] at h
    simp only [List.foldl_cons]
    rw [put_of_not_mem hfresh, ih h, List.append_assoc, List.singleton_append]

theorem ofList_of_nodup {pairs : List (κ × ν)} (h : (pairs.map Prod.fst).Nodup) :
    ofList pairs = pairs :=
  foldl_put_of_nodup h

@[simp] theorem agree_self [DecidableEq ν] (pairs : List (κ × ν)) : agree pairs pairs = true := by
  simp [agree]

theorem agree_iff [DecidableEq ν] {first second : List (κ × ν)} :
    agree first second ↔ ∀ key, get? first key = get? second key := by
  constructor
  · intro h key
    by_cases hmem : key ∈ (first ++ second).map Prod.fst
    · obtain ⟨pair, hpair, rfl⟩ := List.mem_map.mp hmem
      simpa using List.all_eq_true.mp h pair hpair
    · rw [List.map_append, List.mem_append, not_or] at hmem
      rw [get?_eq_none hmem.1, get?_eq_none hmem.2]
  · intro h
    simp [agree, h]

end ElementBinding.Pairs
