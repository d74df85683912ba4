/-!
# Ordered pairs

Lists of keys with their values, in the order in which the keys first came. Putting a value under a
key that is there already replaces the value where it stands.
-/
namespace ElementBinding.Pairs

def put [DecidableEq κ] (pairs : List (κ × ν)) (key : κ) (value : ν) : List (κ × ν) :=
  match pairs with
  | [] => [(key, value)]
  | (other, old) :: rest =>
    if other = key then (key, value) :: rest else (other, old) :: put rest key value

def get? [DecidableEq κ] (pairs : List (κ × ν)) (key : κ) : Option ν :=
  match pairs with
  | [] => none
  | (other, value) :: rest => if other = key then some value else get? rest key

/-- Pairs with each key once: where it first stood, with its last value. -/
def ofList [DecidableEq κ] (pairs : List (κ × ν)) : List (κ × ν) :=
  pairs.foldl (fun pairs (key, value) => put pairs key value) []

/-- Two lists of pairs have the same value, or none, under every key. -/
def agree [DecidableEq κ] [DecidableEq ν] (first second : List (κ × ν)) : Bool :=
  (first ++ second).all fun (key, _) => get? first key = get? second key

end ElementBinding.Pairs
