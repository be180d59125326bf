import SignOn.Text.Search

/-! # JSON values

The data model of JSON documents, with object members in ascending order of their keys and each
key once.

* `Json.ofMembers` builds such an object from members in any order; of members with one key the
  last counts.
* `Json.get?` follows one key, `Json.lookup` a dotted path of keys. -/

namespace SignOn

/-- A JSON number: an integer that fits in 64 bits, or a double, kept by its bits. -/
inductive Number where
  | int (i : Int)
  | float (bits : UInt64)
deriving DecidableEq, Repr, Inhabited

mutual

/-- A JSON value. -/
inductive Json where
  | null
  | bool (b : Bool)
  | number (n : Number)
  | string (s : String)
  | array (items : JsonItems)
  | object (members : JsonMembers)

/-- The items of an array. -/
inductive JsonItems where
  | nil
  | cons (head : Json) (tail : JsonItems)

/-- The members of an object. -/
inductive JsonMembers where
  | nil
  | cons (key : String) (value : Json) (tail : JsonMembers)

end

deriving instance DecidableEq for Json, JsonItems, JsonMembers

instance : Inhabited Json := ⟨.null⟩

def JsonItems.toList : JsonItems → List Json
  | .nil => []
  | .cons v vs => v :: vs.toList

def JsonItems.ofList : List Json → JsonItems
  | [] => .nil
  | v :: vs => .cons v (ofList vs)

@[simp] theorem JsonItems.toList_ofList (vs : List Json) : (ofList vs).toList = vs := by
  induction vs with
  | nil => rfl
  | cons v vs ih => simp [ofList, toList, ih]

def JsonMembers.toList : JsonMembers → List (String × Json)
  | .nil => []
  | .cons k v ms => (k, v) :: ms.toList

/-- Members from a list, in the order of the list. -/
def JsonMembers.ofList : List (String × Json) → JsonMembers
  | [] => .nil
  | (k, v) :: ms => .cons k v (ofList ms)

@[simp] theorem JsonMembers.toList_ofList (ms : List (String × Json)) :
    (ofList ms).toList = ms := by
  induction ms with
  | nil => rfl
  | cons m ms ih => simp [ofList, toList, ih]

/-- Set a member, keeping keys in ascending order. -/
def JsonMembers.insert (key : String) (value : Json) : JsonMembers → JsonMembers
  | .nil => .cons key value .nil
  | .cons k v ms =>
    if key < k then .cons key value (.cons k v ms)
    else if key = k then .cons key value ms
    else .cons k v (ms.insert key value)

def JsonMembers.get? (key : String) : JsonMembers → Option Json
  | .nil => none
  | .cons k v ms => if k = key then some v else ms.get? key

namespace Json

def ofItems (vs : List Json) : Json :=
  .array (.ofList vs)

/-- An object from members in any order; the last of several members with one key counts. -/
def ofMembers (ms : List (String × Json)) : Json :=
  .object (ms.foldl (fun acc m => acc.insert m.1 m.2) .nil)

/-- The value of a member; only objects have members. -/
def get? (key : String) : Json → Option Json
  | .object ms => ms.get? key
  | _ => none

def follow : List String → Json → Option Json
  | [], v => some v
  | k :: ks, v => (v.get? k).bind (follow ks)

/-- Follow a dotted path of keys; empty segments do not count. -/
def lookup (v : Json) (path : String) : Option Json :=
  follow ((Text.split path '.').filter (· ≠ "")) v

end Json

end SignOn
