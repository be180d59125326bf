import SignOn.Json.Value

/-! # JSON texts as they are read

A decoder takes a JSON text in order and stops at the first thing it cannot use, so an error
early in the text wins over a later one.  A `Draft` holds a text as far as it can be read: the
tree of its values, up to the place, if any, where the text stops being JSON.

* `Fault` is the reason a text stops: it ends too early, or it is no JSON.
* Some leaves are fine to skip but not to use: a string with half of a surrogate pair, or a
  number beyond every double.
* Members keep the order and the repetitions of the text. -/

namespace SignOn

/-- Why a text stops being JSON: something stands where it must not, or the text ends too early. -/
inductive Fault where
  | malformed
  | truncated
deriving DecidableEq, Repr, Inhabited

/-- A leaf or key that cannot be used.  `skipped` is the fault of passing over it; `none` if a
reader that does not need it may go on. -/
structure Unusable where
  used : Fault
  skipped : Option Fault
deriving DecidableEq, Repr, Inhabited

mutual

/-- A JSON text as far as it can be read. -/
inductive Draft where
  | null
  | bool (b : Bool)
  | number (n : Number)
  | string (s : String)
  | array (items : DraftItems)
  | object (members : DraftMembers)
  | unusable (u : Unusable)

/-- The items of an array, up to its end or to a fault. -/
inductive DraftItems where
  | stop (fault : Option Fault)
  | more (head : Draft) (tail : DraftItems)

/-- The members of an object, up to its end or to a fault. -/
inductive DraftMembers where
  | stop (fault : Option Fault)
  | more (key : Except Unusable String) (value : Draft) (tail : DraftMembers)

end

instance : Inhabited Draft := ⟨.null⟩

/-- A text that is no JSON from here on. -/
def Draft.broken (f : Fault) : Draft :=
  .unusable ⟨f, some f⟩

mutual

/-- Pass over a value: only what stops the text itself is a fault. -/
def Draft.skip : Draft → Option Fault
  | .unusable u => u.skipped
  | .array items => items.skip
  | .object members => members.skip
  | _ => none

/-- Pass over the items of an array. -/
def DraftItems.skip : DraftItems → Option Fault
  | .stop f => f
  | .more v vs =>
    match v.skip with
    | some f => some f
    | none => vs.skip

/-- Pass over the members of an object. -/
def DraftMembers.skip : DraftMembers → Option Fault
  | .stop f => f
  | .more (.error ⟨_, some f⟩) _ _ => some f
  | .more _ v ms =>
    match v.skip with
    | some f => some f
    | none => ms.skip

end

end SignOn
