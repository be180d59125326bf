import SignOn.Json.Reader
import SignOn.Decimal.Notation
import SignOn.Text.Visible

/-! # Decoding JSON texts into values of a known shape

A `Decoder α` makes a value of `α` from a draft.  It goes through the text in order, so the first
fault or mismatch of the text is the one reported.

* `Mismatch` lists what can be wrong with a well-formed text; `Mismatch.message` is its wording.
* `record` reads an object with known fields, or an array of the values of the fields in order.
  Unknown members are passed over, and missing fields are reported in the order of declaration
  once the object is complete.
* Values may nest 127 levels deep where they are used; what is passed over may nest deeper. -/

namespace SignOn.Json

/-! ### Errors -/

/-- What was met where something else was expected. -/
inductive Found where
  | null
  | bool (b : Bool)
  | number (n : Number)
  | string (s : String)
  | array
  | object
deriving DecidableEq, Repr

def Found.text : Found → String
  | .null => "null"
  | .bool b => "boolean `" ++ toString b ++ "`"
  | .number (.int i) => "integer `" ++ toString i ++ "`"
  | .number (.float bits) => "floating point `" ++ Decimal.text bits ++ "`"
  | .string s => "string " ++ Text.visible s
  | .array => "sequence"
  | .object => "map"

/-- What can be wrong with a text that is JSON. -/
inductive Mismatch where
  | missing (field : String)
  | duplicate (field : String)
  | unknownVariant (name : String) (expected : List String)
  | type (found : Found) (expected : String)
  | value (found : Found) (expected : String)
  | length (n : Nat) (expected : String)
  | noVariant (type : String)
deriving DecidableEq, Repr

/-- A choice of names, for messages. -/
def oneOf : List String → String
  | [] => "there are no variants"
  | [a] => "expected `" ++ a ++ "`"
  | [a, b] => "expected `" ++ a ++ "` or `" ++ b ++ "`"
  | names => "expected one of " ++ Text.join ", " (names.map fun n => "`" ++ n ++ "`")

def Mismatch.message : Mismatch → String
  | .missing f => "missing field `" ++ f ++ "`"
  | .duplicate f => "duplicate field `" ++ f ++ "`"
  | .unknownVariant n expected => "unknown variant `" ++ n ++ "`, " ++ oneOf expected
  | .type found expected => "invalid type: " ++ found.text ++ ", expected " ++ expected
  | .value found expected => "invalid value: " ++ found.text ++ ", expected " ++ expected
  | .length n expected => "invalid length " ++ toString n ++ ", expected " ++ expected
  | .noVariant t => "data did not match any variant of untagged enum " ++ t

/-- Why a text could not be decoded: it is no JSON, or JSON of another shape. -/
inductive DecodeError where
  | fault (f : Fault)
  | mismatch (m : Mismatch)
deriving DecidableEq, Repr

/-! ### Decoders -/

/-- Makes a value from a draft, with a number of levels that it may still descend. -/
abbrev Decoder (α : Type) := Nat → Draft → Except DecodeError α

/-- Levels of arrays and objects that a text may use. -/
def maxDepth : Nat := 127

/-- A value of another type than expected.  Strings and numbers are looked at first, and may be
unusable themselves; arrays and objects are not. -/
def mistyped (expected : String) : Draft → DecodeError
  | .null => .mismatch (.type .null expected)
  | .bool b => .mismatch (.type (.bool b) expected)
  | .number n => .mismatch (.type (.number n) expected)
  | .string s => .mismatch (.type (.string s) expected)
  | .array _ => .mismatch (.type .array expected)
  | .object _ => .mismatch (.type .object expected)
  | .unusable u => .fault u.used

def text : Decoder String
  | _, .string s => .ok s
  | _, d => .error (mistyped "a string" d)

def path : Decoder String
  | _, .string s => .ok s
  | _, d => .error (mistyped "path string" d)

def boolean : Decoder Bool
  | _, .bool b => .ok b
  | _, d => .error (mistyped "a boolean" d)

def integer (low high : Int) (expected : String) : Decoder Int
  | _, .number (.int i) =>
    if low ≤ i ∧ i ≤ high then .ok i else .error (.mismatch (.value (.number (.int i)) expected))
  | _, d => .error (mistyped expected d)

def nat64 : Decoder Nat := fun depth d =>
  (integer 0 0xFFFFFFFFFFFFFFFF "u64" depth d).map Int.toNat

def nat32 : Decoder Nat := fun depth d =>
  (integer 0 0xFFFFFFFF "u32" depth d).map Int.toNat

def int64 : Decoder Int :=
  integer (-0x8000000000000000) 0x7FFFFFFFFFFFFFFF "i64"

/-- The double nearest to an integer of 64 bits. -/
def floatOfInt (i : Int) : Float :=
  if i < 0 then -(i.natAbs.toUInt64.toFloat) else i.toNat.toUInt64.toFloat

/-- A double; integers are converted. -/
def float : Decoder Float
  | _, .number (.int i) => .ok (floatOfInt i)
  | _, .number (.float bits) => .ok (Float.ofBits bits)
  | _, d => .error (mistyped "f64" d)

def optional {α : Type} (item : Decoder α) : Decoder (Option α)
  | _, .null => .ok none
  | depth, d => (item depth d).map some

/-- One of several names; also an object with one member of that name whose value is null. -/
def choice {α : Type} (variants : List (String × α)) : Decoder α
  | _, .string s => pick s
  | 0, .object _ => .error (.fault .malformed)
  | _ + 1, .object members =>
    match members with
    | .stop f => .error (.fault (f.getD .malformed))
    | .more (.error u) _ _ => .error (.fault u.used)
    | .more (.ok s) value rest =>
      match pick s with
      | .error e => .error e
      | .ok a =>
        match value with
        | .null =>
          match rest with
          | .stop none => .ok a
          | .stop (some f) => .error (.fault f)
          | .more .. => .error (.fault .malformed)
        | d => .error (mistyped "unit" d)
  | _, .unusable u => .error (.fault u.used)
  | _, _ => .error (.fault .malformed)
where
  pick (s : String) : Except DecodeError α :=
    match variants.lookup s with
    | some a => .ok a
    | none => .error (.mismatch (.unknownVariant s (variants.map (·.1))))

def itemsOf {α : Type} (item : Draft → Except DecodeError α) : DraftItems → Except DecodeError (List α)
  | .stop none => .ok []
  | .stop (some f) => .error (.fault f)
  | .more d rest =>
    match item d with
    | .error e => .error e
    | .ok a => (itemsOf item rest).map (a :: ·)

def sequence {α : Type} (item : Decoder α) : Decoder (List α)
  | 0, .array _ => .error (.fault .malformed)
  | depth + 1, .array items => itemsOf (item depth) items
  | _, d => .error (mistyped "a sequence" d)

/-- The members of an object, in the order of the text. -/
def membersOf {α : Type} (item : Draft → Except DecodeError α) :
    DraftMembers → Except DecodeError (List (String × α))
  | .stop none => .ok []
  | .stop (some f) => .error (.fault f)
  | .more (.error u) _ _ => .error (.fault u.used)
  | .more (.ok k) d rest =>
    match item d with
    | .error e => .error e
    | .ok a => (membersOf item rest).map ((k, a) :: ·)

/-- An object whose keys are free. -/
def mapping {α : Type} (item : Decoder α) : Decoder (List (String × α))
  | 0, .object _ => .error (.fault .malformed)
  | depth + 1, .object members => membersOf (item depth) members
  | _, d => .error (mistyped "a map" d)

mutual

def value : Decoder Json
  | _, .null => .ok .null
  | _, .bool b => .ok (.bool b)
  | _, .number n => .ok (.number n)
  | _, .string s => .ok (.string s)
  | _, .unusable u => .error (.fault u.used)
  | 0, .array _ => .error (.fault .malformed)
  | depth + 1, .array items => (valueItems depth items).map .array
  | 0, .object _ => .error (.fault .malformed)
  | depth + 1, .object members => (valueMembers depth .nil members).map .object

/-- The items of an array of any values. -/
def valueItems (depth : Nat) : DraftItems → Except DecodeError JsonItems
  | .stop none => .ok .nil
  | .stop (some f) => .error (.fault f)
  | .more d rest =>
    match value depth d with
    | .error e => .error e
    | .ok v => (valueItems depth rest).map (.cons v)

/-- The members of an object of any values, entered one after the other. -/
def valueMembers (depth : Nat) (acc : JsonMembers) : DraftMembers → Except DecodeError JsonMembers
  | .stop none => .ok acc
  | .stop (some f) => .error (.fault f)
  | .more (.error u) _ _ => .error (.fault u.used)
  | .more (.ok k) d rest =>
    match value depth d with
    | .error e => .error e
    | .ok v => valueMembers depth (acc.insert k v) rest

end

/-! ### Records -/

/-- One field of a record of type `ρ`, read and entered into the record.  An object may lack an `optional` field, and
an array may end before a `defaulted` one. -/
structure Field (ρ : Type) where
  name : String
  read : Nat → Draft → ρ → Except DecodeError ρ
  optional : Bool
  defaulted : Bool

def required {α ρ : Type} (name : String) (item : Decoder α) (set : α → ρ → ρ) : Field ρ where
  name := name
  read depth d r := (item depth d).map (set · r)
  optional := false
  defaulted := false

def defaulting {α ρ : Type} (name : String) (item : Decoder α) (set : α → ρ → ρ) : Field ρ :=
  { required name item set with optional := true, defaulted := true }

/-- A field that may be null, or missing from an object. -/
def nullable {α ρ : Type} (name : String) (item : Decoder α) (set : Option α → ρ → ρ) : Field ρ :=
  { required name (optional item) set with optional := true }

/-- Read the members of a record; `seen` are the names of the fields read so far. -/
def recordMembers {ρ : Type} (fields : List (Field ρ)) (depth : Nat) :
    DraftMembers → (seen : List String) → ρ → Except DecodeError ρ
  | .stop (some f), _, _ => .error (.fault f)
  | .stop none, seen, r =>
    match fields.find? fun f => !f.optional && !seen.contains f.name with
    | some f => .error (.mismatch (.missing f.name))
    | none => .ok r
  | .more (.error u) _ _, _, _ => .error (.fault u.used)
  | .more (.ok k) d rest, seen, r =>
    match fields.find? (·.name == k) with
    | none =>
      match d.skip with
      | some f => .error (.fault f)
      | none => recordMembers fields depth rest seen r
    | some f =>
      if seen.contains k then .error (.mismatch (.duplicate k))
      else
        match f.read depth d r with
        | .error e => .error e
        | .ok r => recordMembers fields depth rest (k :: seen) r

/-- Read the fields of a record from the items of an array. -/
def recordItems {ρ : Type} (expected : String) (depth : Nat) :
    (fields : List (Field ρ)) → (n : Nat) → DraftItems → ρ → Except DecodeError ρ
  | [], _, .stop none, r => .ok r
  | [], _, .stop (some f), _ => .error (.fault f)
  | [], _, .more .., _ => .error (.fault .malformed)
  | _ :: _, _, .stop (some f), _ => .error (.fault f)
  | f :: fields, n, .stop none, r =>
    if f.defaulted then recordItems expected depth fields (n + 1) (.stop none) r
    else .error (.mismatch (.length n expected))
  | f :: fields, n, .more d rest, r =>
    match f.read depth d r with
    | .error e => .error e
    | .ok r => recordItems expected depth fields (n + 1) rest r

/-- A record of a name.  It starts as `start`, which holds the defaults, and takes up the fields
that are read; the required ones are all read in the end. -/
def record {ρ : Type} (name : String) (start : ρ) (fields : List (Field ρ)) : Decoder ρ
  | 0, .object _ => .error (.fault .malformed)
  | 0, .array _ => .error (.fault .malformed)
  | depth + 1, .object members => recordMembers fields depth members [] start
  | depth + 1, .array items =>
    let count := toString fields.length ++ if fields.length = 1 then " element" else " elements"
    recordItems ("struct " ++ name ++ " with " ++ count) depth fields 0 items start
  | _, d => .error (mistyped ("struct " ++ name) d)

/-! ### Whole texts -/

def decodeReading {α : Type} (item : Decoder α) (r : Reading) : Except DecodeError α :=
  match item maxDepth r.draft with
  | .error e => .error e
  | .ok a =>
    match r.trailing with
    | some f => .error (.fault f)
    | none => .ok a

def decode {α : Type} (item : Decoder α) (s : String) : Except DecodeError α :=
  decodeReading item (readText s)

/-- The value of a whole text. -/
def parse (s : String) : Except DecodeError Json :=
  decode value s

end SignOn.Json
