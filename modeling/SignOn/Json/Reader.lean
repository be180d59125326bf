import SignOn.Json.Draft
import SignOn.Text.Symbols
import SignOn.Decimal.Parts

/-! # Reading JSON texts

Turns the symbols of a text into a `Draft`.  Every function returns what it has read and, unless
the text stops there, the rest.

* `StringBody` collects the body of a string; it notes the first reason not to use the string and
  goes on as a reader that only skips would.
* `readNumber` keeps integers that fit in 64 bits and turns every other number into a double.
* `readText` reads one value with blanks around it. -/

namespace SignOn.Json

open Text (Symbol symbols symbolSize)

/-- The space, tab and line ends that may stand between the parts of a text. -/
def isGap (s : Symbol) : Bool :=
  s = some ' ' || s = some '\n' || s = some '\t' || s = some '\r'

def skipGap (ss : List Symbol) : List Symbol :=
  ss.dropWhile isGap

/-! ### Strings -/

/-- The body of a string as collected so far, last character first, with the first half of a surrogate pair whose
second half has to follow, the first reason not to use the string, and whether a byte has been met that is part of no
character. -/
structure StringBody where
  chars : List Char := []
  lead : Option Nat := none
  fault : Option Fault := none
  illFormed : Bool := false

namespace StringBody

/-- Note a reason not to use the string, unless there is one already. -/
def refuse (b : StringBody) : StringBody :=
  { b with lead := none, fault := some (b.fault.getD .malformed) }

/-- Add a character; a first half of a pair must not stand before it. -/
def push (b : StringBody) (c : Char) : StringBody :=
  if b.lead.isSome then b.refuse else { b with chars := c :: b.chars }

/-- Add a byte that is part of no character. -/
def pushByte (b : StringBody) : StringBody :=
  if b.lead.isSome then b.refuse else { b with illFormed := true }

/-- Add the code unit of a `\u` escape, pairing halves. -/
def pushUnit (b : StringBody) (n : Nat) : StringBody :=
  match b.lead with
  | some hi =>
    if 0xDC00 ≤ n ∧ n ≤ 0xDFFF then
      { b with
        lead := none
        chars := Char.ofNat (0x10000 + (hi - 0xD800) * 0x400 + (n - 0xDC00)) :: b.chars }
    else b.refuse
  | none =>
    if 0xD800 ≤ n ∧ n ≤ 0xDBFF then { b with lead := some n }
    else if 0xDC00 ≤ n ∧ n ≤ 0xDFFF then b.refuse
    else { b with chars := Char.ofNat n :: b.chars }

/-- The string, once its closing quote is reached. -/
def close (b : StringBody) : Except Unusable String :=
  if b.fault.isSome then .error ⟨b.fault.getD .malformed, none⟩
  else if b.lead.isSome || b.illFormed then .error ⟨.malformed, none⟩
  else .ok (String.ofList b.chars.reverse)

/-- The text stops inside of the string. -/
def stop (b : StringBody) (f : Fault) : Except Unusable String :=
  .error ⟨b.fault.getD f, some f⟩

end StringBody

/-- The value of a hexadecimal digit. -/
def hexDigit? : Symbol → Option Nat
  | none => none
  | some c =>
    let n := c.toNat
    if 0x30 ≤ n ∧ n ≤ 0x39 then some (n - 0x30)
    else if 0x61 ≤ n ∧ n ≤ 0x66 then some (n - 0x61 + 10)
    else if 0x41 ≤ n ∧ n ≤ 0x46 then some (n - 0x41 + 10)
    else none

/-- The code unit of four hexadecimal digits. -/
def codeUnit? (a b c d : Symbol) : Option Nat := do
  return (((← hexDigit? a) * 16 + (← hexDigit? b)) * 16 + (← hexDigit? c)) * 16 + (← hexDigit? d)

/-- The character behind a one-letter escape. -/
def shortEscape? : Char → Option Char
  | '"' => some '"'
  | '\\' => some '\\'
  | '/' => some '/'
  | 'b' => some '\x08'
  | 'f' => some '\x0c'
  | 'n' => some '\n'
  | 'r' => some '\r'
  | 't' => some '\t'
  | _ => none

/-- Read the body of a string up to and with its closing quote. -/
def readBody (b : StringBody) : List Symbol → Except Unusable String × Option (List Symbol)
  | [] => (b.stop .truncated, none)
  | some '"' :: rest => (b.close, some rest)
  | [some '\\'] => (b.stop .truncated, none)
  | some '\\' :: some 'u' :: x :: y :: z :: w :: rest =>
    match codeUnit? x y z w with
    | some n => readBody (b.pushUnit n) rest
    | none => (b.stop .malformed, none)
  | some '\\' :: some 'u' :: rest =>
    (b.stop (if rest.foldl (fun n s => n + symbolSize s) 0 < 4 then .truncated else .malformed), none)
  | some '\\' :: some e :: rest =>
    match shortEscape? e with
    | some c => readBody (b.push c) rest
    | none => (b.stop .malformed, none)
  | some '\\' :: none :: _ => (b.stop .malformed, none)
  | some c :: rest =>
    if c.toNat < 0x20 then (b.stop .malformed, none) else readBody (b.push c) rest
  | none :: rest => readBody b.pushByte rest

/-! ### Numbers -/

/-- The value of a decimal digit. -/
def digit? : Symbol → Option Nat
  | none => none
  | some c => if 0x30 ≤ c.toNat ∧ c.toNat ≤ 0x39 then some (c.toNat - 0x30) else none

/-- The digits at the front, and what follows them. -/
def takeDigits : List Symbol → List Nat × List Symbol
  | [] => ([], [])
  | s :: rest =>
    match digit? s with
    | some d =>
      let (ds, r) := takeDigits rest
      (d :: ds, r)
    | none => ([], s :: rest)

/-- Append digits to a number while it stays below `limit`; also the number of digits left. -/
def appendDigits (limit : Nat) : Nat → List Nat → Nat × Nat
  | n, [] => (n, 0)
  | n, d :: ds =>
    if n * 10 + d < limit then appendDigits limit (n * 10 + d) ds else (n, ds.length + 1)

/-- The bits of a double with a sign. -/
def signed (negative : Bool) (x : Float) : UInt64 :=
  (if negative then -x else x).toBits

/-- The leaf for `significand · 10 ^ exponent`. -/
def floatLeaf (negative : Bool) (significand : Nat) (exponent : Int) : Draft :=
  match Decimal.ofParts significand.toUInt64 exponent with
  | some x => .number (.float (signed negative x))
  | none => .unusable ⟨.malformed, none⟩

/-- The leaf for a number without point and exponent. -/
def integerLeaf (negative : Bool) (n : Nat) : Draft :=
  if ¬ negative then .number (.int n)
  else if n = 0 ∨ 0x8000000000000000 < n then .number (.float (signed true n.toUInt64.toFloat))
  else .number (.int (-n))

/-- A number that ends too early: fine neither to use nor to skip. -/
def unfinished : Draft :=
  .unusable ⟨.truncated, some .malformed⟩

def clamp32 (i : Int) : Int :=
  max (-0x80000000) (min 0x7FFFFFFF i)

/-- Read what follows the letter of an exponent. -/
def readExponent (negative : Bool) (significand : Nat) (start : Int) (ss : List Symbol) :
    Draft × Option (List Symbol) :=
  let (down, ss) := match ss with
    | some '+' :: rest => (false, rest)
    | some '-' :: rest => (true, rest)
    | _ => (false, ss)
  match takeDigits ss with
  | ([], []) => (unfinished, none)
  | ([], _ :: _) => (.broken .malformed, none)
  | (ds, rest) =>
    match appendDigits 0x80000000 0 ds with
    | (e, 0) =>
      (floatLeaf negative significand (clamp32 (if down then start - e else start + e)), some rest)
    | _ =>
      if significand = 0 ∨ down then (.number (.float (signed negative 0)), some rest)
      else (.unusable ⟨.malformed, none⟩, some rest)

/-- Read what follows the integer part; `excess` of its digits did not fit in 64 bits. -/
def readFraction (negative : Bool) (n excess : Nat) : List Symbol → Draft × Option (List Symbol)
  | some '.' :: ss =>
    match takeDigits ss with
    | ([], []) => (unfinished, none)
    | ([], _ :: _) => (.broken .malformed, none)
    | (ds, rest) =>
      let (significand, left) := appendDigits 0x10000000000000000 n ds
      let exponent : Int := (excess : Int) - ((ds.length - left : Nat) : Int)
      match rest with
      | some 'e' :: rest => readExponent negative significand exponent rest
      | some 'E' :: rest => readExponent negative significand exponent rest
      | _ => (floatLeaf negative significand exponent, some rest)
  | some 'e' :: ss => readExponent negative n excess ss
  | some 'E' :: ss => readExponent negative n excess ss
  | ss =>
    (if excess = 0 then integerLeaf negative n else floatLeaf negative n excess, some ss)

/-- Read a number behind its sign. -/
def readNumber (negative : Bool) (ss : List Symbol) : Draft × Option (List Symbol) :=
  match takeDigits ss with
  | ([], []) => (unfinished, none)
  | ([], _ :: _) => (.broken .malformed, none)
  | ([0], rest) => readFraction negative 0 0 rest
  | (0 :: _ :: _, _) => (.broken .malformed, none)
  | (ds, rest) =>
    let (n, excess) := appendDigits 0x10000000000000000 0 ds
    readFraction negative n excess rest

/-! ### Values -/

/-- Read the remaining letters of a word. -/
def readWord (leaf : Draft) : List Char → List Symbol → Draft × Option (List Symbol)
  | [], ss => (leaf, some ss)
  | _ :: _, [] => (.broken .truncated, none)
  | c :: cs, s :: ss => if s = some c then readWord leaf cs ss else (.broken .malformed, none)

mutual

/-- Read a value.  The fuel bounds the number of nested calls. -/
def readValue : Nat → List Symbol → Draft × Option (List Symbol)
  | 0, _ => (.broken .malformed, none)
  | fuel + 1, ss =>
    match skipGap ss with
    | [] => (.broken .truncated, none)
    | some 'n' :: rest => readWord .null ['u', 'l', 'l'] rest
    | some 't' :: rest => readWord (.bool true) ['r', 'u', 'e'] rest
    | some 'f' :: rest => readWord (.bool false) ['a', 'l', 's', 'e'] rest
    | some '-' :: rest => readNumber true rest
    | some '"' :: rest =>
      match readBody {} rest with
      | (.ok s, rest) => (.string s, rest)
      | (.error u, rest) => (.unusable u, rest)
    | some '[' :: rest =>
      match readItems fuel rest with
      | (items, rest) => (.array items, rest)
    | some '\x7b' :: rest =>
      match readMembers fuel rest with
      | (members, rest) => (.object members, rest)
    | s :: rest =>
      if (digit? s).isSome then readNumber false (s :: rest) else (.broken .malformed, none)

/-- Read the items of an array behind its opening bracket. -/
def readItems : Nat → List Symbol → DraftItems × Option (List Symbol)
  | 0, _ => (.stop (some .malformed), none)
  | fuel + 1, ss =>
    match skipGap ss with
    | [] => (.stop (some .truncated), none)
    | some ']' :: rest => (.stop none, some rest)
    | ss => readItem fuel ss

/-- Read one item and the items that follow it. -/
def readItem : Nat → List Symbol → DraftItems × Option (List Symbol)
  | 0, _ => (.stop (some .malformed), none)
  | fuel + 1, ss =>
    match readValue fuel ss with
    | (v, none) => (.more v (.stop none), none)
    | (v, some rest) =>
      match skipGap rest with
      | [] => (.more v (.stop (some .truncated)), none)
      | some ']' :: rest => (.more v (.stop none), some rest)
      | some ',' :: rest =>
        match skipGap rest with
        | some ']' :: _ => (.more v (.stop (some .malformed)), none)
        | rest =>
          match readItem fuel rest with
          | (items, rest) => (.more v items, rest)
      | _ => (.more v (.stop (some .malformed)), none)

/-- Read the members of an object behind its opening brace. -/
def readMembers : Nat → List Symbol → DraftMembers × Option (List Symbol)
  | 0, _ => (.stop (some .malformed), none)
  | fuel + 1, ss =>
    match skipGap ss with
    | [] => (.stop (some .truncated), none)
    | some '\x7d' :: rest => (.stop none, some rest)
    | ss => readMember fuel ss

/-- Read one member and the members that follow it. -/
def readMember : Nat → List Symbol → DraftMembers × Option (List Symbol)
  | 0, _ => (.stop (some .malformed), none)
  | fuel + 1, ss =>
    match ss with
    | [] => (.stop (some .truncated), none)
    | some '"' :: ss =>
      match readBody {} ss with
      | (key, none) => (.more key .null (.stop none), none)
      | (key, some rest) =>
        match skipGap rest with
        | [] => (.more key (.broken .truncated) (.stop none), none)
        | some ':' :: rest =>
          match readValue fuel rest with
          | (v, none) => (.more key v (.stop none), none)
          | (v, some rest) =>
            match skipGap rest with
            | [] => (.more key v (.stop (some .truncated)), none)
            | some '\x7d' :: rest => (.more key v (.stop none), some rest)
            | some ',' :: rest =>
              match skipGap rest with
              | some '\x7d' :: _ => (.more key v (.stop (some .malformed)), none)
              | rest =>
                match readMember fuel rest with
                | (members, rest) => (.more key v members, rest)
            | _ => (.more key v (.stop (some .malformed)), none)
        | _ => (.more key (.broken .malformed) (.stop none), none)
    | _ => (.stop (some .malformed), none)

end

/-- A whole text: its value, and the fault of what follows the value. -/
structure Reading where
  draft : Draft
  trailing : Option Fault

def readSymbols (ss : List Symbol) : Reading :=
  match readValue (3 * ss.length + 3) ss with
  | (draft, none) => ⟨draft, none⟩
  | (draft, some rest) => ⟨draft, if skipGap rest = [] then none else some .malformed⟩

/-- Read a whole text. -/
def readText (s : String) : Reading :=
  readSymbols (symbols s)

end SignOn.Json
