import SignOn.Json.Value
import SignOn.Decimal.Notation

/-! # Writing JSON texts

* `compact` writes a value without any gap.
* `pretty` writes one item or member per line, indented by two spaces a level; empty arrays and
  objects stay on one line.
* `quote` writes a string: quotation mark, backslash and control characters are escaped, all else
  stands for itself. -/

namespace SignOn.Json

/-- The digits of a `\u` escape of a control character. -/
def controlDigits (n : Nat) : List Char :=
  ['0', '0', Nat.digitChar (n / 16), Nat.digitChar (n % 16)]

/-- One character inside of a string. -/
def quoteChar (c : Char) : List Char :=
  if c = '"' then ['\\', '"']
  else if c = '\\' then ['\\', '\\']
  else if c = '\n' then ['\\', 'n']
  else if c = '\r' then ['\\', 'r']
  else if c = '\t' then ['\\', 't']
  else if c = '\x08' then ['\\', 'b']
  else if c = '\x0c' then ['\\', 'f']
  else if c.toNat < 0x20 then '\\' :: 'u' :: controlDigits c.toNat
  else [c]

/-- A string in its quotation marks. -/
def quoteChars (s : String) : List Char :=
  '"' :: s.toList.flatMap quoteChar ++ ['"']

/-- A string in its quotation marks. -/
def quote (s : String) : String :=
  String.ofList (quoteChars s)

def numberText : Number → String
  | .int i => toString i
  | .float bits => Decimal.text bits

/-- What does not depend on the layout. -/
def scalarChars : Json → List Char
  | .null => ['n', 'u', 'l', 'l']
  | .bool true => ['t', 'r', 'u', 'e']
  | .bool false => ['f', 'a', 'l', 's', 'e']
  | .number n => (numberText n).toList
  | .string s => quoteChars s
  | .array _ => []
  | .object _ => []

def lineBreak (level : Nat) : List Char :=
  '\n' :: List.replicate (2 * level) ' '

mutual

def compactChars : Json → List Char
  | .array vs => '[' :: compactItems true vs ++ [']']
  | .object ms => '\x7b' :: compactMembers true ms ++ ['\x7d']
  | v => scalarChars v

/-- Items, with a comma before each but the first. -/
def compactItems (first : Bool) : JsonItems → List Char
  | .nil => []
  | .cons v vs => (if first then [] else [',']) ++ compactChars v ++ compactItems false vs

/-- Members, with a comma before each but the first. -/
def compactMembers (first : Bool) : JsonMembers → List Char
  | .nil => []
  | .cons k v ms =>
    (if first then [] else [',']) ++ quoteChars k ++ ':' :: compactChars v
      ++ compactMembers false ms

end

mutual

/-- A value at a level of indentation. -/
def prettyChars (level : Nat) : Json → List Char
  | .array .nil => ['[', ']']
  | .array vs => '[' :: prettyItems (level + 1) true vs ++ lineBreak level ++ [']']
  | .object .nil => ['\x7b', '\x7d']
  | .object ms => '\x7b' :: prettyMembers (level + 1) true ms ++ lineBreak level ++ ['\x7d']
  | v => scalarChars v

/-- Items, each on a line of its own. -/
def prettyItems (level : Nat) (first : Bool) : JsonItems → List Char
  | .nil => []
  | .cons v vs =>
    (if first then [] else [',']) ++ lineBreak level ++ prettyChars level v
      ++ prettyItems level false vs

/-- Members, each on a line of its own. -/
def prettyMembers (level : Nat) (first : Bool) : JsonMembers → List Char
  | .nil => []
  | .cons k v ms =>
    (if first then [] else [',']) ++ lineBreak level ++ quoteChars k ++ ':' :: ' ' ::
      prettyChars level v ++ prettyMembers level false ms

end

def compact (v : Json) : String :=
  String.ofList (compactChars v)

def pretty (v : Json) : String :=
  String.ofList (prettyChars 0 v)

end SignOn.Json
