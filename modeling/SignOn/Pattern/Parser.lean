import SignOn.Pattern.Basic
import SignOn.Text.Search

/-! # Written patterns

`Pattern.parse?` reads the written form of a pattern; a text that is no pattern gives `none`.
There are no look-around assertions and no references to groups.  Flags in a group hold up to the
end of that group.  A pattern whose bounded repetitions unfold to more than `maxStates` states is
refused. -/

namespace SignOn.Pattern

/-- What the flags of a group change. -/
structure Flags where
  ignoreCase : Bool := false
  multiLine : Bool := false
  dotAll : Bool := false
  verbose : Bool := false
  unicode : Bool := true
deriving DecidableEq, Repr

/-- Levels of nested groups and classes. -/
def maxNesting : Nat := 250

/-- States that a pattern may unfold to. -/
def maxStates : Nat := 327680

def literal (f : Flags) (n : Nat) : Class :=
  if f.ignoreCase then Class.foldCase [(n, n)] else [(n, n)]

/-- Skip blanks and comments, which do not count under the verbose flag. -/
def skipVerbose : Bool → List Char → List Char
  | _, [] => []
  | true, c :: cs => skipVerbose (c ≠ '\n') cs
  | false, c :: cs =>
    if c = '#' then skipVerbose true cs
    else if Text.isBlank c then skipVerbose false cs
    else c :: cs

def skipFree (f : Flags) (cs : List Char) : List Char :=
  if f.verbose then skipVerbose false cs else cs

/-! ### Escapes -/

/-- What an escape stands for. -/
inductive Escape where
  | char (n : Nat)
  | class (k : Class)
  | look (l : Look)

/-- The value of a hexadecimal digit. -/
def hex? (c : Char) : Option Nat :=
  let n := c.toNat
  if 0x30 ≤ n ∧ n ≤ 0x39 then some (n - 0x30)
  else if 0x61 ≤ n ∧ n ≤ 0x66 then some (n - 0x61 + 10)
  else if 0x41 ≤ n ∧ n ≤ 0x46 then some (n - 0x41 + 10)
  else none

/-- The code point of hexadecimal digits. -/
def codePoint? (digits : List Char) : Option Nat := do
  guard (digits ≠ [] ∧ digits.length ≤ 8)
  let n ← digits.foldl (fun acc c => do return (← acc) * 16 + (← hex? c)) (some 0)
  guard n.isValidChar
  return n

/-- The code point after `\x`, `\u` or `\U`: a fixed number of digits, or digits in braces. -/
def hexEscape? (width : Nat) : List Char → Option (Nat × List Char)
  | '\x7b' :: cs =>
    match cs.span (· ≠ '\x7d') with
    | (digits, _ :: rest) => do return (← codePoint? digits, rest)
    | _ => none
  | cs => do
    guard (width ≤ cs.length)
    return (← codePoint? (cs.take width), cs.drop width)

/-- The class of a property, after `\p`. -/
def property? : List Char → Option (Class × List Char)
  | '\x7b' :: cs =>
    match cs.span (· ≠ '\x7d') with
    | (name, _ :: rest) => do
      let (negated, name) := match name with
        | '^' :: name => (true, name)
        | name => (false, name)
      let clean := (name.filter fun c => c ≠ ' ' ∧ c ≠ '-' ∧ c ≠ '_').map Char.toLower
      let k ← Class.property? (String.ofList clean)
      return (if negated then k.complement else k, rest)
    | _ => none
  | c :: rest => do return (← Class.property? (String.ofList [c.toLower]), rest)
  | [] => none

/-- The condition of a word edge, after `\b`. -/
def wordEdge? (ascii : Bool) : List Char → Option (Look × List Char)
  | '\x7b' :: cs =>
    match cs.span (· ≠ '\x7d') with
    | (name, _ :: rest) =>
      match String.ofList name with
      | "start" => some (.wordStart ascii, rest)
      | "end" => some (.wordEnd ascii, rest)
      | _ => none
    | _ => none
  | cs => some (.wordEdge ascii, cs)

/-- Read an escape behind its backslash. -/
def escape? (f : Flags) : List Char → Option (Escape × List Char)
  | [] => none
  | c :: cs =>
    let digit := if f.unicode then Class.digit else [(0x30, 0x39)]
    let blank := if f.unicode then Class.blank else [(0x9, 0xD), (0x20, 0x20)]
    let word := if f.unicode then Class.word else [(0x30, 0x39), (0x41, 0x5A), (0x5F, 0x5F), (0x61, 0x7A)]
    match c with
    | 'd' => some (.class digit, cs)
    | 'D' => some (.class digit.complement, cs)
    | 's' => some (.class blank, cs)
    | 'S' => some (.class blank.complement, cs)
    | 'w' => some (.class word, cs)
    | 'W' => some (.class word.complement, cs)
    | 'p' => (property? cs).map fun r => (.class r.1, r.2)
    | 'P' => (property? cs).map fun r => (.class r.1.complement, r.2)
    | 'x' => (hexEscape? 2 cs).map fun r => (.char r.1, r.2)
    | 'u' => (hexEscape? 4 cs).map fun r => (.char r.1, r.2)
    | 'U' => (hexEscape? 8 cs).map fun r => (.char r.1, r.2)
    | 'a' => some (.char 0x07, cs)
    | 'f' => some (.char 0x0C, cs)
    | 't' => some (.char 0x09, cs)
    | 'n' => some (.char 0x0A, cs)
    | 'r' => some (.char 0x0D, cs)
    | 'v' => some (.char 0x0B, cs)
    | 'A' => some (.look .textStart, cs)
    | 'z' => some (.look .textEnd, cs)
    | 'b' => (wordEdge? (!f.unicode) cs).map fun r => (.look r.1, r.2)
    | 'B' => some (.look (.noWordEdge (!f.unicode)), cs)
    | '<' => some (.look (.wordStart (!f.unicode)), cs)
    | '>' => some (.look (.wordEnd (!f.unicode)), cs)
    | c => if c.toNat < 0x80 ∧ ¬ c.isAlphanum then some (.char c.toNat, cs) else none

/-! ### Classes in brackets -/

/-- A member of a class: one character, or a class of its own. -/
def classItem? (f : Flags) : List Char → Option ((Nat ⊕ Class) × List Char)
  | [] => none
  | '\\' :: cs =>
    match escape? f cs with
    | some (.char n, rest) => some (.inl n, rest)
    | some (.class k, rest) => some (.inr k, rest)
    | _ => none
  | c :: cs => some (.inl c.toNat, cs)

/-- A class of ASCII by name, behind `[:`. -/
def asciiClass? (cs : List Char) : Option (Class × List Char) :=
  let (negated, cs) := match cs with
    | '^' :: cs => (true, cs)
    | cs => (false, cs)
  match cs.span (· ≠ ':') with
  | (name, ':' :: ']' :: rest) =>
    (Class.ascii? (String.ofList name)).map fun k => (if negated then k.complement else k, rest)
  | _ => none

/-- A member or a range, with what follows it. -/
def classRange? (f : Flags) (cs : List Char) : Option (Class × List Char) := do
  let (first, rest) ← classItem? f cs
  match skipFree f rest with
  | '-' :: after =>
    match skipFree f after with
    | [] => none
    | ']' :: _ => return (single first, rest)
    | '-' :: _ => return (single first, rest)
    | after =>
      match first, ← classItem? f after with
      | .inl a, (.inl b, rest) => if a ≤ b then return ([(a, b)], rest) else none
      | _, _ => none
  | _ => return (single first, rest)
where
  single : Nat ⊕ Class → Class
    | .inl n => [(n, n)]
    | .inr k => k

/-- How the part of a class that is being read joins what stands before it. -/
inductive ClassJoin where
  | first
  | inter (k : Class)
  | diff (k : Class)
  | symmetric (k : Class)

/-- Join the part that has been read. -/
def ClassJoin.apply (f : Flags) (j : ClassJoin) (k : Class) : Class :=
  let k := if f.ignoreCase then k.foldCase else k
  match j with
  | .first => k
  | .inter l => l.inter k
  | .diff l => l.diff k
  | .symmetric l => l.diff k ++ k.diff l

mutual

/-- Read a class behind its opening bracket. -/
def class? : (fuel depth : Nat) → Flags → List Char → Option (Class × List Char)
  | 0, _, _, _ => none
  | _, 0, _, _ => none
  | fuel + 1, depth + 1, f, cs => do
    let (negated, cs) := match skipFree f cs with
      | '^' :: cs => (true, skipFree f cs)
      | cs => (false, cs)
    let dashes := cs.takeWhile (· = '-')
    let start : Class := dashes.map fun c => (c.toNat, c.toNat)
    let (start, cs) := match dashes, cs.drop dashes.length with
      | [], ']' :: cs => ([(0x5D, 0x5D)], cs)
      | _, cs => (start, cs)
    let (k, rest) ← classMembers? fuel depth f .first start cs
    return (if negated then k.complement else k, rest)

/-- Read the members of a class up to its closing bracket. -/
def classMembers? : (fuel depth : Nat) → Flags → ClassJoin → Class → List Char →
    Option (Class × List Char)
  | 0, _, _, _, _, _ => none
  | fuel + 1, depth, f, j, acc, cs =>
    match skipFree f cs with
    | [] => none
    | ']' :: rest => some (j.apply f acc, rest)
    | '&' :: '&' :: rest => classMembers? fuel depth f (.inter (j.apply f acc)) [] rest
    | '-' :: '-' :: rest => classMembers? fuel depth f (.diff (j.apply f acc)) [] rest
    | '~' :: '~' :: rest => classMembers? fuel depth f (.symmetric (j.apply f acc)) [] rest
    | '[' :: rest =>
      let named := match rest with
        | ':' :: cs => asciiClass? cs
        | _ => none
      match named with
      | some (k, rest) => classMembers? fuel depth f j (acc ++ k) rest
      | none => do
        let (k, rest) ← class? fuel depth f rest
        classMembers? fuel depth f j (acc ++ k) rest
    | cs => do
      let (k, rest) ← classRange? f cs
      classMembers? fuel depth f j (acc ++ k) rest

end

/-! ### Repetition -/

/-- A decimal number with blanks around it. -/
def count? (cs : List Char) : Option Nat := do
  let cs := (cs.dropWhile Text.isBlank).reverse.dropWhile Text.isBlank |>.reverse
  guard (cs ≠ [] ∧ cs.all Char.isDigit)
  let n : Nat := cs.foldl (fun n c => n * 10 + (c.toNat - 48)) 0
  guard (n < UInt32.size)
  return n

/-- The bounds of a counted repetition. -/
def bounds? (cs : List Char) : Option (Nat × Option Nat) :=
  match cs.span (· ≠ ',') with
  | (a, []) => (count? a).map fun n => (n, some n)
  | (a, _ :: b) => do
    let n ← count? a
    if b.all Text.isBlank then return (n, none)
    else
      let m ← count? b
      guard (n ≤ m)
      return (n, some m)

/-- Drop the mark of a reluctant repetition, which does not change what matches. -/
def dropReluctant : List Char → List Char
  | '?' :: cs => cs
  | cs => cs

/-- Apply the repetition operators that follow a pattern. -/
def repeated? (f : Flags) : (fuel : Nat) → Pattern → List Char → Option (Pattern × List Char)
  | 0, p, cs => some (p, cs)
  | fuel + 1, p, cs =>
    match skipFree f cs with
    | '*' :: rest => repeated? f fuel (.times p 0 none) (dropReluctant rest)
    | '+' :: rest => repeated? f fuel (.times p 1 none) (dropReluctant rest)
    | '?' :: rest => repeated? f fuel (.times p 0 (some 1)) (dropReluctant rest)
    | '\x7b' :: rest =>
      match rest.span (· ≠ '\x7d') with
      | (inner, _ :: rest) => do
        let (n, m) ← bounds? inner
        repeated? f fuel (.times p n m) (dropReluctant rest)
      | _ => none
    | _ => some (p, cs)

/-- Does a repetition operator stand here, with nothing to repeat? -/
def isOperator : List Char → Bool
  | c :: _ => c = '*' || c = '+' || c = '?' || c = '\x7b'
  | [] => false

/-! ### Groups -/

def setFlag (on : Bool) (c : Char) (f : Flags) : Option Flags :=
  match c with
  | 'i' => some { f with ignoreCase := on }
  | 'm' => some { f with multiLine := on }
  | 's' => some { f with dotAll := on }
  | 'x' => some { f with verbose := on }
  | 'u' => some { f with unicode := on }
  | 'U' => some f
  | 'R' => some f
  | _ => none

/-- Read flags up to and with the character behind them, which closes or opens the group. -/
def flags? : (on : Bool) → (seen : List Char) → Flags → List Char →
    Option (Flags × Char × List Char)
  | _, _, _, [] => none
  | on, seen, f, c :: cs =>
    if c = ')' ∨ c = ':' then
      if seen.head? = some '-' ∨ (c = ')' ∧ seen = []) then none else some (f, c, cs)
    else if seen.contains c then none
    else if c = '-' then flags? false (c :: seen) f cs
    else do flags? on (c :: seen) (← setFlag on c f) cs

/-- Read the name of a group up to and with its closing bracket. -/
def groupName? (cs : List Char) : Option (String × List Char) :=
  match cs.span (· ≠ '>') with
  | (name, _ :: rest) =>
    let isFirst (c : Char) : Bool := c = '_' || Class.letter.mem c.toNat
    let isOther (c : Char) : Bool :=
      isFirst c || c = '.' || c = '[' || c = ']' || Class.digit.mem c.toNat
    match name with
    | c :: more => if isFirst c ∧ more.all isOther then some (String.ofList name, rest) else none
    | [] => none
  | _ => none

def sequence (p q : Pattern) : Pattern :=
  if p = .empty then q else if q = .empty then p else .seq p q

mutual

/-- Read alternatives up to the end of the group. -/
def alternatives? : (fuel depth : Nat) → Flags → (names : List String) → List Char →
    Option (Pattern × List String × List Char)
  | 0, _, _, _, _ => none
  | fuel + 1, depth, f, names, cs => do
    let (p, f, names, rest) ← items? fuel depth f names cs
    match rest with
    | '|' :: rest =>
      let (q, names, rest) ← alternatives? fuel depth f names rest
      return (.alt p q, names, rest)
    | rest => return (p, names, rest)

/-- Read a sequence of items; flags set in it hold for what follows. -/
def items? : (fuel depth : Nat) → Flags → (names : List String) → List Char →
    Option (Pattern × Flags × List String × List Char)
  | 0, _, _, _, _ => none
  | fuel + 1, depth, f, names, cs =>
    let cs := skipFree f cs
    if isOperator cs then none
    else
      match cs with
      | [] => some (.empty, f, names, [])
      | '|' :: rest => some (.empty, f, names, '|' :: rest)
      | ')' :: rest => some (.empty, f, names, ')' :: rest)
      | cs => do
        let (p, g, names, rest) ← item? fuel depth f names cs
        match p with
        | none => items? fuel depth g names rest
        | some p =>
          let (p, rest) ← repeated? f (rest.length + 1) p rest
          let (q, f, names, rest) ← items? fuel depth f names rest
          return (sequence p q, f, names, rest)

/-- Read one item; no pattern if it only sets flags. -/
def item? : (fuel depth : Nat) → Flags → (names : List String) → List Char →
    Option (Option Pattern × Flags × List String × List Char)
  | 0, _, _, _, _ => none
  | _, 0, _, _, _ => none
  | fuel + 1, depth + 1, f, names, cs =>
    match cs with
    | [] => none
    | '.' :: rest =>
      if ¬ f.unicode then none
      else
        some (some (.one (if f.dotAll then .any else Class.complement [(0x0A, 0x0A)])), f, names, rest)
    | '^' :: rest => some (some (.look (if f.multiLine then .lineStart else .textStart)), f, names, rest)
    | '$' :: rest => some (some (.look (if f.multiLine then .lineEnd else .textEnd)), f, names, rest)
    | '[' :: rest => do
      let (k, rest) ← class? (2 * rest.length + 2) depth f rest
      return (some (.one k), f, names, rest)
    | '\\' :: rest => do
      match ← escape? f rest with
      | (.char n, rest) => return (some (.one (literal f n)), f, names, rest)
      | (.class k, rest) =>
        return (some (.one (if f.ignoreCase then k.foldCase else k)), f, names, rest)
      | (.look l, rest) => return (some (.look l), f, names, rest)
    | '(' :: rest =>
      match rest with
      | '?' :: '=' :: _ => none
      | '?' :: '!' :: _ => none
      | '?' :: '<' :: '=' :: _ => none
      | '?' :: '<' :: '!' :: _ => none
      | '?' :: 'P' :: '<' :: rest => do
        let (name, rest) ← groupName? rest
        if names.contains name then none else group? fuel depth f f (name :: names) rest
      | '?' :: '<' :: rest => do
        let (name, rest) ← groupName? rest
        if names.contains name then none else group? fuel depth f f (name :: names) rest
      | '?' :: rest => do
        let (g, close, rest) ← flags? true [] f rest
        if close = ')' then return (none, g, names, rest) else group? fuel depth f g names rest
      | rest => group? fuel depth f f names rest
    | c :: rest => some (some (.one (literal f c.toNat)), f, names, rest)

/-- Read the inside of a group, under flags of its own, and its end. -/
def group? : (fuel depth : Nat) → (outer inner : Flags) → (names : List String) → List Char →
    Option (Option Pattern × Flags × List String × List Char)
  | 0, _, _, _, _, _ => none
  | fuel + 1, depth, outer, inner, names, cs => do
    match ← alternatives? fuel depth inner names cs with
    | (p, names, ')' :: rest) => return (some p, outer, names, rest)
    | _ => none

end

/-- States that a pattern unfolds to; a range outside of ASCII takes two. -/
def states : Pattern → Nat
  | .never => 1
  | .empty => 1
  | .look _ => 1
  | .one k => 1 + 2 * (k.filter fun r => r.2 > 0x7F).length
  | .seq p q => p.states + q.states
  | .alt p q => p.states + q.states + 1
  | .times p min max => (p.states + 1) * Nat.max 1 (max.getD (min + 1))

def parse? (s : String) : Option Pattern := do
  let cs := s.toList
  match ← alternatives? (6 * cs.length + 6) maxNesting {} [] cs with
  | (p, _, []) => if p.states ≤ maxStates then return p else none
  | _ => none

end SignOn.Pattern
