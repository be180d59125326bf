import SignOn.Url.Encoding
import SignOn.Text.Search

/-! # Hosts of addresses

* `host?` reads the host of an address with a well-known scheme: an IPv6 address in brackets, an
  IPv4 address in any of its spellings, or a domain name in ASCII, which is put in lower case.
* `opaqueHost?` reads the host of any other address, which stays as it is. -/

namespace SignOn.Url

/-! ### IPv4 -/

/-- A number in base `b` over its digits. -/
def ofDigits? (b : Nat) (cs : List Char) : Option Nat :=
  cs.foldl (fun acc c => do
    let n ← acc
    let d ← hexValue? c
    if d < b then some (n * b + d) else none) (some 0)

/-- A part of an IPv4 address: decimal, octal behind `0`, hexadecimal behind `0x`. -/
def ipv4Part? : List Char → Option Nat
  | [] => none
  | '0' :: x :: rest =>
    if x = 'x' ∨ x = 'X' then ofDigits? 16 rest else ofDigits? 8 (x :: rest)
  | cs => ofDigits? 10 cs

/-- Does a domain end in a number, so that it has to be an IPv4 address? -/
def endsInNumber (cs : List Char) : Bool :=
  let parts := Text.splitAt '.' cs
  let parts := if parts.getLast? = some [] ∧ parts.length > 1 then parts.dropLast else parts
  match parts.getLast? with
  | none => false
  | some last =>
    (last ≠ [] && last.all fun c => (hexValue? c).any (· < 10)) ||
      (match last with
        | '0' :: x :: rest => (x = 'x' || x = 'X') && rest.all fun c => (hexValue? c).isSome
        | _ => false)

/-- The address of up to four parts, of which the last fills what the others leave. -/
def ipv4Value? (parts : List Nat) : Option Nat :=
  match parts.reverse with
  | [] => none
  | last :: others =>
    if others.any (· > 255) || others.length > 3 || last ≥ 1 <<< (8 * (4 - others.length)) then none
    else
      some (others.reverse.zipIdx.foldl (fun acc p => acc + p.1 <<< (8 * (3 - p.2))) last)

def ipv4? (cs : List Char) : Option Nat := do
  let parts := Text.splitAt '.' cs
  let parts := if parts.getLast? = some [] ∧ parts.length > 1 then parts.dropLast else parts
  ipv4Value? (← parts.mapM ipv4Part?)

def ipv4Text (n : Nat) : String :=
  Text.join "." ([3, 2, 1, 0].map fun i => toString (n >>> (8 * i) % 256))

/-! ### IPv6 -/

/-- A group of one to four hexadecimal digits. -/
def ipv6Group? (cs : List Char) : Option Nat :=
  if cs = [] ∨ cs.length > 4 then none else ofDigits? 16 cs

/-- The decimal parts of an IPv4 address at the end of an IPv6 address, as two groups. -/
def ipv6Tail? (cs : List Char) : Option (List Nat) := do
  let parts ← (Text.splitAt '.' cs).mapM fun p =>
    if p = [] ∨ p.length > 3 ∨ (p.head? = some '0' ∧ p.length > 1) then none
    else (ofDigits? 10 p).bind fun n => if n < 256 then some n else none
  match parts with
  | [a, b, c, d] => some [a * 256 + b, c * 256 + d]
  | _ => none

/-- The groups between colons; only the last part of the address may be an IPv4 address. -/
def ipv6Groups? (isLast : Bool) (cs : List Char) : Option (List Nat) :=
  if cs = [] then some []
  else
    let parts := Text.splitAt ':' cs
    match parts.reverse with
    | last :: others =>
      if isLast ∧ last.contains '.' then do
        return (← others.reverse.mapM ipv6Group?) ++ (← ipv6Tail? last)
      else parts.mapM ipv6Group?
    | [] => none

/-- The parts before and after the first double colon. -/
def cutDouble : List Char → List Char × Option (List Char)
  | [] => ([], none)
  | ':' :: ':' :: rest => ([], some rest)
  | c :: rest =>
    let (a, b) := cutDouble rest
    (c :: a, b)

def ipv6? (cs : List Char) : Option (List Nat) := do
  match cutDouble cs with
  | (front, none) =>
    let groups ← ipv6Groups? true front
    if groups.length = 8 then some groups else none
  | (front, some back) =>
    let a ← ipv6Groups? false front
    let b ← ipv6Groups? true back
    if a.length + b.length < 8 then
      some (a ++ List.replicate (8 - a.length - b.length) 0 ++ b)
    else none

/-- The number of zeros at the front. -/
def zeroRun (groups : List Nat) : Nat :=
  (groups.takeWhile (· = 0)).length

/-- The first longest run of at least two zero groups: where it starts and how long it is. -/
def longestZeroRun (groups : List Nat) : Option (Nat × Nat) :=
  (List.range groups.length).foldl (fun best i =>
    let n := zeroRun (groups.drop i)
    if n ≥ 2 ∧ n > (best.map Prod.snd).getD 0 then some (i, n) else best) none

def groupsText (groups : List Nat) : String :=
  Text.join ":" (groups.map fun n => String.ofList (Nat.toDigits 16 n))

/-- An IPv6 address in brackets, its longest run of zeros left out. -/
def ipv6Text (groups : List Nat) : String :=
  "[" ++ (match longestZeroRun groups with
    | none => groupsText groups
    | some (i, n) => groupsText (groups.take i) ++ "::" ++ groupsText (groups.drop (i + n))) ++ "]"

/-! ### Hosts -/

/-- Characters that no host may hold. -/
def isForbiddenInHost (c : Char) : Bool :=
  ['\x00', '\t', '\n', '\r', ' ', '#', '/', ':', '<', '>', '?', '@', '[', '\\', ']', '^',
    '|'].contains c

/-- Characters that no domain name may hold. -/
def isForbiddenInDomain (c : Char) : Bool :=
  isForbiddenInHost c || c.toNat < 0x20 || c = '%' || c.toNat = 0x7F

/-- An IPv6 address in brackets. -/
def bracketed? (cs : List Char) : Option String :=
  match cs.reverse with
  | ']' :: inner => (ipv6? inner.reverse).map ipv6Text
  | _ => none

/-- The host of an address with a well-known scheme. -/
def host? : List Char → Option String
  | [] => none
  | '[' :: rest => bracketed? rest
  | cs => do
    let domain ← Text.ofSymbols? (Text.symbolsOfBytes (decode cs))
    let lower := domain.toList.map Char.toLower
    if lower = [] ∨ lower.any (fun c => isForbiddenInDomain c || c.toNat > 0x7F) then none
    else if endsInNumber lower then (ipv4? lower).map ipv4Text
    else some (String.ofList lower)

/-- The host of any other address; it may be empty. -/
def opaqueHost? : List Char → Option String
  | '[' :: rest => bracketed? rest
  | cs =>
    if cs.any isForbiddenInHost then none else some (String.ofList (encode isControl cs))

end SignOn.Url
