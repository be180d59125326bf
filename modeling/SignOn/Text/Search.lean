/-! # Searching and replacing text

Substring search over lists of characters, with the `String` forms used elsewhere.

* `occursIn` asks for a contiguous occurrence; `occursIn_iff` states it as a decomposition.
* `replaceAll` scans left to right and does not look inside what it has put in.
* `asciiLower` lower-cases the characters whose lower case reaches ASCII, which is all that a
  search for an ASCII word can see. -/

namespace SignOn.Text

/-- Does `t` start with `p`?  If so, what follows it. -/
def dropPrefix? : List Char → List Char → Option (List Char)
  | [], t => some t
  | _ :: _, [] => none
  | p :: ps, c :: cs => if p = c then dropPrefix? ps cs else none

theorem dropPrefix?_eq_some_iff {p t r : List Char} :
    dropPrefix? p t = some r ↔ t = p ++ r := by
  induction p generalizing t with
  | nil => simp [dropPrefix?, eq_comm]
  | cons a p ih =>
    cases t with
    | nil => simp [dropPrefix?]
    | cons c cs =>
      by_cases h : a = c
      · simp [dropPrefix?, h, ih]
      · simp [dropPrefix?, h, Ne.symm h]

/-- Does `p` occur in `t` as a contiguous part? -/
def occursIn (p : List Char) : List Char → Bool
  | [] => p.isEmpty
  | c :: cs => (dropPrefix? p (c :: cs)).isSome || occursIn p cs

theorem occursIn_iff {p t : List Char} : occursIn p t = true ↔ ∃ a b, t = a ++ p ++ b := by
  induction t with
  | nil =>
    cases p <;> simp [occursIn]
  | cons c cs ih =>
    simp only [occursIn, Bool.or_eq_true, ih, Option.isSome_iff_exists, dropPrefix?_eq_some_iff]
    constructor
    · rintro (⟨r, h⟩ | ⟨a, b, h⟩)
      · exact ⟨[], r, by simpa using h⟩
      · exact ⟨c :: a, b, by simp [h]⟩
    · rintro ⟨a, b, h⟩
      cases a with
      | nil => exact .inl ⟨b, by simpa using h⟩
      | cons x a =>
        simp only [List.cons_append, List.cons.injEq] at h
        exact .inr ⟨a, b, h.2⟩

/-- Does `fragment` occur in `s`? -/
def contains (s fragment : String) : Bool :=
  occursIn fragment.toList s.toList

/-- Replace every occurrence of the non-empty `p` in `t` by `r`, left to right.  The count
skips the rest of an occurrence that has been replaced. -/
def replaceFrom (p r : List Char) : Nat → List Char → List Char
  | _, [] => []
  | skip + 1, _ :: cs => replaceFrom p r skip cs
  | 0, c :: cs =>
    if (dropPrefix? p (c :: cs)).isSome then
      r ++ replaceFrom p r (p.length - 1) cs
    else
      c :: replaceFrom p r 0 cs

/-- Replace every occurrence of the non-empty text `p` in `s` by `r`. -/
def replaceAll (s p r : String) : String :=
  String.ofList (replaceFrom p.toList r.toList 0 s.toList)

def endsWith (s suffix : String) : Bool :=
  (dropPrefix? suffix.toList.reverse s.toList.reverse).isSome

/-- Lower case where it reaches ASCII: the letters A to Z, the Kelvin sign (which becomes `k`)
and the dotted capital I (which becomes `i` and a combining dot).  Every other character stays. -/
def asciiLowerChar (c : Char) : List Char :=
  if c.toNat = 0x212A then ['k']
  else if c.toNat = 0x130 then ['i', Char.ofNat 0x307]
  else [c.toLower]

/-- Lower case of a text as far as a search for ASCII words can tell. -/
def asciiLower (s : String) : String :=
  String.ofList (s.toList.flatMap asciiLowerChar)

/-- The parts of a text between occurrences of a separator; a text without the separator is one
part. -/
def splitAt (sep : Char) : List Char → List (List Char)
  | [] => [[]]
  | c :: cs =>
    if c = sep then
      [] :: splitAt sep cs
    else
      match splitAt sep cs with
      | [] => [[c]]
      | part :: parts => (c :: part) :: parts

/-- The parts of a text between occurrences of a separator. -/
def split (s : String) (sep : Char) : List String :=
  (splitAt sep s.toList).map String.ofList

/-- The parts joined, with a separator between neighbours. -/
def join (sep : String) : List String → String
  | [] => ""
  | [s] => s
  | s :: rest => s ++ sep ++ join sep rest

/-- A number written with at least `width` digits, padded with zeros. -/
def padNat (width n : Nat) : String :=
  let digits := toString n
  String.ofList (List.replicate (width - digits.length) '0') ++ digits

end SignOn.Text
