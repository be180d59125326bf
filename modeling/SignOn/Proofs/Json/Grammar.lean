import SignOn.Proofs.Json.Leaves

/-! # The grammar of JSON texts

Which symbols are a JSON text, and of which tree.  The grammar knows nothing of the reader: it says what a value, a
number and a string may look like, with gaps wherever they are allowed.

* **Strings.**  A `StringPart` is a character, a stray byte, or a code unit given by its digits; `textOf?` is what
  parts say together, nothing if a byte or half of a surrogate pair stands alone.
* **Numbers.**  `numberLeaf` is what the digits of a number amount to.
* **Values.**  `TextOf d ss`: the symbols `ss` are a text of the tree `d`. -/

namespace SignOn.Json

open Text (Symbol)

/-! ### Strings -/

/-- A part of the body of a string: a character, a byte that is part of no character, or a code unit. -/
inductive StringPart where
  | char (c : Char)
  | byte
  | unit (n : Nat)

/-- The symbols that a part is written with.  A character stands for itself unless it is a control character, a
quotation mark or a backslash. -/
inductive StringPart.Written : StringPart → List Symbol → Prop
  | plain {c : Char} : 0x20 ≤ c.toNat → c ≠ '"' → c ≠ '\\' → Written (.char c) [some c]
  | byte : Written .byte [none]
  | short {e c : Char} : shortEscape? e = some c → Written (.char c) [some '\\', some e]
  | unit {x y z w : Symbol} {n : Nat} : codeUnit? x y z w = some n →
      Written (.unit n) [some '\\', some 'u', x, y, z, w]

/-- The symbols of the body of a string. -/
inductive BodyOf : List StringPart → List Symbol → Prop
  | nil : BodyOf [] []
  | cons {p : StringPart} {ps : List StringPart} {ss rest : List Symbol} :
      p.Written ss → BodyOf ps rest → BodyOf (p :: ps) (ss ++ rest)

/-- The first half of a surrogate pair. -/
def isLead (n : Nat) : Bool :=
  0xD800 ≤ n && n ≤ 0xDBFF

/-- The second half of a surrogate pair. -/
def isTrail (n : Nat) : Bool :=
  0xDC00 ≤ n && n ≤ 0xDFFF

/-- The character of a surrogate pair. -/
def pairChar (lead trail : Nat) : Char :=
  Char.ofNat (0x10000 + (lead - 0xD800) * 0x400 + (trail - 0xDC00))

/-- What the parts of a string say, unless a byte or half of a surrogate pair stands alone. -/
def textOf? : List StringPart → Option (List Char)
  | [] => some []
  | .char c :: ps => (textOf? ps).map (c :: ·)
  | .byte :: _ => none
  | .unit n :: ps =>
    if isLead n then
      match ps with
      | .unit m :: ps => if isTrail m then (textOf? ps).map (pairChar n m :: ·) else none
      | _ => none
    else if isTrail n then none
    else (textOf? ps).map (Char.ofNat n :: ·)

/-- The string of its parts; one that says nothing may only be passed over. -/
def stringOf (ps : List StringPart) : Except Unusable String :=
  match textOf? ps with
  | some cs => .ok (String.ofList cs)
  | none => .error ⟨.malformed, none⟩

def stringLeaf (ps : List StringPart) : Draft :=
  match stringOf ps with
  | .ok s => .string s
  | .error u => .unusable u

/-! ### Numbers -/

def IsDigits (cs : List Char) : Prop :=
  cs ≠ [] ∧ ∀ c ∈ cs, c.isDigit = true

/-- The integer part of a number: a zero alone, or digits that start with another one. -/
def IsWhole (cs : List Char) : Prop :=
  IsDigits cs ∧ (cs.head? = some '0' → cs = ['0'])

def digitValues (cs : List Char) : List Nat :=
  cs.map fun c => c.toNat - 48

/-- A number with an exponent, which may be too large to be one. -/
def exponentLeaf (negative : Bool) (significand : Nat) (start : Int) (down : Bool) (digits : List Char) : Draft :=
  match appendDigits 0x80000000 0 (digitValues digits) with
  | (e, 0) => floatLeaf negative significand (clamp32 (if down then start - e else start + e))
  | _ =>
    if significand = 0 ∨ down then .number (.float (signed negative 0)) else .unusable ⟨.malformed, none⟩

/-- A number of a significand that is too long by `excess` digits, and of an exponent, if there is one. -/
def scaledLeaf (negative : Bool) (significand : Nat) (start : Int) : Option (Bool × List Char) → Draft
  | none => floatLeaf negative significand start
  | some (down, digits) => exponentLeaf negative significand start down digits

/-- A number whose integer part is `n`, too long by `excess` digits, with the digits behind the point and those of the
exponent. -/
def fractionLeaf (negative : Bool) (n excess : Nat) : Option (List Char) → Option (Bool × List Char) → Draft
  | none, none => if excess = 0 then integerLeaf negative n else floatLeaf negative n excess
  | none, some exponent => scaledLeaf negative n excess (some exponent)
  | some digits, exponent =>
    let (significand, left) := appendDigits 0x10000000000000000 n (digitValues digits)
    scaledLeaf negative significand ((excess : Int) - ((digits.length - left : Nat) : Int)) exponent

/-- What the digits of a number amount to: those before and behind the point, and those of the exponent. -/
def numberLeaf (negative : Bool) (whole : List Char) (fraction : Option (List Char))
    (exponent : Option (Bool × List Char)) : Draft :=
  let (n, excess) := appendDigits 0x10000000000000000 0 (digitValues whole)
  fractionLeaf negative n excess fraction exponent

/-- The fraction of a number as it is written. -/
def IsFraction : Option (List Char) → List Char → Prop
  | none, cs => cs = []
  | some digits, cs => IsDigits digits ∧ cs = '.' :: digits

/-- The sign of an exponent as it is written. -/
def IsSign : Bool → List Char → Prop
  | true, cs => cs = ['-']
  | false, cs => cs = [] ∨ cs = ['+']

/-- The exponent of a number as it is written. -/
def IsExponent : Option (Bool × List Char) → List Char → Prop
  | none, cs => cs = []
  | some (down, digits), cs => IsDigits digits ∧ ∃ mark sign, (mark = 'e' ∨ mark = 'E') ∧ IsSign down sign ∧
      cs = mark :: (sign ++ digits)

/-- The characters are a number without a sign, and amount to the leaf, with a sign or without. -/
def IsUnsigned (negative : Bool) (leaf : Draft) (cs : List Char) : Prop :=
  ∃ whole fraction exponent fractionText exponentText,
    IsWhole whole ∧ IsFraction fraction fractionText ∧ IsExponent exponent exponentText ∧
      leaf = numberLeaf negative whole fraction exponent ∧ cs = whole ++ (fractionText ++ exponentText)

/-- The characters are a number, and amount to the leaf. -/
def IsNumber (leaf : Draft) (cs : List Char) : Prop :=
  IsUnsigned false leaf cs ∨ ∃ unsigned, IsUnsigned true leaf unsigned ∧ cs = '-' :: unsigned

/-! ### Values -/

def Gap (cs : List Char) : Prop :=
  ∀ c ∈ cs, isGap (some c) = true

theorem gap_nil : Gap [] := fun _ h => nomatch h

/-- What stands before an item or a member: a gap, and before each but the first a comma in it. -/
def IsLeading (first : Bool) (cs : List Char) : Prop :=
  if first then Gap cs else ∃ before behind, Gap before ∧ Gap behind ∧ cs = before ++ ',' :: behind

/-- A member: the body of its key, the gaps around the colon, and what stands behind them. -/
def memberStart (body : List Symbol) (before behind : List Char) (ss : List Symbol) : List Symbol :=
  some '"' :: (body ++ some '"' :: (before.map some ++ some ':' :: (behind.map some ++ ss)))

mutual

/-- The symbols are a text of the tree. -/
inductive TextOf : Draft → List Symbol → Prop
  | null : TextOf .null (['n', 'u', 'l', 'l'].map some)
  | yes : TextOf (.bool true) (['t', 'r', 'u', 'e'].map some)
  | no : TextOf (.bool false) (['f', 'a', 'l', 's', 'e'].map some)
  | number {leaf : Draft} {cs : List Char} : IsNumber leaf cs → TextOf leaf (cs.map some)
  | string {ps : List StringPart} {body : List Symbol} : BodyOf ps body →
      TextOf (stringLeaf ps) (some '"' :: (body ++ [some '"']))
  | array {items : DraftItems} {inner : List Symbol} {gap : List Char} : ItemsTextOf true items inner → Gap gap →
      TextOf (.array items) (some '[' :: (inner ++ (gap.map some ++ [some ']'])))
  | object {members : DraftMembers} {inner : List Symbol} {gap : List Char} :
      MembersTextOf true members inner → Gap gap →
      TextOf (.object members) (some '\x7b' :: (inner ++ (gap.map some ++ [some '\x7d'])))

/-- The symbols are a text of the items. -/
inductive ItemsTextOf : Bool → DraftItems → List Symbol → Prop
  | stop {first : Bool} : ItemsTextOf first (.stop none) []
  | more {first : Bool} {v : Draft} {vs : DraftItems} {lead : List Char} {item tail : List Symbol} :
      IsLeading first lead → TextOf v item → ItemsTextOf false vs tail →
      ItemsTextOf first (.more v vs) (lead.map some ++ (item ++ tail))

/-- The symbols are a text of the members. -/
inductive MembersTextOf : Bool → DraftMembers → List Symbol → Prop
  | stop {first : Bool} : MembersTextOf first (.stop none) []
  | more {first : Bool} {ps : List StringPart} {v : Draft} {ms : DraftMembers} {lead before behind : List Char}
      {body item tail : List Symbol} :
      IsLeading first lead → BodyOf ps body → Gap before → Gap behind → TextOf v item → MembersTextOf false ms tail →
      MembersTextOf first (.more (stringOf ps) v ms)
        (lead.map some ++ memberStart body before behind (item ++ tail))

end

/-- The symbols are a text of the tree, with gaps around it. -/
def Document (d : Draft) (ss : List Symbol) : Prop :=
  ∃ before text behind, Gap before ∧ TextOf d text ∧ Gap behind ∧ ss = before.map some ++ (text ++ behind.map some)

end SignOn.Json
