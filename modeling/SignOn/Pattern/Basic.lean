import SignOn.Pattern.Class

/-! # Patterns and matching

A `Pattern` describes a set of texts; `Pattern.found` asks whether some part of a text belongs to
it.  Matching follows a list of partial derivatives: after each character it holds what is still to
come of every way that a match may have begun.

* `Look` are the conditions on the two characters around a position.
* `Pattern.endsAt` says whether nothing more has to come at a position.
* `Pattern.after` are the patterns for what has to follow a character. -/

namespace SignOn

/-- A condition on a position between two characters; `none` is the end of the text. -/
inductive Look where
  | textStart
  | textEnd
  | lineStart
  | lineEnd
  | wordEdge (ascii : Bool)
  | noWordEdge (ascii : Bool)
  | wordStart (ascii : Bool)
  | wordEnd (ascii : Bool)
deriving DecidableEq, Repr

/-- A pattern over characters.  Nothing matches `never`, and `times` asks for at least `min` repetitions, and for
`max` at most if there is a bound. -/
inductive Pattern where
  | never
  | empty
  | look (l : Look)
  | one (k : Pattern.Class)
  | seq (p q : Pattern)
  | alt (p q : Pattern)
  | times (p : Pattern) (min : Nat) (max : Option Nat)
deriving DecidableEq, Repr, Inhabited

/-- Is a character part of a word? -/
def isWordChar (ascii : Bool) : Option Char → Bool
  | none => false
  | some c =>
    if ascii then c.isAlphanum || c = '_' else Pattern.Class.word.mem c.toNat

/-- Does a condition hold between `before` and `next`? -/
def Look.holds (l : Look) (before next : Option Char) : Bool :=
  match l with
  | .textStart => before.isNone
  | .textEnd => next.isNone
  | .lineStart => before.isNone || before = some '\n'
  | .lineEnd => next.isNone || next = some '\n'
  | .wordEdge ascii => isWordChar ascii before != isWordChar ascii next
  | .noWordEdge ascii => isWordChar ascii before == isWordChar ascii next
  | .wordStart ascii => !isWordChar ascii before && isWordChar ascii next
  | .wordEnd ascii => isWordChar ascii before && !isWordChar ascii next

namespace Pattern

/-- Does the pattern match the empty text at the position between `before` and `next`? -/
def endsAt (before next : Option Char) : Pattern → Bool
  | .never => false
  | .empty => true
  | .look l => l.holds before next
  | .one _ => false
  | .seq p q => p.endsAt before next && q.endsAt before next
  | .alt p q => p.endsAt before next || q.endsAt before next
  | .times p min _ => min = 0 || p.endsAt before next

/-- A sequence, with nothing put in front of what is already all. -/
def andThen (p q : Pattern) : Pattern :=
  if p = .empty then q else .seq p q

/-- What may follow once `c` has been taken behind `before`. -/
def after (before : Option Char) (c : Char) : Pattern → List Pattern
  | .never => []
  | .empty => []
  | .look _ => []
  | .one k => if k.mem c.toNat then [.empty] else []
  | .seq p q =>
    (p.after before c).map (·.andThen q)
      ++ if p.endsAt before (some c) then q.after before c else []
  | .alt p q => p.after before c ++ q.after before c
  | .times p min max =>
    if max = some 0 then []
    else (p.after before c).map (·.andThen (.times p (min - 1) (max.map (· - 1))))

/-- The list without repetitions. -/
def distinct (ps : List Pattern) : List Pattern :=
  ps.foldl (fun acc p => if acc.contains p then acc else p :: acc) []

/-- Goes through a text with the patterns that are still to be matched; at every position a new
match may begin. -/
def search (p : Pattern) (before : Option Char) (open_ : List Pattern) : List Char → Bool
  | [] => (p :: open_).any (·.endsAt before none)
  | c :: cs =>
    let all := p :: open_
    all.any (·.endsAt before (some c))
      || search p (some c) (distinct (all.flatMap (·.after before c))) cs

/-- Does some part of a text match? -/
def found (p : Pattern) (s : String) : Bool :=
  search p none [] s.toList

end Pattern

end SignOn
