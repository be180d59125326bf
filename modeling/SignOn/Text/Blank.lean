/-! # Blank characters

The characters that count as white space (Unicode property `White_Space`), and trimming.

* `isBlank` is the class; every blank of ASCII is in it (`isBlank_of_isWhitespace`).
* `trim` drops blanks at both ends and nothing else. -/

namespace SignOn.Text

/-- White space: the tabs and line ends, the space, and the wider spaces of Unicode. -/
def isBlank (c : Char) : Bool :=
  let n := c.toNat
  (9 ≤ n && n ≤ 13) || n == 0x20 || n == 0x85 || n == 0xA0 || n == 0x1680
    || (0x2000 ≤ n && n ≤ 0x200A) || n == 0x2028 || n == 0x2029 || n == 0x202F
    || n == 0x205F || n == 0x3000

theorem isBlank_of_isWhitespace {c : Char} (h : c.isWhitespace = true) : isBlank c = true := by
  simp only [Char.isWhitespace, Bool.or_eq_true, decide_eq_true_eq] at h
  rcases h with ((h | h) | h) | h <;> subst h <;> decide

def trimStart (cs : List Char) : List Char :=
  cs.dropWhile isBlank

def trim (s : String) : String :=
  String.ofList (trimStart (trimStart s.toList).reverse).reverse

def isAllBlank (s : String) : Bool :=
  s.toList.all isBlank

end SignOn.Text
