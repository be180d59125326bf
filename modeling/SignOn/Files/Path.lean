import SignOn.Text.Search

/-! # Paths

Paths are texts with parts between slashes.  Empty parts and dots do not count, except for a dot
at the front of a relative path.

* `join` puts a path below a directory; an absolute path replaces it.
* `parent?` and `fileName?` split a path at its last part.
* `hasExtension` looks at what follows the last dot of a name. -/

namespace SignOn.Path

/-- Does a path start at the root? -/
def isAbsolute (p : String) : Bool :=
  p.toList.head? = some '/'

def join (directory p : String) : String :=
  if isAbsolute p ∨ directory = "" then p
  else if directory.toList.getLast? = some '/' then directory ++ p
  else directory ++ "/" ++ p

def rawParts (p : String) : List String :=
  Text.split p '/'

/-- The parts that lead from one directory to the next. -/
def parts (p : String) : List String :=
  (rawParts p).filter fun s => s ≠ "" ∧ s ≠ "."

/-- Drop the parts at the end that do not count; `keep` parts at the front stay. -/
def trimParts (keep : Nat) (ps : List String) : List String :=
  ps.take keep ++ ((ps.drop keep).reverse.dropWhile fun s => s = "" ∨ s = ".").reverse

/-- Parts at the front that count in any case: the root, or a leading dot. -/
def fixedParts (ps : List String) : Nat :=
  match ps with
  | "" :: _ :: _ => 1
  | "." :: _ => 1
  | _ => 0

def ofParts : List String → String
  | [""] => "/"
  | ps => Text.join "/" ps

/-- The path without its last part; the root and the empty path have none. -/
def parent? (p : String) : Option String :=
  let ps := rawParts p
  let fixed := fixedParts ps
  let trimmed := trimParts fixed ps
  if trimmed.length > fixed then some (ofParts (trimParts fixed trimmed.dropLast))
  else if trimmed = ["."] then some ""
  else none

/-- The last part of a path, unless it leads upwards. -/
def fileName? (p : String) : Option String :=
  match (parts p).getLast? with
  | some ".." => none
  | some name => some name
  | none => none

/-- Is `ext` what follows the last dot of a name?  A dot at the front of a name does not count. -/
def hasExtension (name ext : String) : Bool :=
  match (Text.splitAt '.' name.toList).reverse with
  | last :: before :: rest =>
    String.ofList last = ext && !(before = [] && rest = []) && name ≠ ".."
  | _ => false

end SignOn.Path
