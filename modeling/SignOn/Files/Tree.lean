import SignOn.Error
import SignOn.Files.Path
import SignOn.Text.Symbols

/-! # A tree of files

Directories, files and symbolic links, and the operations of the system on them with the causes of
their failures.

* A `Tree` is a list of entries by their place, the names on the way from the root; each place
  stands at most once, and the root itself is not listed.
* `resolve` follows a path from the working directory, through links, to a place.
* Each operation either fails or gives the tree that it leaves. -/

namespace SignOn.Files

/-- What a file holds: text, or bytes that are none. -/
inductive Content where
  | text (s : String)
  | bytes (bs : List UInt8)
deriving DecidableEq, Repr, Inhabited

def Content.symbols : Content → List Text.Symbol
  | .text s => Text.symbols s
  | .bytes bs => Text.symbolsOfBytes bs

/-- The text of a file, if it holds one. -/
def Content.text? : Content → Option String
  | .text s => some s
  | .bytes _ => none

def Content.ofBytes (bs : List UInt8) : Content :=
  match Text.ofSymbols? (Text.symbolsOfBytes bs) with
  | some s => .text s
  | none => .bytes bs

/-- What stands at a place. -/
inductive Entry where
  | file (content : Content) (modified : Int)
  | directory (modified : Int)
  | link (target : String)
deriving DecidableEq, Repr, Inhabited

/-- A place: the names on the way from the root. -/
abbrev Place := List String

/-- Entries by their place. -/
abbrev Tree := List (Place × Entry)

namespace Tree

/-- What stands at a place; the root is a directory. -/
def get? (t : Tree) (p : Place) : Option Entry :=
  if p = [] then some (.directory 0) else t.lookup p

/-- Take away what stands at a place. -/
def erase (t : Tree) (p : Place) : Tree :=
  t.filter (·.1 ≠ p)

def set (t : Tree) (p : Place) (e : Entry) : Tree :=
  (p, e) :: t.erase p

/-- The names in a directory, in ascending order. -/
def names (t : Tree) (p : Place) : List String :=
  ((t.filter fun e => e.1 ≠ [] ∧ e.1.dropLast = p).filterMap fun e => e.1.getLast?).mergeSort
    fun a b => !decide (b < a)

end Tree

/-- The tree, the directory that relative paths start from, and the times at which directories have gained or lost an
entry since they stand in the tree, the last one first. -/
structure Disk where
  tree : Tree := []
  working : Place := []
  touched : List (Place × Int) := []
deriving DecidableEq, Repr, Inhabited

def maxName : Nat := 255

def maxPath : Nat := 4095

/-- Links that a path may lead through. -/
def maxLinks : Nat := 40

/-- Follow the remaining parts of a path from a place.  The last part is followed through links
only if `follow` says so; it need not exist.  `fuel` bounds the parts, `links` the links. -/
def walk (t : Tree) (follow : Bool) :
    (fuel links : Nat) → Place → List String → Except FileError Place
  | 0, _, _, _ => .error .tooManyLinks
  | _, _, place, [] => .ok place
  | fuel + 1, links, place, part :: rest =>
    match t.get? place with
    | some (.directory _) =>
      if part = ".." then walk t follow fuel links place.dropLast rest
      else if part.utf8ByteSize > maxName then .error .nameTooLong
      else
        let next := place ++ [part]
        match t.get? next with
        | none => if rest = [] then .ok next else .error .notFound
        | some (.link target) =>
          if rest = [] ∧ ¬ follow then .ok next
          else
            match links with
            | 0 => .error .tooManyLinks
            | links + 1 =>
              walk t follow fuel links (if Path.isAbsolute target then [] else place)
                (Path.parts target ++ rest)
        | some (.file ..) => if rest = [] then .ok next else .error .notDirectory
        | some (.directory _) => walk t follow fuel links next rest
    | some _ => .error .notDirectory
    | none => .error .notFound

namespace Disk

def resolve (d : Disk) (follow : Bool) (path : String) : Except FileError Place :=
  if path = "" then .error .notFound
  else if path.toList.contains '\x00' then .error .nulInPath
  else if path.utf8ByteSize > maxPath then .error .nameTooLong
  else
    walk d.tree follow (41 * (maxPath + 1)) maxLinks
      (if Path.isAbsolute path then [] else d.working) (Path.parts path)

/-- What stands at the place of a path. -/
def entry? (d : Disk) (follow : Bool) (path : String) : Except FileError (Place × Entry) :=
  match d.resolve follow path with
  | .error e => .error e
  | .ok place =>
    match d.tree.get? place with
    | some e => .ok (place, e)
    | none => .error .notFound

/-- Is there a directory at a path? -/
def isDirectory (d : Disk) (path : String) : Bool :=
  match d.entry? true path with
  | .ok (_, .directory _) => true
  | _ => false

def read (d : Disk) (path : String) : Except FileError Content :=
  match d.entry? true path with
  | .error e => .error e
  | .ok (_, .file content _) => .ok content
  | .ok (_, .directory _) => .error .isDirectory
  | .ok (_, .link _) => .error .tooManyLinks

/-- When a file or a directory was last changed, in milliseconds. -/
def modified (d : Disk) (path : String) : Except FileError Int :=
  match d.entry? true path with
  | .error e => .error e
  | .ok (_, .file _ m) => .ok m
  | .ok (place, .directory m) => .ok ((d.touched.lookup place).getD m)
  | .ok (_, .link _) => .error .tooManyLinks

/-- The disk with another tree, in which entries have come to or gone from `places` at a time. -/
def changed (d : Disk) (tree : Tree) (now : Int) (places : List Place) : Disk :=
  { d with tree, touched := places.map (fun p => (p.dropLast, now)) ++ d.touched }

@[simp] theorem changed_tree (d : Disk) (tree : Tree) (now : Int) (places : List Place) :
    (d.changed tree now places).tree = tree := rfl

@[simp] theorem changed_working (d : Disk) (tree : Tree) (now : Int) (places : List Place) :
    (d.changed tree now places).working = d.working := rfl

def write (d : Disk) (now : Int) (path : String) (content : Content) : Except FileError Disk :=
  match d.resolve true path with
  | .error e => .error e
  | .ok place =>
    match d.tree.get? place with
    | some (.directory _) => .error .isDirectory
    | there =>
      .ok (d.changed (d.tree.set place (.file content now)) now (if there.isNone then [place] else []))

/-- Take a file or a link away, at a time. -/
def remove (d : Disk) (now : Int) (path : String) : Except FileError Disk :=
  match d.entry? false path with
  | .error e => .error e
  | .ok (_, .directory _) => .error .isDirectory
  | .ok (place, _) => .ok (d.changed (d.tree.erase place) now [place])

/-- Move a file to another path, in place of a file or a link that is there, at a time. -/
def rename (d : Disk) (now : Int) (source target : String) : Except FileError Disk :=
  match d.entry? false source, d.resolve false target with
  | .error e, _ => .error e
  | _, .error e => .error e
  | .ok (old, e), .ok new =>
    match d.tree.get? new with
    | some (.directory _) => .error .isDirectory
    | _ =>
      .ok (d.changed ((d.tree.erase old).set new e) now (if old = new then [] else [old, new]))

/-- Make one directory, at a time. -/
def makeDirectory (d : Disk) (now : Int) (path : String) : Except FileError Disk :=
  match d.resolve false path with
  | .error e => .error e
  | .ok place =>
    match d.tree.get? place with
    | some _ => .error .exists_
    | none => .ok (d.changed (d.tree.set place (.directory now)) now [place])

/-- What became of making a directory that may be there already. -/
def settled (d : Disk) (path : String) : Except FileError Disk → Disk × Option FileError
  | .ok d => (d, none)
  | .error e => (d, if d.isDirectory path then none else some e)

/-- Make a directory and the ones above it that are missing; `fuel` bounds the levels. -/
def makeDirectoriesFrom (now : Int) : (fuel : Nat) → Disk → String → Disk × Option FileError
  | fuel, d, path =>
    if path = "" then (d, none)
    else
      match fuel, d.makeDirectory now path, Path.parent? path with
      | fuel + 1, .error .notFound, some above =>
        match makeDirectoriesFrom now fuel d above with
        | (d, some e) => (d, some e)
        | (d, none) => d.settled path (d.makeDirectory now path)
      | _, .error .notFound, _ => (d, some .notFound)
      | _, made, _ => d.settled path made

/-- Make a directory and the ones above it that are missing.  Those made before a failure stay. -/
def makeDirectories (d : Disk) (now : Int) (path : String) : Disk × Option FileError :=
  makeDirectoriesFrom now path.length d path

/-- The names in a directory, in ascending order. -/
def names (d : Disk) (path : String) : Except FileError (List String) :=
  match d.entry? true path with
  | .error e => .error e
  | .ok (place, .directory _) => .ok (d.tree.names place)
  | .ok _ => .error .notDirectory

end Disk

end SignOn.Files
