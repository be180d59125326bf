import SignOn.Url.Host

/-! # Web addresses

Reading, resolving and writing URLs in their normal form.

* `Url.parse?` reads an absolute address: blanks around it and line ends inside of it do not
  count, the scheme and the host are put in lower case, dot segments are resolved and a default
  port is dropped.
* `Url.withPath?` is the address of an absolute path on the same origin.
* `Url.text` writes the normal form.

An address whose path does not start with a slash (`about:blank`) is opaque: no path can be
resolved against it. -/

namespace SignOn

/-- An absolute address in normal form.  It may have an authority whose host is empty, a port is not the scheme's own,
and an opaque path is text of the scheme's own, not a list of segments. -/
structure Url where
  scheme : String
  username : String := ""
  password : String := ""
  hasAuthority : Bool := false
  host : Option String := none
  port : Option Nat := none
  path : String := ""
  isOpaque : Bool := false
  query : Option String := none
  fragment : Option String := none
deriving DecidableEq, Repr, Inhabited

namespace Url

/-- The well-known schemes with their default ports. -/
def defaultPort? : String → Option (Option Nat)
  | "http" => some (some 80)
  | "https" => some (some 443)
  | "ws" => some (some 80)
  | "wss" => some (some 443)
  | "ftp" => some (some 21)
  | "file" => some none
  | _ => none

/-- Is the scheme one of the well-known ones? -/
def isSpecial (scheme : String) : Bool :=
  (defaultPort? scheme).isSome

/-- Cut at the first character of a class, which stays with the second part. -/
def cutAt (p : Char → Bool) (cs : List Char) : List Char × List Char :=
  (cs.takeWhile fun c => !p c, cs.dropWhile fun c => !p c)

/-- Does a character separate path segments? -/
def isSlash (special : Bool) (c : Char) : Bool :=
  c = '/' || (special && c = '\\')

/-! ### Paths -/

/-- Is a segment a dot, possibly spelled out? -/
def isDot (segment : List Char) : Bool :=
  [['.'], ['%', '2', 'e']].contains (segment.map Char.toLower)

/-- Is a segment two dots, possibly spelled out? -/
def isDoubleDot (segment : List Char) : Bool :=
  [['.', '.'], ['.', '%', '2', 'e'], ['%', '2', 'e', '.'],
    ['%', '2', 'e', '%', '2', 'e']].contains (segment.map Char.toLower)

def isDriveLetter (segment : List Char) : Bool :=
  match segment with
  | [a, ':'] => a.isAlpha
  | _ => false

/-- The segments of a path, split at its slashes. -/
def rawSegments (special : Bool) : List Char → List (List Char)
  | [] => [[]]
  | c :: cs =>
    if isSlash special c then [] :: rawSegments special cs
    else
      match rawSegments special cs with
      | [] => [[c]]
      | s :: ss => (c :: s) :: ss

/-- Leave a directory; the drive letter of a file path stays. -/
def leave (isFile : Bool) (done : List (List Char)) : List (List Char) :=
  match done with
  | [drive] => if isFile && isDriveLetter drive then [drive] else []
  | _ => done.tail

/-- Resolve dot segments; `done` holds the segments so far, last first. -/
def resolve (isFile : Bool) : List (List Char) → List (List Char) → List (List Char)
  | done, [] => done.reverse
  | done, s :: rest =>
    if isDoubleDot s then
      let done := leave isFile done
      resolve isFile (if rest = [] then [] :: done else done) rest
    else if isDot s then
      resolve isFile (if rest = [] then [] :: done else done) rest
    else
      resolve isFile (encode inPathSet s :: done) rest

def pathText (segments : List (List Char)) : String :=
  String.ofList (segments.flatMap ('/' :: ·))

/-- The normal form of a path that starts with a slash, or of an empty one. -/
def normalPath (scheme : String) (cs : List Char) : String :=
  let special := isSpecial scheme
  match cs with
  | [] => if special then "/" else ""
  | c :: rest =>
    let body := if isSlash special c then rest else c :: rest
    pathText (resolve (scheme = "file") [] (rawSegments special body))

/-! ### Reading -/

/-- Split off query and fragment. -/
def tails (scheme : String) (cs : List Char) : List Char × Option String × Option String :=
  let (front, fragment) := cutAt (· = '#') cs
  let (path, query) := cutAt (· = '?') front
  let written (set : Char → Bool) : List Char → Option String
    | [] => none
    | _ :: rest => some (String.ofList (encode set rest))
  (path, written (inQuerySet (isSpecial scheme)) query, written inFragmentSet fragment)

/-- The last `@` splits an authority into user and host. -/
def splitUser (cs : List Char) : Option (List Char) × List Char :=
  let parts := Text.splitAt '@' cs
  match parts.reverse with
  | [] => (none, [])
  | [host] => (none, host)
  | host :: users => (some (users.reverse.intersperse ['@']).flatten, host)

/-- Split host and port; colons inside of brackets belong to the host. -/
def splitPort (cs : List Char) : List Char × Option (List Char) :=
  match cs with
  | '[' :: _ =>
    let (inner, rest) := cutAt (· = ']') cs
    match rest with
    | ']' :: ':' :: port => (inner ++ [']'], some port)
    | _ => (cs, none)
  | _ =>
    match cutAt (· = ':') cs with
    | (host, _ :: port) => (host, some port)
    | (host, []) => (host, none)

/-- A port other than the scheme's own. -/
def port? (scheme : String) (cs : List Char) : Option (Option Nat) :=
  if cs = [] then some none
  else if cs.all Char.isDigit then do
    let n ← ofDigits? 10 cs
    if n > 65535 then none
    else if defaultPort? scheme = some (some n) then some none
    else some (some n)
  else none

/-- Read the authority of an address. -/
def authority? (scheme : String) (cs : List Char) : Option Url := do
  let (user, rest) := splitUser cs
  let (hostPart, portPart) := splitPort rest
  let host ← if isSpecial scheme then host? hostPart else opaqueHost? hostPart
  let port ← port? scheme (portPart.getD [])
  if host = "" ∧ (portPart.isSome ∨ user.isSome) then none
  let (name, password) := cutAt (· = ':') (user.getD [])
  return {
    scheme, port
    hasAuthority := true
    host := if host = "" then none else some host
    username := String.ofList (encode inUserSet name)
    password := String.ofList (encode inUserSet password.tail) }

/-- Read what follows the two slashes of an address. -/
def afterSlashes? (scheme : String) (cs : List Char) : Option Url := do
  let special := isSpecial scheme
  let (auth, rest) := cutAt (fun c => isSlash special c || c = '?' || c = '#') cs
  let url ← authority? scheme auth
  let (path, query, fragment) := tails scheme rest
  return { url with path := normalPath scheme path, query, fragment }

/-- Read what follows the colon of a file address. -/
def file? (cs : List Char) : Option Url := do
  let (path, query, fragment) := tails "file" cs
  let finish (host : Option String) (path : List Char) : Url :=
    let path := normalPath "file" path
    { scheme := "file", hasAuthority := true, host, query, fragment,
      path := if path = "" then "/" else path }
  match path with
  | a :: b :: rest =>
    if isSlash true a ∧ isSlash true b then
      let (hostPart, rest) := cutAt (isSlash true) rest
      if isDriveLetter hostPart then return finish none ('/' :: hostPart ++ rest)
      else if hostPart = [] then return finish none rest
      else
        let host ← host? hostPart
        return finish (if host = "localhost" then none else some host) rest
    else return finish none path
  | _ => return finish none path

/-- The scheme of an address, in lower case, and what follows its colon. -/
def scheme? (cs : List Char) : Option (String × List Char) :=
  match cutAt (· = ':') cs with
  | (c :: name, _ :: rest) =>
    if c.isAlpha ∧ name.all (fun c => c.isAlphanum || c = '+' || c = '-' || c = '.') then
      some (String.ofList ((c :: name).map Char.toLower), rest)
    else none
  | _ => none

/-- What counts of a text that is read as an address. -/
def significant (s : String) : List Char :=
  let drop (cs : List Char) := cs.dropWhile (·.toNat ≤ 0x20)
  (drop (drop s.toList).reverse).reverse.filter fun c => c ≠ '\t' ∧ c ≠ '\n' ∧ c ≠ '\r'

def parse? (s : String) : Option Url := do
  let (scheme, rest) ← scheme? (significant s)
  if scheme = "file" then file? rest
  else if isSpecial scheme then afterSlashes? scheme (rest.dropWhile (isSlash true))
  else
    match rest with
    | '/' :: '/' :: rest => afterSlashes? scheme rest
    | '/' :: _ =>
      let (path, query, fragment) := tails scheme rest
      return { scheme, path := normalPath scheme path, query, fragment }
    | _ =>
      let (path, query, fragment) := tails scheme rest
      return { scheme, isOpaque := true, query, fragment,
               path := String.ofList (encode isControl path) }

/-! ### Writing and resolving -/

/-- User name and password as they stand before the host. -/
def userText (u : Url) : String :=
  if u.username = "" ∧ u.password = "" then ""
  else u.username ++ (if u.password = "" then "" else ":" ++ u.password) ++ "@"

/-- The normal form of an address. -/
def text (u : Url) : String :=
  u.scheme ++ ":"
    ++ (if u.hasAuthority then
          "//" ++ u.userText ++ u.host.getD "" ++ (u.port.map fun n => ":" ++ toString n).getD ""
        else "")
    ++ u.path
    ++ (u.query.map ("?" ++ ·)).getD ""
    ++ (u.fragment.map ("#" ++ ·)).getD ""

/-- The drive letter at the front of a file path, as a path. -/
def drive (u : Url) : String :=
  match u.scheme, (u.path.toList.drop 1).splitAt 2 with
  | "file", (letter, rest) =>
    if isDriveLetter letter ∧ (rest = [] ∨ rest.head? = some '/') then
      String.ofList ('/' :: letter)
    else ""
  | _, _ => ""

/-- The address of an absolute path on the same origin; opaque addresses have none. -/
def withPath? (u : Url) (path : String) : Option Url :=
  if u.isOpaque then none
  else
    some { u with
      path := u.drive ++ normalPath u.scheme path.toList
      query := none
      fragment := none }

/-- The host of an address in lower case, if the text is an address with a host. -/
def hostOf? (s : String) : Option String :=
  (parse? s).bind fun u => u.host.map Text.asciiLower

end Url

end SignOn
