import SignOn.Files.Path
import SignOn.Settings.Basic

/-! # Names of stored sessions

The session of a role is kept in one file, named by a pattern with places for the role and for the
environment.

* `pathFor` puts role and environment into the pattern.
* `roleOf?` reads the role off a file name: every place stands for a text that is not empty and has
  no line end, and of the ways to read a name the one with the shortest texts counts, from left to
  right. -/

namespace SignOn.Store

/-- The ending of every file name. -/
def ending : String := ".json"

/-- The place of the role in a pattern. -/
def rolePlace : String := "\x7brole\x7d"

/-- The place of the environment in a pattern. -/
def envPlace : String := "\x7benv\x7d"

/-- The environment when none is named. -/
def defaultEnv : String := "default"

def withEnding (name : String) : String :=
  if Text.endsWith name ending then name else name ++ ending

def fileNameFor (pattern : String) (env : Option String) (role : String) : String :=
  withEnding (Text.replaceAll (Text.replaceAll pattern rolePlace role) envPlace
    (env.getD defaultEnv))

/-- The path of a role's session. -/
def pathFor (s : StoreSettings) (env : Option String) (role : String) : String :=
  Path.join s.directory (fileNameFor s.filePattern env role)

/-- A part of a pattern. -/
inductive Piece where
  | char (c : Char)
  | role
  | env
deriving DecidableEq, Repr

/-- The parts of a pattern.  The count skips the rest of a place. -/
def piecesFrom : (skip : Nat) → List Char → List Piece
  | _, [] => []
  | skip + 1, _ :: cs => piecesFrom skip cs
  | 0, c :: cs =>
    if (Text.dropPrefix? rolePlace.toList (c :: cs)).isSome then
      .role :: piecesFrom (rolePlace.length - 1) cs
    else if (Text.dropPrefix? envPlace.toList (c :: cs)).isSome then
      .env :: piecesFrom (envPlace.length - 1) cs
    else .char c :: piecesFrom 0 cs

def pieces (pattern : String) : List Piece :=
  piecesFrom 0 pattern.toList

/-- Fill a place with the shortest text after which the rest can be read; `text` is what has been
taken already. -/
def fill (rest : List Char → Option (List (List Char))) (text : List Char) :
    List Char → Option (List (List Char))
  | [] => none
  | c :: cs =>
    if c = '\n' then none
    else
      match rest cs with
      | some texts => some ((text ++ [c]) :: texts)
      | none => fill rest (text ++ [c]) cs

/-- The texts of the places of a pattern in a name. -/
def fillings : List Piece → List Char → Option (List (List Char))
  | [], cs => if cs = [] then some [] else none
  | .char _ :: _, [] => none
  | .char a :: ps, c :: cs => if a = c then fillings ps cs else none
  | .role :: ps, cs => fill (fillings ps) [] cs
  | .env :: ps, cs => fill (fillings ps) [] cs

/-- The text of the first place of the role. -/
def roleAmong : List Piece → List (List Char) → Option String
  | .char _ :: ps, texts => roleAmong ps texts
  | .env :: ps, _ :: texts => roleAmong ps texts
  | .role :: _, text :: _ => some (String.ofList text)
  | _, _ => none

/-- The role that a file name stands for. -/
def roleOf? (path pattern : String) : Option String := do
  let name ← Path.fileName? path
  let ps := pieces (withEnding pattern)
  roleAmong ps (← fillings ps name.toList)

end SignOn.Store
