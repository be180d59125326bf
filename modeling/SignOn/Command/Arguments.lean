import SignOn.Text.Search

/-! # Command lines

Reading the arguments of the command line and the environment variables that stand in for them.

* An `Invocation` is what the user wants done, with the options that hold for every action.
* A `Usage` is the reason a command line is refused, or a request for help.

Options may stand before the name of the action and behind it; what stands behind it counts. -/

namespace SignOn.Command

/-- Why a command line leads to no action. -/
inductive Usage where
  | helpOnMissing
  | help
  | version
  | unknownArgument
  | invalidSubcommand
  | missingSubcommand
  | missingArgument
  | invalidValue
  | argumentConflict
  | valueValidation
  | tooManyValues
deriving DecidableEq, Repr, Inhabited

namespace Usage

def name : Usage → String
  | .helpOnMissing => "DisplayHelpOnMissingArgumentOrSubcommand"
  | .help => "DisplayHelp"
  | .version => "DisplayVersion"
  | .unknownArgument => "UnknownArgument"
  | .invalidSubcommand => "InvalidSubcommand"
  | .missingSubcommand => "MissingSubcommand"
  | .missingArgument => "MissingRequiredArgument"
  | .invalidValue => "InvalidValue"
  | .argumentConflict => "ArgumentConflict"
  | .valueValidation => "ValueValidation"
  | .tooManyValues => "TooManyValues"

/-- The exit code: asking for help or the version is no mistake. -/
def exitCode : Usage → Nat
  | .help => 0
  | .version => 0
  | _ => 2

end Usage

/-- What the user wants done.  A check without roles is one of all roles. -/
inductive Action where
  | check (roles : List String)
  | list
  | status (role : String)
  | clear (role : Option String)
  | cleanup (maxAgeHours : Option Nat)
  | totp (role : String)
deriving DecidableEq, Repr, Inhabited

def Action.name : Action → String
  | .check _ => "check"
  | .list => "list"
  | .status _ => "status"
  | .clear _ => "clear"
  | .cleanup _ => "cleanup"
  | .totp _ => "totp"

/-- An action, the path of the settings, and the environment that file names speak of. -/
structure Invocation where
  action : Action
  config : String
  env : Option String
  verbosity : Nat
deriving DecidableEq, Repr, Inhabited

/-! ### Values -/

/-- The variables of the environment that stand in for options: the path of the settings, the
environment that file names speak of, and the verbosity. -/
def variableNames : List String :=
  ["AUTHSTATE_CONFIG", "AUTHSTATE_ENV", "AUTHSTATE_LOG_LEVEL"]

/-- The path of the settings unless another one is given. -/
def defaultConfig : String := "auth.config.json"

/-- A natural number below a limit; a plus sign may stand before it. -/
def number? (limit : Nat) (s : String) : Option Nat :=
  let digits := match s.toList with
    | '+' :: cs => cs
    | cs => cs
  if digits ≠ [] ∧ digits.all Char.isDigit then
    let n := digits.foldl (fun n c => n * 10 + (c.toNat - 48)) 0
    if n < limit then some n else none
  else none

/-- A level of verbosity: up to 5, or a name. -/
def verbosity? (s : String) : Option Nat :=
  match (number? 256 s).filter (· ≤ 5) with
  | some n => some n
  | none =>
    match Text.asciiLower s with
    | "error" => some 0
    | "warn" => some 1
    | "info" => some 2
    | "debug" => some 3
    | "trace" => some 4
    | _ => none

/-! ### Options -/

/-- The options that take a value. -/
inductive ValueOption where
  | config
  | env
  | maxAge
deriving DecidableEq, Repr, Inhabited

/-- What may stand behind the name of an action. -/
inductive Positionals where
  | none
  | optional
  | required
  | many
deriving DecidableEq, Repr, Inhabited

/-- What one part of a command line may hold: the part before the name of the action, or the one
behind it. -/
structure Shape where
  isTop : Bool
  takesMaxAge : Bool
  positionals : Positionals
deriving DecidableEq, Repr, Inhabited

/-- What has been read of one part.  An option is pending, with its value if it has one, until it is entered. -/
structure Part where
  config : Option String := none
  env : Option String := none
  verbose : Nat := 0
  maxAge : Option Nat := none
  roles : List String := []
  pending : Option (ValueOption × Option String) := none
deriving DecidableEq, Repr, Inhabited

namespace Part

/-- Enter the option that has been read last. -/
def settle (p : Part) : Except Usage Part :=
  match p.pending with
  | none => .ok p
  | some (_, none) => .error .invalidValue
  | some (.config, some v) =>
    if p.config.isSome then .error .argumentConflict
    else .ok { p with config := some v, pending := none }
  | some (.env, some v) =>
    if p.env.isSome then .error .argumentConflict
    else .ok { p with env := some v, pending := none }
  | some (.maxAge, some v) =>
    if p.maxAge.isSome then .error .argumentConflict
    else
      match number? UInt64.size v with
      | some n => .ok { p with maxAge := some n, pending := none }
      | none => .error .valueValidation

/-- Begin an option that takes a value. -/
def start (p : Part) (o : ValueOption) (v : Option String) : Except Usage Part :=
  p.settle.map fun p => { p with pending := some (o, v) }

/-- Does an option wait for its value? -/
def isWaiting (p : Part) : Bool :=
  match p.pending with
  | some (_, none) => true
  | _ => false

/-- Enter one more level of verbosity. -/
def moreVerbose (p : Part) : Except Usage Part := do
  let p ← p.settle
  if p.verbose < 5 then return { p with verbose := p.verbose + 1 } else .error .valueValidation

def addRole (p : Part) (role : String) : Except Usage Part :=
  p.settle.map fun p => { p with roles := p.roles ++ [role] }

end Part

/-- Read a long option behind its dashes, with its value if one is attached. -/
def longOption (s : Shape) (name : String) (v : Option String) (p : Part) : Except Usage Part :=
  match name with
  | "config" => p.start .config v
  | "env" => p.start .env v
  | "max-age-hours" => if s.takesMaxAge then p.start .maxAge v else .error .unknownArgument
  | "verbose" => if v.isSome then .error .tooManyValues else p.moreVerbose
  | "help" => if v.isSome then .error .tooManyValues else .error .help
  | "version" =>
    if ¬ s.isTop then .error .unknownArgument
    else if v.isSome then .error .tooManyValues
    else .error .version
  | _ => .error .unknownArgument

/-- Read a cluster of short options; one that takes a value takes what follows it. -/
def shortOptions (s : Shape) : List Char → Part → Except Usage Part
  | [], p => .ok p
  | 'v' :: cs, p => do shortOptions s cs (← p.moreVerbose)
  | 'c' :: cs, p => p.start .config (attached cs)
  | 'e' :: cs, p => p.start .env (attached cs)
  | 'h' :: _, _ => .error .help
  | 'V' :: _, _ => .error (if s.isTop then .version else .unknownArgument)
  | _ :: _, _ => .error .unknownArgument
where
  attached : List Char → Option String
    | [] => none
    | '=' :: cs => some (String.ofList cs)
    | cs => some (String.ofList cs)

/-- Read an argument that is no option. -/
def positional (s : Shape) (arg : String) (p : Part) : Except Usage Part :=
  match s.positionals with
  | .none => .error (if s.isTop then .invalidSubcommand else .unknownArgument)
  | .many => p.addRole arg
  | _ => if p.roles = [] then p.addRole arg else .error .unknownArgument

def actionNames : List String :=
  ["check", "list", "status", "clear", "cleanup", "totp"]

/-- Read one part of a command line: what it holds, and the name of the action and the rest if the
part ends with one.  Behind two dashes there are no options. -/
def readPart (s : Shape) : (plain : Bool) → List String → Part →
    Except Usage (Part × Option (String × List String))
  | _, [], p => .ok (p, none)
  | true, arg :: rest, p =>
    if s.isTop ∧ (actionNames.contains arg ∨ arg = "help") then .error .unknownArgument
    else do readPart s true rest (← positional s arg p)
  | false, arg :: rest, p =>
    if s.isTop ∧ ¬ p.isWaiting ∧ (actionNames.contains arg ∨ arg = "help") then
      .ok (p, some (arg, rest))
    else
      match arg.toList with
      | ['-', '-'] => readPart s true rest p
      | '-' :: '-' :: cs =>
        let (name, v) := cs.span (· ≠ '=')
        let v := match v with
          | [] => none
          | _ :: v => some (String.ofList v)
        do readPart s false rest (← longOption s (String.ofList name) v p)
      | '-' :: c :: cs => do readPart s false rest (← shortOptions s (c :: cs) p)
      | _ =>
        match p.pending with
        | some (o, none) => readPart s false rest { p with pending := some (o, some arg) }
        | _ => do readPart s false rest (← positional s arg p)

/-- The verbosity of the environment; a bad one is refused wherever the options do not set it. -/
def envVerbosity (env : String → Option String) (p : Part) : Except Usage (Option Nat) :=
  if p.verbose ≠ 0 then .ok none
  else
    match env "AUTHSTATE_LOG_LEVEL" with
    | none => .ok none
    | some v =>
      match verbosity? v with
      | some n => .ok (some n)
      | none => .error .valueValidation

/-- What may stand behind the name of an action. -/
def shapeOf : String → Shape
  | "check" => ⟨false, false, .many⟩
  | "status" => ⟨false, false, .required⟩
  | "totp" => ⟨false, false, .required⟩
  | "clear" => ⟨false, false, .optional⟩
  | "cleanup" => ⟨false, true, .none⟩
  | _ => ⟨false, false, .none⟩

def actionOf (name : String) (p : Part) : Except Usage Action :=
  match name, p.roles with
  | "check", roles => .ok (.check roles)
  | "list", _ => .ok .list
  | "status", role :: _ => .ok (.status role)
  | "clear", roles => .ok (.clear roles.head?)
  | "cleanup", _ => .ok (.cleanup p.maxAge)
  | "totp", role :: _ => .ok (.totp role)
  | _, _ => .error .missingArgument

/-- Help on an action, or on help itself, and on nothing else. -/
def helpOn : List String → Usage
  | [] => .help
  | [name] => if actionNames.contains name ∨ name = "help" then .help else .invalidSubcommand
  | _ => .invalidSubcommand

/-- Read a command line. -/
def parse (args : List String) (env : String → Option String) : Except Usage Invocation := do
  let (top, sub) ← readPart ⟨true, false, .none⟩ false args {}
  match sub with
  | some ("help", rest) => .error (helpOn rest)
  | some (name, rest) =>
    let (part, _) ← readPart (shapeOf name) false rest {}
    let part ← part.settle
    let level ← envVerbosity env part
    let action ← actionOf name part
    let top ← top.settle
    let _ ← envVerbosity env top
    return {
      action
      config := ((part.config.or top.config).or (env "AUTHSTATE_CONFIG")).getD defaultConfig
      env := (part.env.or top.env).or (env "AUTHSTATE_ENV")
      verbosity :=
        if part.verbose ≠ 0 then part.verbose
        else if top.verbose ≠ 0 then top.verbose
        else level.getD 0 }
  | none =>
    let top ← top.settle
    let level ← envVerbosity env top
    if top.config.isSome ∨ top.env.isSome ∨ top.verbose ≠ 0 ∨ level.isSome
        ∨ (env "AUTHSTATE_CONFIG").isSome ∨ (env "AUTHSTATE_ENV").isSome then
      .error .missingSubcommand
    else .error .helpOnMissing

end SignOn.Command
