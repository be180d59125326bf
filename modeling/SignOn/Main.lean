import SignOn.Command.Run

/-! # The program

The command line: reads the arguments, carries out the action that they ask for on the machine at
hand, and tells by its exit code what became of it.

The actions are plans; `perform` does what they ask for, with files, environment and clocks of the
machine.  There is no page and no endpoint behind the command line, and no action asks for one. -/

namespace SignOn.Command

/-- The number that the system gives to the cause of a failure. -/
def systemCode : IO.Error → Nat
  | .alreadyExists _ code _ | .otherError code _ | .resourceBusy code _
  | .resourceVanished code _ | .unsupportedOperation code _ | .hardwareFault code _
  | .unsatisfiedConstraints code _ | .illegalOperation code _ | .protocolError code _
  | .timeExpired code _ | .interrupted _ code _ | .noFileOrDirectory _ code _
  | .invalidArgument _ code _ | .permissionDenied _ code _ | .resourceExhausted _ code _
  | .inappropriateType _ code _ | .noSuchThing _ code _ => code.toNat
  | .unexpectedEof | .userError _ => 0

/-- The outcome of something that the system does. -/
def attempt {α : Type} (act : IO α) : IO (Except FileError α) := do
  match ← act.toBaseIO with
  | .ok a => return .ok a
  | .error e => return .error (.system (systemCode e))

/-- Milliseconds since 1970. -/
def millis (t : IO.FS.SystemTime) : Int :=
  t.sec * 1000 + t.nsec.toNat / 1000000

/-- The wall clock, as it stamps a new file. -/
def readWallClock : IO Int := do
  let (_, path) ← IO.FS.createTempFile
  let stamp ← path.metadata
  IO.FS.removeFile path
  return millis stamp.modified

/-- Carry out an operation on a file. -/
def performFile : (op : FileOp) → IO (Except FileError op.Value)
  | .read path =>
    attempt do return Files.Content.ofBytes (← IO.FS.readBinFile path).toList
  | .write path content => attempt (IO.FS.writeFile path content)
  | .rename source target => attempt (IO.FS.rename source target)
  | .remove path => attempt (IO.FS.removeFile path)
  | .makeDirectories path => attempt (IO.FS.createDirAll path)
  | .modified path =>
    let entry : IO.FS.DirEntry := ⟨path, ""⟩
    attempt do return millis (← entry.root.metadata).modified
  | .names path =>
    let entry : IO.FS.DirEntry := ⟨path, ""⟩
    attempt do
      let entries ← entry.root.readDir
      return (entries.toList.map (·.fileName)).mergeSort fun a b => !decide (b < a)

/-- Do what a plan asks for; lines of the log that are of no interest at a verbosity are dropped. -/
def answer (verbosity : Nat) : (r : Request) → IO r.Reply
  | .page _ => return .error (.other "there is no page")
  | .race .. => return .error (.other "there is no page")
  | .url => return ""
  | .sleep ms => IO.sleep ms.toUInt32
  | .clock => IO.monoMsNow
  | .wallClock => readWallClock
  | .log level component message => do
    if level.rank ≤ verbosity then
      let heading := if component = "" then " " else " " ++ component ++ ": "
      IO.eprintln (Text.upper level.name ++ heading ++ message)
  | .env name => IO.getEnv name
  | .file op => performFile op
  | .post _ => return Exchange.unreachable
  | .count _ => return (0 : Nat)
  | .acquire _ => return ()
  | .release _ => return ()
  | .print line => IO.println line
  | .complain line => IO.eprintln line

/-- Carry out a plan; nothing is given up. -/
def perform {α : Type} (verbosity : Nat) : Plan α → IO α
  | .done a => return a
  | .ask r next => do perform verbosity (next (← answer verbosity r))
  | .askBy _ r next => do perform verbosity (next (some (← answer verbosity r)))

/-- The environment, as far as command lines look at it. -/
def readVariables : IO (String → Option String) := do
  let known ← variableNames.mapM fun name => return (name, ← IO.getEnv name)
  return fun name => (known.lookup name).join

end SignOn.Command

open SignOn.Command in
/-- Carry out the action that the arguments ask for. -/
def main (args : List String) : IO UInt32 := do
  match parse args (← readVariables) with
  | .error usage =>
    IO.eprintln ("usage: " ++ usage.name)
    return usage.exitCode.toUInt32
  | .ok invocation =>
    match ← perform invocation.verbosity (run invocation).run with
    | .ok () => return 0
    | .error failure =>
      IO.eprintln ("Error: " ++ SignOn.Text.join "\n\nCaused by:\n    " failure.texts)
      return 1
