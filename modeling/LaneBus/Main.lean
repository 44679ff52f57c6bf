import LaneBus.Environment.File
import LaneBus.Launch
import LaneBus.Timestamp.Epoch
import Std.Time.DateTime

/-! # The command line

The process around a launch: it reads the environment and the clock, writes the
log, and runs a worker pass by pass.
-/
namespace LaneBus
namespace CommandLine

/-- The present time. -/
def now : IO Timestamp := do
  let t ← Std.Time.Timestamp.now
  return Timestamp.ofNanoseconds t.toNanosecondsSinceUnixEpoch.val.toNat

/-- An instance id that nobody else has: the 32 digits of a random identifier. -/
def freshId : IO String := do
  return Identity.madeInstance (← IO.getRandomBytes 16).toList

/-- The text of a file, or nothing if it cannot be read. -/
def textOf (path : String) : IO String :=
  try IO.FS.readFile path catch _ => return ""

/-- The name of this machine. -/
def hostName : IO String := do
  let name := Text.trim (← textOf "/proc/sys/kernel/hostname")
  return if name = "" then "unknown" else name

/-- The variables that the process was started with. -/
def settings : IO (List (String × String)) := do
  let entries := (← textOf "/proc/self/environ").splitOn "\x00"
  return entries.filterMap fun e =>
    match e.splitOn "=" with
    | name :: first :: rest => some (name, Text.join "=" (first :: rest))
    | _ => none

/-- The variables of the process, and those of the nearest environment file;
nothing if those cannot be passed on. -/
def environment : IO (Option Environment) := do
  let env := Environment.ofList (← settings)
  let mut folder := some (← IO.currentDir)
  while folder.isSome do
    if let some f := folder then
      if ← (f / ".env").pathExists then
        return env.supplyFile (← textOf (f / ".env").toString)
      folder := f.parent
  return some env

/-- A reason that the system gives. -/
def reason : IO.Error → String
  | .alreadyExists _ code details => details ++ " (os error " ++ code.toNat.repr ++ ")"
  | .noFileOrDirectory _ code details => details ++ " (os error " ++ code.toNat.repr ++ ")"
  | .permissionDenied _ code details => details ++ " (os error " ++ code.toNat.repr ++ ")"
  | .inappropriateType _ code details => details ++ " (os error " ++ code.toNat.repr ++ ")"
  | .invalidArgument _ code details => details ++ " (os error " ++ code.toNat.repr ++ ")"
  | other => toString other

/-- Makes the folder at a path. -/
def makeFolder (p : Path) : IO (Except IO.Error Unit) := do
  try
    IO.FS.createDir p.text
    return .ok ()
  catch e => return .error e

/-- Makes the folder at a path unless it is there, or says why that is not
possible. -/
def ensureFolder (p : Path) : IO (Option String) := do
  match ← makeFolder p with
  | .ok () => return none
  | .error e =>
    if ← ((← IO.currentDir) / p.text).isDir then return none else return some (reason e)

/-- Makes the first of some folders, each of which is in the next one, after those
around it that are missing, or says why that is not possible. -/
def ensureFolders : List Path → IO (Option String)
  | [] => return none
  | p :: around => do
    match ← makeFolder p with
    | .ok () => return none
    | .error (.noFileOrDirectory _ _ _) =>
      match ← ensureFolders around with
      | some fault => return some fault
      | none => ensureFolder p
    | .error _ => ensureFolder p

/-- Opens the log. -/
def openLog (options : LogOptions) : IO (Except LaunchError IO.FS.Stream) := do
  match options.directory with
  | none => return .ok (← IO.getStderr)
  | some directory =>
    match ← ensureFolders (Path.ofString directory).outward with
    | some fault => return .error (.logging ["cannot create log directory " ++ directory, fault])
    | none =>
      let date := String.ofList ((← now).chars.takeWhile (· != 'T'))
      let path := directory ++ "/" ++ Setup.logFileName ++ "." ++ date
      try return .ok (IO.FS.Stream.ofHandle (← IO.FS.Handle.mk path .append))
      catch _ => return .error .aborted

/-- Writes an event, if its level is logged. -/
def write (log : IO.FS.Stream) (level : LogLevel) (e : Event) : IO Unit := do
  if level.allows e.severity then
    let fields := e.fields.map fun (k, v) => " " ++ k ++ "=" ++ v
    log.putStrLn ((← now).text ++ " " ++ Text.asciiUpper e.severity.name ++ " " ++ e.message ++
      String.join fields)
    log.flush

/-- Runs a worker until it ends, and waits after every idle pass. -/
partial def work (write : Event → IO Unit) (wait : Nat) (w : Worker Nat) :
    IO (Except Cause Unit) := do
  match w.pass (← now) with
  | .going next =>
    (next.session.events.drop w.session.events.length).forM write
    if 0 < next.idle then IO.sleep (UInt32.ofNat (min wait 4294967295))
    work write wait next
  | ended =>
    (ended.settle.events.drop w.session.events.length).forM write
    return ended.settle.result

/-- Runs a plugin to its end on a broker of this process. -/
def runPlugin (write : Event → IO Unit) (wait : Nat) : Plugin → IO (Except Cause Unit)
  | .task act => do
    let (result, _, events) := act {}
    events.forM write
    return result
  | .worker client ready options =>
    match Plugin.start client ready options {} with
    | .error e => return .error e.cause
    | .ok w => work write wait w

/-- Makes a plugin and runs it to its end. -/
def start (x : Setup) (env : Environment) (id : String) : IO (Except LaunchError LaunchResult) := do
  match ← openLog x.log with
  | .error e => return .error e
  | .ok log =>
    let s : Surroundings := { env, host := ← hostName, freshId := id, passes := [] }
    match x.makePlugin s with
    | (.error e, _) => return .error e
    | (.ok plugin, _) =>
      match ← runPlugin (write log x.log.level) x.pollTimeout plugin with
      | .error cause => return .error (.run x.entry.name cause)
      | .ok () => return .ok .completed

/-- Prints what is left to say and gives the exit code. -/
def finish (e : ProcessEnd) : IO UInt32 := do
  IO.print e.output
  IO.eprint e.errors
  return UInt32.ofNat e.code

end CommandLine
end LaneBus

open LaneBus in
/-- Launches what the command line asks for. -/
def main (words : List String) : IO UInt32 := do
  match ← CommandLine.environment with
  | none => CommandLine.finish .aborted
  | some env =>
    let id ← CommandLine.freshId
    let result ←
      match Launch.configure .builtin env id (Launch.program :: words) with
      | .error e => pure (.error e)
      | .ok .list => pure (.ok (.listed Registry.builtin.describe))
      | .ok .schema => pure (.ok (.schema Envelope.schemaText))
      | .ok (.start x) => CommandLine.start x env id
    CommandLine.finish (.ofResult result)
