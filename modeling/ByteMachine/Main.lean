import ByteMachine.CommandLine

/-!
# The executable

Reads the program file and the log setting, and shows what `CommandLine` reports while the program
runs.
-/

namespace ByteMachine.Executable

open CommandLine

/-- The reason and the number that an error of the operating system carries. -/
def reason : IO.Error → ReadError
  | .alreadyExists _ code text | .interrupted _ code text | .noFileOrDirectory _ code text
  | .invalidArgument _ code text | .permissionDenied _ code text | .resourceExhausted _ code text
  | .inappropriateType _ code text | .noSuchThing _ code text | .otherError code text
  | .resourceBusy code text | .resourceVanished code text | .unsupportedOperation code text
  | .hardwareFault code text | .unsatisfiedConstraints code text | .illegalOperation code text
  | .protocolError code text | .timeExpired code text => .system text code.toNat
  | error => .system (toString error) 0

/-- Read a file. -/
def contents (path : String) : IO (Except ReadError ByteArray) := do
  try
    return .ok (← IO.FS.withFile path .read fun handle => handle.readBinToEnd)
  catch error =>
    return .error (reason error)

/-- Show a report so far: what goes to standard output, and what goes to standard error. -/
def display (limit : Log.Level) (report : Report) : IO Unit := do
  for text in report.output limit do
    IO.print text
  (← IO.getStdout).flush
  for (cause, i) in report.errors.zipIdx do
    if i = 0 then IO.eprintln "Error:"
    IO.eprintln s!"   {i}: {cause}"

/-- Show the end of an invocation. -/
def finish (limit : Log.Level) (report : Report) : IO UInt32 := do
  display limit report
  return report.exitCode.toUInt32

/-- Run cycle by cycle, showing what each of them does. -/
partial def follow (limit : Log.Level) (path : String) (machine : Machine Unit) : IO UInt32 := do
  let progress := machine.runFor standardOutput 1
  match progress with
  | .running machine =>
    display limit ⟨machine.journal, none⟩
    follow limit path { machine with journal := #[] }
  | .halted _ | .faulted .. =>
    match conclude path progress with
    | some report => finish limit report
    | none => return 0

end ByteMachine.Executable

open ByteMachine ByteMachine.CommandLine ByteMachine.Executable in
/-- The entry point. -/
def main (args : List String) : IO UInt32 := do
  let limit := threshold (← IO.getEnv "RUST_LOG")
  let found ← match args.head? with
    | some path => contents path
    | none => pure (.error .notFound)
  match begin args fun _ => found with
  | .refused events failure => finish limit ⟨events, some failure⟩
  | .ready path machine =>
    display limit ⟨machine.journal, none⟩
    follow limit path { machine with journal := #[] }
