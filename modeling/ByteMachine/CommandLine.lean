import ByteMachine.Console
import ByteMachine.Image.File
import ByteMachine.Machine

/-!
# The command line

The program takes the path of a program file, loads it, logs the contents of the memory and runs
it. The log goes to standard output between the lines that the program prints.

* `CommandLine.Failure`: why there was nothing to run, or why the run failed.
* `CommandLine.begin`: everything before the first cycle.
* `CommandLine.Report`: all that an invocation leaves behind.
* **`CommandLine.invoke`**: the report on an invocation that ends within a number of cycles.
* **`CommandLine.process`**: a whole process, on a host.
-/

namespace ByteMachine

/-! ## Failures -/

/-- The fault as it is reported, with what made the output fail behind it. -/
def Fault.cause (fault : Fault) : Cause :=
  match fault with
  | output reason => .madeFrom fault.message (.message reason)
  | _ => .message fault.message

/-- The error as it is reported, with what made reading fail behind it. -/
def Image.LoadError.cause (error : LoadError) : Cause :=
  match error with
  | unreadable reason => .madeFrom error.message (.message reason.message)
  | malformed _ => .message error.message

/-! ## Dumps -/

/-- The record of a row of a dump. -/
def CommandLine.rowRecord (row : String) : Log.Record := ⟨.debug, .memory, row⟩

/-- The records of a dump. -/
def Memory.dumpRecords {size : Nat} (memory : Memory size) : List Log.Record :=
  memory.dump.map CommandLine.rowRecord

namespace CommandLine

/-- Why an invocation failed. -/
inductive Failure
  /-- No program was named. -/
  | usage
  /-- The program could not be loaded. -/
  | load (path : String) (error : Image.LoadError)
  /-- The program failed. -/
  | run (path : String) (fault : Fault)
deriving DecidableEq

/-- The failure as it is reported. -/
def Failure.cause : Failure → Cause
  | usage => .message "please add a program to run: ls8 <program.ls8>"
  | load path error => .context ("Failed to load `" ++ path ++ "`") error.cause
  | run path fault => .context ("Execution of `" ++ path ++ "` failed") fault.cause

/-! ## An invocation -/

/-- The machine's output channel: standard output takes everything, and the journal says what. -/
def standardOutput : Channel Unit := ⟨fun _ _ => ((), none)⟩

/-- What comes before the first cycle. -/
inductive Beginning
  /-- There is nothing to run. -/
  | refused (events : Array Event) (failure : Failure)
  /-- The program at this path is ready to run. -/
  | ready (path : String) (machine : Machine Unit)

/-- **Load the program that the first argument names.** Further arguments are ignored. -/
def begin (args : List String) (read : String → Except ReadError ByteArray) : Beginning :=
  match args.head? with
  | none => .refused #[] .usage
  | some path =>
    let loaded : Image.Loaded ramSize := Image.ofFile (read path)
    let events := loaded.records.map Event.logged
    match loaded.result with
    | .error error => .refused events.toArray (.load path error)
    | .ok memory =>
      let rows := memory.dumpRecords.map Event.logged
      .ready path { processor := .boot memory, output := (), journal := (events ++ rows).toArray }

/-- All that an invocation leaves behind. -/
structure Report where
  events : Array Event
  failure : Option Failure

/-- The report on a run that has ended. -/
def conclude (path : String) : Machine.Progress Unit → Option Report
  | .running _ => none
  | .halted machine => some ⟨machine.journal, none⟩
  | .faulted fault machine => some ⟨machine.journal, some (.run path fault)⟩

/-- **An invocation**, if it ends within `fuel` cycles. -/
def invoke (args : List String) (read : String → Except ReadError ByteArray) (fuel : Nat) :
    Option Report :=
  match begin args read with
  | .refused events failure => some ⟨events, some failure⟩
  | .ready path machine => conclude path (machine.runFor standardOutput fuel)

/-! ## What a report shows -/

/-- What an event puts on standard output. -/
def shown (writer : Log.Writer) (moment : Nat) : Event → Option String
  | .printed text => some text
  | .logged record =>
    if writer.admits record.level then some (writer.write moment record) else none

/-- What events put on standard output, one text after the other. -/
def allShown (writer : Log.Writer) (events : List Event) : List String :=
  events.zipIdx.filterMap fun (event, moment) => shown writer moment event

namespace Report

/-- The exit code: zero exactly on success. -/
def exitCode (report : Report) : Nat := if report.failure.isNone then 0 else 1

/-- What goes to standard output on the console, one text after the other. -/
def output (limit : Log.Level) (report : Report) : List String :=
  allShown (.plain limit) report.events.toList

/-- What goes to standard error on the console: the failure and its causes. -/
def errors (report : Report) : List String :=
  (report.failure.map (·.cause.texts)).getD []

end Report

/-- The records that a log setting asks for on the console: warnings and errors by default. -/
def threshold (setting : Option String) : Log.Level := .ofSetting setting .warn

/-! ## A process -/

/-- What can be seen of a process whose program has come to its end. -/
structure Process where
  exitCode : Nat
  /-- All that went to standard output. -/
  output : String
  /-- The failure on standard error and its causes, the outermost first. -/
  causes : List String
deriving DecidableEq

/-- How a process has ended. -/
inductive Ended
  /-- The program has come to its end. -/
  | exited (process : Process)
  /-- The program was broken off over an argument that is no text. Nothing was shown before. -/
  | panicked
deriving DecidableEq

/-- The exit code of a process. -/
def Ended.exitCode : Ended → Nat
  | exited process => process.exitCode
  | panicked => 101

/-- What can be seen of a report. -/
def Report.process (host : Host) (writer : Log.Writer) (report : Report) : Process where
  exitCode := report.exitCode
  output := String.join (allShown writer report.events.toList)
  causes := (report.failure.map fun failure => host.chain failure.cause).getD []

/-- Set up the reporter and the logger, which is asked for warnings and errors. -/
def setUp (host : Host) (setting : Option ByteArray) : Except Cause Log.Writer := do
  host.installReporter
  host.installLogger
  return host.logger setting .warn

/-- The arguments that are looked at, the first of which names the program itself, as long as they
are texts. -/
def texts? (argv : List ByteArray) : Option (List String) := (argv.take 2).mapM String.fromUTF8?

/-- **A process** with these arguments, files and log setting, if it ends within `fuel` cycles. -/
def process (host : Host) (argv : List ByteArray) (read : String → Except ReadError ByteArray)
    (setting : Option ByteArray) (fuel : Nat) : Option Ended :=
  match setUp host setting with
  | .error cause => some (.exited ⟨1, "", host.chain cause⟩)
  | .ok writer =>
    match texts? argv with
    | none => some .panicked
    | some texts => (invoke texts.tail read fuel).map fun report =>
        .exited (report.process host writer)

end CommandLine

end ByteMachine
