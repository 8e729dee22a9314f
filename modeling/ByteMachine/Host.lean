import ByteMachine.Log

/-!
# The host

The program writes no log and shows no errors itself. It leaves that to a logger and a reporter,
which are set up when it starts and can be any.

* `Cause`: an error as it is handed over to be reported.
* `Log.Writer`: a logger that has been set up.
* **`Host`**: what the program finds where it runs.
-/

namespace ByteMachine

/-- An error as it is handed over, with the errors behind it. -/
inductive Cause
  /-- An error with nothing behind it. -/
  | message (text : String)
  /-- An error that another one was made into. -/
  | madeFrom (text : String) (source : Cause)
  /-- An error and what was going on when it came up. -/
  | context (text : String) (error : Cause)

/-- A logger that has been set up. It writes to standard output. -/
structure Log.Writer where
  /-- Whether records of this level are written. -/
  admits : Level → Bool
  /-- What a record is written as. That may depend on the moment, as the time of day does. Moments
  are counted by what the program has printed and logged before. -/
  write : Nat → Record → String

/-- **What the program finds where it runs**, apart from its arguments and its files. -/
structure Host where
  /-- Put the reporter in place, which may fail. -/
  installReporter : Except Cause Unit
  /-- Put the logger in place, which may fail. -/
  installLogger : Except Cause Unit
  /-- The logger, for a log setting from the environment and the level that the program asks for. -/
  logger : Option ByteArray → Log.Level → Log.Writer
  /-- The texts that the reporter shows of an error and of those behind it, the outermost first. -/
  chain : Cause → List String

end ByteMachine
