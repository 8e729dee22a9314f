/-!
# Log records

What the program says about its own work: a record has a level, an origin and a message.

* `Level.allowedBy`: whether a threshold lets a level through.
* `Record`: one record of the log.
-/

namespace ByteMachine.Log

/-- How serious a record is, the most serious first. -/
inductive Level
  | error
  | warn
  | info
  | debug
  | trace
deriving DecidableEq

namespace Level

/-- The name of the level. -/
def name : Level → String
  | error => "ERROR"
  | warn => "WARN"
  | info => "INFO"
  | debug => "DEBUG"
  | trace => "TRACE"

/-- How far the level is from silence: a threshold lets through what is no farther. -/
def rank : Level → Nat
  | error => 1
  | warn => 2
  | info => 3
  | debug => 4
  | trace => 5

/-- Whether a record of this level is shown. The threshold `none` shows nothing. -/
def allowedBy (threshold : Option Level) (level : Level) : Bool :=
  match threshold with
  | none => false
  | some limit => level.rank ≤ limit.rank

end Level

/-- The part of the program that a record comes from. -/
inductive Origin
  | loader
  | memory
  | processor
deriving DecidableEq

/-- The name of the origin in the log. -/
def Origin.name : Origin → String
  | loader => "ls8::memory::parse"
  | memory => "ls8::memory"
  | processor => "ls8::processor"

/-- One record of the log. -/
structure Record where
  level : Level
  origin : Origin
  message : String
deriving DecidableEq

end ByteMachine.Log
