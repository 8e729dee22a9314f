import ByteMachine.Host

/-!
# The console

A plain logger and a plain reporter: the host that the executable brings along.

* `Log.Level.ofSetting?`: the level that a log setting names.
* `Log.Record.line`, `Cause.texts`: a record as a line, and an error as lines.
* **`Host.console`**: the host itself.
-/

namespace ByteMachine

namespace Log

namespace Level

/-- Every level, the most serious first. -/
def all : List Level := [error, warn, info, debug, trace]

/-- The level that a setting names, the letters `a` to `z` being read like `A` to `Z`. -/
def ofSetting? (setting : String) : Option Level :=
  all.find? fun level => level.name = setting.toUpper

/-- The level that a setting names, or else the level `asked` for. There is no name for silence: `off`
names no level. -/
def ofSetting (setting : Option String) (asked : Level) : Level :=
  (setting.bind ofSetting?).getD asked

end Level

/-- The record as a line: the level in five columns, the origin in brackets, the message. -/
def Record.line (record : Record) : String :=
  String.ofList (record.level.name.toList.rightpad 5 ' ') ++ " [" ++ record.origin.name ++ "] " ++
    record.message

/-- The logger that writes lines without the time, up to a level. -/
def Writer.plain (limit : Level) : Writer where
  admits level := level.allowedBy (some limit)
  write _ record := record.line ++ "\n"

end Log

/-- The text of an error and those of the errors behind it. -/
def Cause.texts : Cause → List String
  | message text => [text]
  | madeFrom text source => text :: source.texts
  | context text error => text :: error.texts

/-- **The host of the executable.** -/
def Host.console : Host where
  installReporter := .ok ()
  installLogger := .ok ()
  logger setting asked := .plain (.ofSetting (setting.bind String.fromUTF8?) asked)
  chain := Cause.texts

end ByteMachine
