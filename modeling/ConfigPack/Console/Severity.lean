import ConfigPack.Journal

/-!
# Severity

Every line of a log has a rank, from errors at one to details at four, and a topic.  What is shown
is limited by rank, for each topic on its own.
-/

namespace ConfigPack.LogLevel

/-- The rank of a level; the most severe one has the lowest. -/
def rank : LogLevel → Nat
  | error => 1
  | warn => 2
  | stage => 3
  | info => 3
  | dryRun => 3
  | debug => 4
  | glob => 4

/-- The topic of a level. -/
def topic : LogLevel → String
  | stage => "config_rocket::stage"
  | dryRun => "config_rocket::dry_run"
  | glob => "globset"
  | _ => "config_rocket::logging::logger"

/-- The names of the fields of a line. -/
def fields : LogLevel → List String
  | glob => ["message", "log.target", "log.module_path", "log.file", "log.line"]
  | _ => ["message"]

/-- Whether a line is a warning or worse. -/
def isAlarm (level : LogLevel) : Bool := level.rank ≤ 2

end ConfigPack.LogLevel
