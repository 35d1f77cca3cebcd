import JarRefinery.Fault
import JarRefinery.Json.Literal
import JarRefinery.Text.UpperCase

/-!
Logs: records with a level, the event they tell of, and fields. Records below a threshold are not
shown; the others are shown as JSON objects, or as lines of fields in the order of their names.
-/
namespace JarRefinery

inductive LogLevel where
  | debug
  | info
  | warning
  | error
  | critical
deriving DecidableEq, Repr

namespace LogLevel

def name : LogLevel → String
  | debug => "debug"
  | info => "info"
  | warning => "warning"
  | error => "error"
  | critical => "critical"

def weight : LogLevel → Nat
  | debug => 10
  | info => 20
  | warning => 30
  | error => 40
  | critical => 50

/-- The level of a record made under this word. -/
def ofWord? (word : String) : Option LogLevel :=
  match word with
  | "debug" => some debug
  | "info" => some info
  | "warning" | "warn" => some warning
  | "error" | "exception" => some error
  | "critical" | "fatal" => some critical
  | _ => none

end LogLevel

structure LogRecord where
  level : LogLevel
  event : String
  fields : Json.Fields

namespace Log

/-- The weights that thresholds are named for. -/
def thresholds : List (String × Nat) := [("NOTSET", 0), ("DEBUG", 10), ("INFO", 20), ("WARN", 30),
  ("WARNING", 30), ("ERROR", 40), ("CRITICAL", 50)]

/-- The least weight of records that are shown. -/
def threshold (name : String) : Except Fault Nat :=
  let name := Text.upperCase name
  match thresholds.lookup name with
  | some weight => .ok weight
  | none =>
    if name = "FATAL" then .error (.of .keyError "fatal")
    else .error (.value ("Unknown level: " ++ Text.quote name))

/-- Fields that ask for what is not kept: a trace of the calls. -/
def traceNames : List String := ["exc_info", "stack_info"]

/-- All fields of a record: those bound before give way to its own. -/
def allFields (bound : Json.Fields) (record : LogRecord) : Json.Fields :=
  (Json.Fields.update bound
    (record.fields ++ [("event", .text record.event), ("level", .text record.level.name)])).filter
      fun field => !traceNames.contains field.1

/-- A record as a line: its level, then its fields by name. -/
def line (time : String) (level : LogLevel) (fields : Json.Fields) : String :=
  let fields := fields.put "timestamp" (.text time)
  let sorted := fields.mergeSort fun a b => a.1 ≤ b.1
  let padding := String.ofList (List.replicate (8 - level.name.length) ' ')
  Text.upperCase level.name ++ padding ++ " " ++
    " ".intercalate (sorted.map fun (name, value) => name ++ "=" ++ value.literal)

end Log

end JarRefinery
