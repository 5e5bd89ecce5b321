import Mathlib.Data.String.Basic
import OtaMqtt.Lib.OrderedSet

/-! The configuration of the loggers: levels, appender and logger definitions, and the
set of definitions, which is ordered by the names of the loggers. -/

namespace OtaMqtt.Log

open OtaMqtt.Lib

inductive LogLevel where
  | unknow
  | debug
  | info
  | warn
  | error
  | fatal
  deriving DecidableEq, Repr

def LogLevel.value : LogLevel → Nat
  | unknow => 0
  | debug => 1
  | info => 2
  | warn => 3
  | error => 4
  | fatal => 5

/-- `LogLevel::ToString`. -/
def LogLevel.toText : LogLevel → String
  | debug => "DEBUG"
  | info => "INFO"
  | warn => "WARN"
  | error => "ERROR"
  | fatal => "FATAL"
  | unknow => "UNKNOW"

def LogLevel.fromString (text : String) : LogLevel :=
  if text = "debug" then debug
  else if text = "info" then info
  else if text = "warn" then warn
  else if text = "error" then error
  else if text = "fatal" then fatal
  else if text = "DEBUG" then debug
  else if text = "INFO" then info
  else if text = "WARN" then warn
  else if text = "ERROR" then error
  else if text = "FATAL" then fatal
  else unknow

theorem fromString_toText (level : LogLevel) : LogLevel.fromString level.toText = level := by
  cases level <;> decide

/-- `type` is 1 for a file, 2 for the standard output. -/
structure LogAppenderDefine where
  type : Int
  level : LogLevel
  formatter : String
  file : String
  deriving DecidableEq, Repr

structure LogDefine where
  name : String
  level : LogLevel
  formatter : String
  appenders : List LogAppenderDefine
  deriving DecidableEq, Repr

/-- `operator<` of `LogDefine`. -/
def LogDefine.less : LogDefine → LogDefine → Bool := OrderedSet.byKey LogDefine.name

/-- A `std::set<LogDefine>`: no two definitions have one name. -/
structure LogDefines where
  elements : List LogDefine
  ordered : OrderedSet.Ordered LogDefine.less elements
  deriving DecidableEq

namespace LogDefines

def empty : LogDefines := ⟨[], List.Pairwise.nil⟩

def insert (defines : LogDefines) (define : LogDefine) : LogDefines :=
  ⟨OrderedSet.insert LogDefine.less define defines.elements,
    OrderedSet.insert_byKey_ordered defines.ordered⟩

def find (defines : LogDefines) (define : LogDefine) : Option LogDefine :=
  OrderedSet.find LogDefine.less define defines.elements

end LogDefines

end OtaMqtt.Log
