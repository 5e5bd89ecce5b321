import OtaMqtt.Lib.Execution
import OtaMqtt.Log.Define

/-! Formatters, appenders, loggers and the manager that owns the loggers.

A formatter is never changed once it is built, so appenders and loggers hold its value. A
logger stays in the map of the manager from its first use on, and the map stands for the
objects behind the pointers that were handed out. -/

namespace OtaMqtt.Log

open OtaMqtt.Lib OtaMqtt.Lib.Execution

inductive FormatItem where
  | text (text : String)
  | message
  | level
  | elapse
  | name
  | newLine
  | dateTime (format : String)
  | filename
  | line
  | tab
  | fiberId
  | threadId
  | threadName
  deriving DecidableEq, Repr

/-- `s_format_items`: what stands behind a percent sign, with the format in braces. -/
def formatItem (key format : String) : Option FormatItem :=
  if key = "m" then some .message
  else if key = "p" then some .level
  else if key = "r" then some .elapse
  else if key = "c" then some .name
  else if key = "n" then some .newLine
  else if key = "d" then some (.dateTime (if format = "" then "%Y-%m-%d %H:%M:%S" else format))
  else if key = "f" then some .filename
  else if key = "l" then some .line
  else if key = "T" then some .tab
  else if key = "F" then some .fiberId
  else if key = "t" then some .threadId
  else if key = "N" then some .threadName
  else none

/-- How far the search for a format came: `fmt_status` 0, 1 or 2. -/
inductive FmtStatus where
  | unopened
  | unclosed
  | closed
  deriving DecidableEq, Repr

/-- The variables of the inner loop where it stops; `rest` begins at position `n`. -/
structure Directive where
  status : FmtStatus
  str : List Char
  fmt : List Char
  rest : List Char

/-- The characters that the inner loop walks along. -/
def walked (char : Char) : Bool := char.isAlpha || char = '\x7d' || char = '\x7b'

/-- The inner loop behind an opening brace. -/
def scanFormat (str fmt : List Char) : List Char → Directive
  | [] => ⟨.unclosed, str, [], []⟩
  | char :: rest =>
      if !walked char then ⟨.unclosed, str, [], char :: rest⟩
      else if char = '\x7d' then ⟨.closed, str, fmt, char :: rest⟩
      else scanFormat str (fmt ++ [char]) rest

/-- The inner loop in front of an opening brace. -/
def scanName (str : List Char) : List Char → Directive
  | [] => ⟨.unopened, str, [], []⟩
  | char :: rest =>
      if !walked char then ⟨.unopened, str, [], char :: rest⟩
      else if char = '\x7b' then scanFormat str [] rest
      else scanName (str ++ [char]) rest

/-- An element of `vec`. -/
inductive Piece where
  | plain (text : List Char)
  | directive (str fmt : List Char)
  deriving DecidableEq, Repr

def flush (nstr : List Char) (vec : List Piece) : List Piece :=
  if nstr = [] then vec else vec ++ [.plain nstr]

/-- The outer loop of `LogFormatter::init`: the pieces, and whether a brace stayed open.
Behind an open brace it goes on right behind the percent sign, and behind a closed one at
the closing brace. -/
def pieces : Nat → List Char → List Char → List Piece → Bool → List Piece × Bool
  | fuel + 1, char :: rest, nstr, vec, error =>
      if char ≠ '%' then pieces fuel rest (nstr ++ [char]) vec error
      else if rest.head? = some '%' then pieces fuel rest (nstr ++ ['%']) vec error
      else
        let found := scanName [] rest
        match found.status with
        | .unopened => pieces fuel found.rest [] (flush nstr vec ++ [.directive found.str []]) error
        | .unclosed => pieces fuel rest nstr (vec ++ [.plain "<<pattrn_error>>".toList]) true
        | .closed =>
            pieces fuel found.rest [] (flush nstr vec ++ [.directive found.str found.fmt]) error
  | _, _, nstr, vec, error => (flush nstr vec, error)

structure LogFormatter where
  pattern : String
  items : List FormatItem
  error : Bool
  deriving DecidableEq, Repr

def Piece.item : Piece → FormatItem × Bool
  | plain text => (.text (.ofList text), false)
  | directive str fmt =>
      match formatItem (.ofList str) (.ofList fmt) with
      | some item => (item, false)
      | none => (.text ("<<error_format %" ++ .ofList str ++ ">>"), true)

/-- The constructor, which runs `init`. -/
def LogFormatter.make (pattern : String) : LogFormatter :=
  let found := pieces pattern.toList.length pattern.toList [] [] false
  { pattern,
    items := found.1.map fun piece => piece.item.1,
    error := found.2 || found.1.any fun piece => piece.item.2 }

example : (LogFormatter.make "%d%T%m%n").error = false ∧ (LogFormatter.make "%d\x7b%Y\x7d").error = true := by
  decide

/-- `file` is the name of a `FileLogAppender`, and `none` for a `StdoutLogAppender`. The
constructors leave the level as it is in memory: `none`. -/
structure LogAppender where
  file : Option String
  level : Option Nat
  formatter : Option LogFormatter
  hasFormatter : Bool
  deriving DecidableEq, Repr

namespace LogAppender

def fileLogAppender (file : String) : LogAppender := ⟨some file, none, none, false⟩

def stdoutLogAppender : LogAppender := ⟨none, none, none, false⟩

def setLevel (appender : LogAppender) (level : Nat) : LogAppender :=
  { appender with level := some level }

def setFormatter (appender : LogAppender) (formatter : Option LogFormatter) : LogAppender :=
  { appender with formatter, hasFormatter := formatter.isSome }

end LogAppender

structure Logger where
  name : String
  level : Nat
  formatter : Option LogFormatter
  appenders : List LogAppender
  deriving DecidableEq, Repr

namespace Logger

def make (name : String) : Logger :=
  ⟨name, LogLevel.debug.value, some (.make "%d%T%t%T%N%T%F%T[%p]%T[%c]%T%f:%l%T%m%n"), []⟩

def setLevel (logger : Logger) (level : Nat) : Logger := { logger with level }

/-- `setFormatter(LogFormatter::ptr)`: appenders without a formatter of their own follow. -/
def setFormatterPtr (logger : Logger) (formatter : Option LogFormatter) : Logger :=
  { logger with
    formatter,
    appenders := logger.appenders.map fun appender =>
      if appender.hasFormatter then appender else { appender with formatter } }

def setFormatter (logger : Logger) (pattern : String) : Logger :=
  if (LogFormatter.make pattern).error then logger
  else logger.setFormatterPtr (some (.make pattern))

def addAppender (logger : Logger) (appender : LogAppender) : Logger :=
  let dressed :=
    if appender.formatter.isSome then appender else { appender with formatter := logger.formatter }
  { logger with appenders := logger.appenders ++ [dressed] }

def clearAppenders (logger : Logger) : Logger := { logger with appenders := [] }

end Logger

structure LoggerManager where
  loggers : String → Option Logger

namespace LoggerManager

/-- The constructor: the root logger with one appender. -/
def fresh : LoggerManager where
  loggers name :=
    if name = "root" then some ((Logger.make "root").addAppender .stdoutLogAppender) else none

/-- The logger of that name is there afterwards. -/
def getLogger (manager : LoggerManager) (name : String) : LoggerManager :=
  match manager.loggers name with
  | some _ => manager
  | none => ⟨Function.update manager.loggers name (some (Logger.make name))⟩

/-- Calls of member functions through a pointer, which is null or names a logger. -/
def through (manager : LoggerManager) (pointer : Option String) (calls : Logger → Run Logger) :
    Run LoggerManager :=
  match pointer.bind manager.loggers, pointer with
  | some logger, some name => do
      let called ← calls logger
      return ⟨Function.update manager.loggers name (some called)⟩
  | _, _ => .error .nullPointer

end LoggerManager

end OtaMqtt.Log
