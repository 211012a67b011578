import DepaKms.LoggedComputation
import DepaKms.Platform

set_option autoImplicit false

/-!
# Log lines

A handler records its lines with their level; whether a line reaches the console
depends on the level in force, so level changes are events too.
-/
namespace DepaKms

inductive LogLevel where
  | ERROR
  | WARN
  | INFO
  | DEBUG
  deriving DecidableEq, Repr

inductive LogEvent where
  | line (level : LogLevel) (text : String)
  | setLogLevel (level : LogLevel)
  | consoleError (text : String)

/-- A computation of the application: it may throw, and it logs. -/
abbrev Handler (α : Type) : Type := Logged LogEvent JsError α

structure LogContext where
  scopeStack : List String
  requestId : Option String

namespace LogContext

def new : LogContext := ⟨[], none⟩

def appendScope (c : LogContext) (scope : String) : LogContext :=
  { c with scopeStack := c.scopeStack ++ [scope] }

def setRequestId (c : LogContext) (requestId : String) : LogContext :=
  { c with requestId := some requestId }

def getBaseScope (c : LogContext) : JsValue :=
  match c.scopeStack.head? with
  | some scope => .ofString scope
  | none => .undefined

def activeRequestId (c : LogContext) : Option String := c.requestId.filter fun s => s ≠ ""

def clone (c : LogContext) : LogContext := ⟨c.scopeStack, c.activeRequestId⟩

def toString (c : LogContext) : String :=
  let scope := String.intercalate "->" c.scopeStack
  let contextParts :=
    (c.activeRequestId.toList.map fun requestId => s!"requestId={requestId}") ++ [s!"scope={scope}"]
  "[" ++ String.intercalate "," contextParts ++ "]"

/-- `(logContextIn?.clone() || new LogContext()).appendScope(scope)`. -/
def within (logContextIn : Option LogContext) (scope : String) : LogContext :=
  ((logContextIn.map clone).getD new).appendScope scope

end LogContext

namespace Logger

variable (E : Engine)

def remainingArg : JsValue → String
  | .undefined => ""
  | .builtin name => if name = "__proto__" then "\x7b\x7d" else E.functionText name
  | .json (.bool b) => if b then "true" else "false"
  | .json (.num q) => E.numberToString q
  | .json (.str s) => s
  | .json v => v.pretty E ""

def getRemainingArgsString (args : List JsValue) : String :=
  String.intercalate " " (args.map (remainingArg E))

def formatMessageWithContext (context : Option LogContext) (message : String) : String :=
  match context with
  | some c => s!"{c.toString} {message}"
  | none => message

def tag : LogLevel → String
  | .ERROR => "ERROR"
  | .WARN => "WARN"
  | .INFO => "INFO"
  | .DEBUG => "DEBUG"

def log (level : LogLevel) (message : String) (context : Option LogContext)
    (args : List JsValue) : Handler Unit :=
  let formattedMessage := formatMessageWithContext context message
  let remainingArgsString := getRemainingArgsString E args
  .emit (.line level
    (if remainingArgsString = "" then s!"[{tag level}] {formattedMessage}"
      else s!"[{tag level}] {formattedMessage} {remainingArgsString}"))

def error (message : String) (context : Option LogContext) (args : List JsValue) : Handler Unit :=
  log E .ERROR message context args

def warn (message : String) (context : Option LogContext) (args : List JsValue) : Handler Unit :=
  log E .WARN message context args

def info (message : String) (context : Option LogContext) (args : List JsValue) : Handler Unit :=
  log E .INFO message context args

def debug (message : String) (context : Option LogContext) (args : List JsValue) : Handler Unit :=
  log E .DEBUG message context args

/-- Its body is commented out in the source: a secret is recorded nowhere. -/
def secret (_message : String) (_args : List JsValue) : Handler Unit := pure ()

@[simp] theorem result_error (message : String) (context : Option LogContext)
    (args : List JsValue) : (error E message context args).result = .ok () := rfl

@[simp] theorem result_warn (message : String) (context : Option LogContext)
    (args : List JsValue) : (warn E message context args).result = .ok () := rfl

@[simp] theorem result_info (message : String) (context : Option LogContext)
    (args : List JsValue) : (info E message context args).result = .ok () := rfl

@[simp] theorem result_debug (message : String) (context : Option LogContext)
    (args : List JsValue) : (debug E message context args).result = .ok () := rfl

@[simp] theorem result_secret (message : String) (args : List JsValue) :
    (secret message args).result = .ok () := rfl

end Logger

def KmsError (message : String) (logContext : LogContext) : JsError :=
  ⟨logContext.toString ++ " " ++ message⟩

def JsError.render (e : JsError) : String := s!"Error: {e.message}"

end DepaKms
