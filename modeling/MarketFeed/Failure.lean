import MarketFeed.Lifecycle

namespace MarketFeed

inductive Failure where
  | invalidArgument (detail : String)
  | invalidState (operation : Operation) (state : Lifecycle)
  | callFailed (status : Int32) (detail : String)
  | nativePanic (detail : String)
  | unknownEvent (name : String)
  | disconnected
  | configuration (detail : String)
  deriving DecidableEq

namespace Failure

def message : Failure → String
  | invalidArgument detail => "Invalid argument: " ++ detail
  | invalidState operation state =>
    "Invalid state: cannot " ++ operation.name ++ " while session is " ++ state.name
  | callFailed status detail =>
    "Call failed (status " ++ toString status.toInt ++ "): " ++ detail
  | nativePanic detail => "Native call panicked: " ++ detail
  | unknownEvent name => "Unknown event: " ++ name
  | disconnected => "Host pump stopped before the call completed"
  | configuration detail => "Configuration error: " ++ detail

def status : Failure → Int32
  | callFailed status _ => status
  | _ => -1

def isLifecycle : Failure → Bool
  | invalidState .. => true
  | _ => false

end Failure

/-- What a continuation is given: the value or the failure of its call. -/
abbrev Outcome := Except Failure CallValue

/-- What the call of a request leaves behind. -/
structure CallResult where
  status : Int32 := 0
  value : CallValue := .none
  error : Option Failure := none
  deriving DecidableEq

namespace CallResult

def ok (value : CallValue) : CallResult := ⟨0, value, none⟩

def failed (f : Failure) : CallResult := ⟨f.status, .none, some f⟩

def outcome (r : CallResult) : Outcome :=
  match r.error with
  | some f => .error f
  | none => .ok r.value

end CallResult

def EventKind.named (name : String) : Except Failure EventKind :=
  match ofName? name with
  | some kind => .ok kind
  | none => .error (.unknownEvent name)

end MarketFeed
