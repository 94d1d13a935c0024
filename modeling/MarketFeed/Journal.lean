import MarketFeed.Failure

namespace MarketFeed

inductive LogLevel where
  | debug
  | info
  | warn
  deriving DecidableEq, Repr

def LogLevel.name : LogLevel → String
  | debug => "DEBUG"
  | info => "INFO"
  | warn => "WARN"

inductive LogRecord where
  | sessionCreated
  | pumpStarted
  | exiting (state : Lifecycle)
  | submitted (operation : Operation) (requestId : Option Int32)
  | stateChanged (old new : Lifecycle)
  | discardedOnExit (count : Nat)
  | continuationPanicked (operation : Operation) (text : String)
  | dispatching (n : Notification)
  | nativeError (kind : EventKind) (error : ErrorInfo)
  | noListener (kind : EventKind)
  | listenerPanicked (kind : EventKind) (text : String)
  | drained (count : Nat)
  | pumpDetached (discarded published : Nat)
  deriving DecidableEq

inductive LogValue where
  | text (s : String)
  | int (n : Int)
  | flag (b : Bool)
  deriving DecidableEq

namespace LogRecord

def level : LogRecord → LogLevel
  | sessionCreated | exiting _ | stateChanged .. | dispatching _ | pumpDetached .. => .info
  | continuationPanicked .. | nativeError .. | listenerPanicked .. => .warn
  | _ => .debug

def message : LogRecord → String
  | sessionCreated => "Session created"
  | pumpStarted => "Host pump started"
  | exiting _ => "Session exiting"
  | submitted .. => "Call submitted"
  | stateChanged .. => "Session state changed"
  | discardedOnExit _ => "Pending notifications discarded on exit"
  | continuationPanicked _ text => "Continuation panicked: " ++ text
  | dispatching _ => "Notification"
  | nativeError _ e => "Native error: " ++ e.message
  | noListener _ => "No handler, notification discarded"
  | listenerPanicked _ text => "Handler panicked: " ++ text
  | drained _ => "Drained notifications"
  | pumpDetached .. => "Host pump detached"

def requestIdText : Option Int32 → String
  | none => "None"
  | some n => "Some(" ++ toString n.toInt ++ ")"

def fields : LogRecord → List (String × LogValue)
  | sessionCreated => []
  | pumpStarted => []
  | exiting state => [("from", .text state.name)]
  | submitted op id => [("kind", .text op.name), ("request_id", .text (requestIdText id))]
  | stateChanged old new => [("from", .text old.name), ("to", .text new.name)]
  | discardedOnExit count => [("discarded", .int count)]
  | continuationPanicked op _ => [("kind", .text op.name)]
  | dispatching n =>
    [("kind", .text n.kind.name), ("request_id", .text (requestIdText n.requestId)),
      ("is_final", .flag n.isFinal)]
  | nativeError kind e => [("kind", .text kind.name), ("error_id", .int e.code.toInt)]
  | noListener kind => [("kind", .text kind.name)]
  | listenerPanicked kind _ => [("kind", .text kind.name)]
  | drained count => [("count", .int count)]
  | pumpDetached discarded published =>
    [("discarded", .int discarded), ("published", .int published)]

end LogRecord

structure LogSink where
  verbose : Bool
  deriving DecidableEq

/-- Puts a sink in place unless there is one already; tells whether it did. -/
def LogSink.install (current : Option LogSink) (verbose : Bool) : Bool × Option LogSink :=
  match current with
  | some sink => (false, some sink)
  | none => (true, some ⟨verbose⟩)

end MarketFeed
