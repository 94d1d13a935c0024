import MarketFeed.Request

namespace MarketFeed

/-- The life of a session as its host sees it: uninitialized, created, initialized, then active and
disconnected in turns; from any of these exiting, then closed. -/
inductive Lifecycle where
  | uninitialized
  | created
  | initialized
  | active
  | disconnected
  | exiting
  | closed
  deriving DecidableEq, Repr

namespace Lifecycle

def all : List Lifecycle :=
  [uninitialized, created, initialized, active, disconnected, exiting, closed]

def name : Lifecycle → String
  | uninitialized => "uninitialized"
  | created => "created"
  | initialized => "initialized"
  | active => "active"
  | disconnected => "disconnected"
  | exiting => "exiting"
  | closed => "closed"

def isTerminal : Lifecycle → Bool
  | exiting | closed => true
  | _ => false

/-- Whether a request may be submitted. Requests that come too early for the gateway are accepted
here and fail later. -/
def accepts (s : Lifecycle) (op : Operation) : Bool :=
  if s.isTerminal then false
  else s == uninitialized || op != .create

def afterCall : Lifecycle → Operation → Lifecycle
  | _, .exit => closed
  | uninitialized, .create => created
  | created, .init => initialized
  | s, _ => s

def afterEvent : Lifecycle → EventKind → Lifecycle
  | created, .frontConnected | initialized, .frontConnected | active, .frontConnected
  | disconnected, .frontConnected => active
  | active, .frontDisconnected | initialized, .frontDisconnected => disconnected
  | s, _ => s

end Lifecycle

end MarketFeed
