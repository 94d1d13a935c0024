import MarketFeed.Request
import MarketFeed.Callback
import MarketFeed.Failure

namespace MarketFeed

/-- What host code does: continuations and listeners submit further requests, come and go as
listeners, look at the session they belong to, and may panic. -/
inductive Act where
  | call (request : Request) (requestId : Option Int32) (acts : List Act)
  | on (event : String) (label : String) (rounds : List (Nat × List Act))
  | off (kind : EventKind)
  | has (kind : EventKind)
  | state
  | inFlight
  | emit (callbacks : List Callback)
  | panic (message : String) (inSession : Bool)

def Act.needsSession : Act → Bool
  | panic _ inSession => inSession
  | _ => true

def Act.submits : Act → Bool
  | call .. => true
  | _ => false

inductive Answer where
  | submitted (r : Except Failure Unit)
  | registered (r : Except Failure Bool)
  | flag (b : Bool)
  | state (s : Lifecycle)
  | count (n : Nat)
  | nothing
  | gone

structure Continuation where
  tag : Nat := 0
  acts : List Act := []

/-- What is done at an invocation when rounds of them follow each other, each with its length and
what is done every time; nothing is done after the last. -/
def actsAt : List (Nat × List Act) → Nat → List Act
  | [], _ => []
  | (length, acts) :: later, n => if n < length then acts else actsAt later (n - length)

structure Listener where
  label : String
  rounds : List (Nat × List Act) := []

def Listener.acts (l : Listener) (invocations : Nat) : List Act := actsAt l.rounds invocations

structure Registration where
  number : Nat
  listener : Listener

end MarketFeed
