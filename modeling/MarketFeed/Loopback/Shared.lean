import MarketFeed.Loopback

namespace MarketFeed.Loopback

/-- How far an emit has come: to the lock, past it with the session that it has found there, and
through. It was taken if there was a session. -/
inductive Emitting where
  | arrived
  | holding (found : Option Nat)
  | done (found : Option Nat)
  deriving DecidableEq

/-- How far the end of a session has come: the thread of its line was told to stop, and has stopped;
then the lock was got, and given back. -/
inductive Ending where
  | arrived
  | told
  | joined
  | holding
  | done
  deriving DecidableEq

inductive Caller where
  | emit (callbacks : List Callback) (stage : Emitting)
  | finish (slot : Nat) (stage : Ending)
  deriving DecidableEq

namespace Caller

def ownsLive : Caller → Bool
  | emit _ (.holding _) | finish _ .holding => true
  | _ => false

def keeps (slot : Nat) : Caller → Bool
  | finish other stage => other = slot && stage != .done
  | _ => false

end Caller

/-- Callbacks that were pushed to a line, by an emit or by the session itself, and whether the thread
of the line had not been told to stop yet. -/
structure Sending where
  slot : Nat
  emitter : Option Nat
  callbacks : List Callback
  inTime : Bool
  deriving DecidableEq

/-- A gateway in the hands of many threads. Whoever emits holds the lock of the live slot while it
looks there and pushes; whoever ends a session tells the thread of its line to stop, waits until it
has, and then takes the session out of the live slot, with the lock. Callers that have returned
stay, and so does all that was ever pushed to the lines. -/
structure Shared where
  gateway : Loopback := {}
  callers : List Caller := []
  sendings : List Sending := []

inductive Move where
  | create
  | push (slot : Nat) (callbacks : List Callback)
  | emit (callbacks : List Callback)
  | finish (slot : Nat)
  | advance (place : Nat)
  | raise (slot : Nat)

namespace Shared

def isLocked (s : Shared) : Bool := s.callers.any Caller.ownsLive

def isFree (s : Shared) (slot : Nat) : Bool :=
  decide (slot < s.gateway.lines.length) && !s.callers.any (Caller.keeps slot)

def join (s : Shared) (c : Caller) : Shared := { s with callers := s.callers ++ [c] }

def setCaller (s : Shared) (place : Nat) (c : Caller) : Shared :=
  { s with callers := s.callers.set place c }

def send (s : Shared) (slot : Nat) (emitter : Option Nat) (callbacks : List Callback) : Shared :=
  { s with
    gateway := s.gateway.push slot callbacks
    sendings := s.sendings ++ [⟨slot, emitter, callbacks, !(s.gateway.line slot).joined⟩] }

def advance? (s : Shared) (place : Nat) : Option Shared := do
  match ← s.callers[place]? with
  | .emit callbacks .arrived =>
    if s.isLocked then none else some (s.setCaller place (.emit callbacks (.holding s.gateway.live)))
  | .emit callbacks (.holding found) =>
    let t := s.setCaller place (.emit callbacks (.done found))
    match found with
    | some slot => some (t.send slot (some place) callbacks)
    | none => some t
  | .emit _ (.done _) => none
  | .finish slot .arrived =>
    -- a thread that was told once is told and waited for no more
    if (s.gateway.line slot).joined then some (s.setCaller place (.finish slot .joined))
    else
      let t := s.setCaller place (.finish slot .told)
      some { t with gateway := s.gateway.pushStop slot }
  | .finish slot .told =>
    if (s.gateway.line slot).running then none else some (s.setCaller place (.finish slot .joined))
  | .finish slot .joined =>
    if s.isLocked then none else some (s.setCaller place (.finish slot .holding))
  | .finish slot .holding =>
    let t := s.setCaller place (.finish slot .done)
    some { t with gateway := s.gateway.clearLive slot }
  | .finish _ .done => none

def step? (s : Shared) : Move → Option Shared
  | .create => if s.isLocked then none else some { s with gateway := s.gateway.create.2 }
  | .push slot callbacks => if s.isFree slot then some (s.send slot none callbacks) else none
  | .emit callbacks => some (s.join (.emit callbacks .arrived))
  | .finish slot => if s.isFree slot then some (s.join (.finish slot .arrived)) else none
  | .advance place => s.advance? place
  | .raise slot =>
    (s.gateway.line slot).advance?.map fun l =>
      { s with gateway := s.gateway.modifyLine slot fun _ => l }

def run (s : Shared) (ms : List Move) : Option Shared := ms.foldlM step? s

end Shared

end MarketFeed.Loopback
