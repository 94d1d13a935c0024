import MarketFeed.Session.Host
import MarketFeed.Journal
import MarketFeed.Lane
import MarketFeed.Listeners
import MarketFeed.Mailbox
import MarketFeed.Request.Validity
import MarketFeed.Settings

namespace MarketFeed

structure Finished where
  submission : Submission Continuation
  outcome : Outcome
  answers : List Answer

namespace Finished

def tag (f : Finished) : Nat := f.submission.continuation.tag

def operation (f : Finished) : Operation := f.submission.operation

end Finished

/-- A notification taken out of the mailbox, and the listener that was given it. -/
structure Delivery where
  notification : Notification
  listener : Option Registration
  answers : List Answer

/-- Where the pump stands: before its first turn, between two turns, inside a continuation, between
two notifications, inside a listener, or gone. -/
inductive Pump where
  | unstarted
  | waiting
  | completing (s : Submission Continuation) (outcome : Outcome) (acts : List Act)
    (answers : List Answer)
  | draining (count : Nat)
  | dispatching (count : Nat) (n : Notification) (r : Registration) (acts : List Act)
    (answers : List Answer)
  | detached
  | destroyed

/-- A request that was booked keeps the state locked until it is queued. -/
structure Session (σ : Type) where
  settings : Settings
  lane : Lane σ Continuation
  booked : Option (Submission Continuation) := none
  mailbox : Mailbox := {}
  state : Lifecycle := .uninitialized
  listeners : Listeners Registration := .empty
  registrations : Nat := 0
  inFlight : Nat := 0
  pump : Pump := .unstarted
  held : Bool := true
  finished : List Finished := []
  deliveries : List Delivery := []
  log : List LogRecord := []

namespace Session

variable {σ : Type}

inductive Start (σ : Type) where
  | made (s : Session σ)
  | refused (f : Failure)
  | panicked (p : Panic)

def fresh (vendor : σ) (settings : Settings) : Session σ :=
  { settings := settings, lane := .fresh vendor, log := [.sessionCreated] }

/-- A new session with a vendor that was never called. A session needs a scheduler for its pump and
then a thread for its worker. -/
def create (hasScheduler : Bool) (vendor : σ) (settings : Settings) : Start σ :=
  if hasScheduler then
    match settings.workerNameFault? with
    | some fault => .panicked (.text fault)
    | none => .made (fresh vendor settings)
  else .refused (.configuration "a session must be created inside a tokio runtime")

def note (s : Session σ) (r : LogRecord) : Session σ := { s with log := s.log ++ [r] }

def accepted (s : Session σ) : List (Submission Continuation) :=
  s.lane.submitted ++ s.booked.toList

def isDetached (s : Session σ) : Bool :=
  match s.pump with
  | .detached => true
  | _ => false

/-- Whether nothing is left of the session: nobody holds it, and its pump has come to an end. -/
def isGone (s : Session σ) : Bool :=
  match s.pump with
  | .detached | .destroyed => !s.held
  | _ => false

def betweenTurns (s : Session σ) : Bool :=
  match s.pump with
  | .completing .. | .draining _ | .dispatching .. => false
  | _ => true

def enter (s : Session σ) (next : Lifecycle) : Session σ :=
  if next = s.state then s else { s.note (.stateChanged s.state next) with state := next }

/-- Checks a request and counts it among those in flight. A request that is refused leaves nothing
behind; after an exit no other request is accepted. -/
def book (s : Session σ) (request : Request) (requestId : Option Int32) (k : Continuation) :
    Except Failure Unit × Session σ :=
  match request.check with
  | .error f => (.error f, s)
  | .ok () =>
    let op := request.operation
    if s.state.accepts op then
      let s :=
        if op = .exit then { s.note (.exiting s.state) with state := .exiting } else s
      (.ok (),
        { s.note (.submitted op requestId) with
          inFlight := s.inFlight + 1
          booked := some ⟨request, requestId, k⟩ })
    else (.error (.invalidState op s.state), s)

def enqueue (s : Session σ) : Session σ :=
  match s.booked with
  | some sub => { s with lane := s.lane.submit sub, booked := none }
  | none => s

def submit (s : Session σ) (request : Request) (requestId : Option Int32) (k : Continuation) :
    Except Failure Unit × Session σ :=
  let (r, s) := s.book request requestId k
  (r, s.enqueue)

def on (s : Session σ) (kind : EventKind) (l : Listener) : Bool × Session σ :=
  (s.listeners.has kind,
    { s with
      listeners := s.listeners.register kind ⟨s.registrations, l⟩
      registrations := s.registrations + 1 })

def onNamed (s : Session σ) (event : String) (l : Listener) : Except Failure Bool × Session σ :=
  match EventKind.named event with
  | .error f => (.error f, s)
  | .ok kind =>
    let (replaced, s) := s.on kind l
    (.ok replaced, s)

def off (s : Session σ) (kind : EventKind) : Bool × Session σ :=
  (s.listeners.has kind, { s with listeners := s.listeners.unregister kind })

def publish (s : Session σ) (callbacks : List Callback) : Session σ :=
  { s with mailbox := s.mailbox.publishAll (callbacks.map .ofCallback) }

/-- Callbacks raised from outside; they are lost when the vendor has no sink for them. -/
def emit (V : Vendor σ) (s : Session σ) (callbacks : List Callback) : Bool × Session σ :=
  if V.isListening s.lane.worker.vendor then (true, s.publish callbacks) else (false, s)

def allows (s : Session σ) (act : Act) : Bool := s.held || !act.needsSession

def panic? (s : Session σ) (act : Act) : Option String :=
  match act with
  | .panic text _ => if s.allows act then some text else none
  | _ => none

def perform (V : Vendor σ) (s : Session σ) (act : Act) : Answer × Session σ :=
  if !s.allows act then (.gone, s)
  else
    match act with
    | .call request requestId acts =>
      let (r, s) := s.submit request requestId ⟨0, acts⟩
      (.submitted r, s)
    | .on event label rounds =>
      let (r, s) := s.onNamed event ⟨label, rounds⟩
      (.registered r, s)
    | .off kind =>
      let (b, s) := s.off kind
      (.flag b, s)
    | .has kind => (.flag (s.listeners.has kind), s)
    | .state => (.state s.state, s)
    | .inFlight => (.count s.inFlight, s)
    | .emit callbacks =>
      let (b, s) := s.emit V callbacks
      (.flag b, s)
    | .panic .. => (.nothing, s)

def letGo (s : Session σ) : Session σ := { s with held := false, lane := s.lane.stop }

/-- The pump is destroyed where it stands, unless it has come to its end. Calls are still carried
out, but nobody hears of them. -/
def destroyPump (s : Session σ) : Session σ :=
  if s.isDetached then s else { s with pump := .destroyed, lane := s.lane.stopReceiving }

end Session

end MarketFeed
