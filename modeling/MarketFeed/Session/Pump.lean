import MarketFeed.Session.State

namespace MarketFeed.Session

variable {σ : Type}

def detach (s : Session σ) : Session σ :=
  let discarded := s.mailbox.close.1
  let mailbox := s.mailbox.close.2
  { s with
    mailbox := mailbox, listeners := .empty, pump := .detached,
    log := s.log ++ [.pumpDetached discarded mailbox.published] }

def endTurn (s : Session σ) : Session σ :=
  if s.state = .closed ∧ s.inFlight = 0 then s.detach else { s with pump := .waiting }

/-- The state after a call: failures do not move it, except that an exit always closes. -/
def stateAfter (s : Session σ) (op : Operation) (r : CallResult) : Lifecycle :=
  if r.error = none ∨ op = .exit then s.state.afterCall op else s.state

/-- An exit closes the mailbox before its continuation runs. -/
def closeOnExit (s : Session σ) (op : Operation) : Session σ :=
  if op = .exit then
    let discarded := s.mailbox.close.1
    let s := { s with mailbox := s.mailbox.close.2 }
    if 0 < discarded then s.note (.discardedOnExit discarded) else s
  else s

def beginCompletion (s : Session σ) (c : Completion Continuation) : Session σ :=
  let op := c.submission.operation
  let s := (s.enter (s.stateAfter op c.result)).closeOnExit op
  { s with
    pump := .completing c.submission c.result.outcome c.submission.continuation.acts [] }

def endCompletion (s : Session σ) (sub : Submission Continuation) (outcome : Outcome)
    (answers : List Answer) (panic : Option String) : Session σ :=
  let op := sub.operation
  let s : Session σ :=
    { s with finished := s.finished ++ [⟨sub, outcome, answers⟩] }
  let s := match panic with
    | some text => s.note (.continuationPanicked op text)
    | none => s
  let s := if op = .exit then { s with listeners := .empty } else s
  { s with inFlight := s.inFlight - 1 }.endTurn

def noteNotification (s : Session σ) (n : Notification) : Session σ :=
  let s := if s.settings.verbose then s.note (.dispatching n) else s
  match n.error with
  | some e => if e.isError then s.note (.nativeError n.kind e) else s
  | none => s

def invocations (s : Session σ) (number : Nat) : Nat :=
  s.deliveries.countP fun d => d.listener.any fun r => r.number == number

def beginDispatch (s : Session σ) (count : Nat) (n : Notification) : Session σ :=
  let s := (s.enter (s.state.afterEvent n.kind)).noteNotification n
  match s.listeners.find? n.kind with
  | none =>
    { s.note (.noListener n.kind) with
      deliveries := s.deliveries ++ [⟨n, none, []⟩], pump := .draining (count + 1) }
  | some r =>
    { s with
      pump := .dispatching count n r (r.listener.acts (s.invocations r.number)) [] }

def endDispatch (s : Session σ) (count : Nat) (n : Notification) (r : Registration)
    (answers : List Answer) (panic : Option String) : Session σ :=
  let s : Session σ :=
    { s with
      deliveries := s.deliveries ++ [⟨n, some r, answers⟩], pump := .draining (count + 1) }
  match panic with
  | some text => s.note (.listenerPanicked n.kind text)
  | none => s

def endDrain (s : Session σ) (count : Nat) : Session σ :=
  (if 0 < count then s.note (.drained count) else s).endTurn

def beginTurn? (s : Session σ) : Option (Session σ) :=
  match s.lane.receive? with
  | some (c, lane) => some ({ s with lane := lane }.beginCompletion c)
  | none =>
    match s.lane.phase with
    | .ended => some s.detach
    | _ => s.mailbox.wake?.map fun m => { s with mailbox := m, pump := .draining 0 }

/-- Whether an act must wait for the state, since another request is on its way into the queue. -/
def mustWait (s : Session σ) (act : Act) : Bool := s.booked.isSome && act.submits

/-- One step of the pump; `none` when there is nothing for it to do. A turn handles one completed
call, or empties the mailbox; completed calls come first. -/
def pumpStep? (V : Vendor σ) (s : Session σ) : Option (Session σ) :=
  match s.pump with
  | .unstarted => some { s.note .pumpStarted with pump := .waiting }
  | .waiting => s.beginTurn?
  | .completing sub outcome [] answers => some (s.endCompletion sub outcome answers none)
  | .completing sub outcome (act :: acts) answers =>
    if s.mustWait act then none
    else
      let (answer, t) := s.perform V act
      match s.panic? act with
      | some text => some (t.endCompletion sub outcome (answers ++ [answer]) (some text))
      | none => some { t with pump := .completing sub outcome acts (answers ++ [answer]) }
  | .draining count =>
    match s.mailbox.take? with
    | none => some (s.endDrain count)
    | some (n, m) => some ({ s with mailbox := m }.beginDispatch count n)
  | .dispatching count n r [] answers => some (s.endDispatch count n r answers none)
  | .dispatching count n r (act :: acts) answers =>
    if s.mustWait act then none
    else
      let (answer, t) := s.perform V act
      match s.panic? act with
      | some text => some (t.endDispatch count n r (answers ++ [answer]) (some text))
      | none => some { t with pump := .dispatching count n r acts (answers ++ [answer]) }
  | .detached => none
  | .destroyed => none

end MarketFeed.Session
