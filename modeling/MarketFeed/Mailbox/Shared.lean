import MarketFeed.Mailbox

namespace MarketFeed

/-- A bell and the one who waits for it. To poll is to ask whether it was rung, and to wait if it
was not; to leave is to wait no longer. -/
structure Bell (β : Type) where
  ring : β → β
  poll : β → Bool × β
  leave : β → β

namespace Bell

variable {β : Type}

/-- Whether a ring is stored, or was granted to the one who waits. -/
def isRung (B : Bell β) (b : β) : Bool := (B.poll b).1

/-- A bell that keeps a ring until it is polled: a ring is stored or granted to the one who waits,
and one that was granted to somebody who leaves is passed on. -/
structure Lossless (B : Bell β) : Prop where
  ring : ∀ b, B.isRung (B.ring b) = true
  leave : ∀ b, B.isRung b = true → B.isRung (B.leave b) = true

end Bell

namespace Mailbox

inductive Publishing where
  | arrived
  | inside
  | admitted
  | refused
  | pushed
  | counted
  | done (taken : Bool)
  deriving DecidableEq

inductive Closing where
  | arrived
  | inside
  | shut
  | cleared (discarded : Nat)
  | tallied (discarded : Nat)
  | done (discarded : Nat)
  deriving DecidableEq

inductive Caller where
  | publish (n : Notification) (stage : Publishing)
  | close (stage : Closing)
  | drain (count : Nat) (done : Bool)
  deriving DecidableEq

namespace Caller

def sharesGate : Caller → Bool
  | publish _ .inside | publish _ .admitted | publish _ .refused => true
  | _ => false

def ownsGate : Caller → Bool
  | close .inside | close .shut => true
  | _ => false

def owesRing : Caller → Bool
  | publish _ .pushed | publish _ .counted => true
  | _ => false

end Caller

inductive Consumer where
  | away
  | waiting
  | draining
  deriving DecidableEq

/-- A mailbox in the hands of many callers. Publishers and closers pass a gate: inside it are any
number of publishers, or one closer and nobody else. The consumer waits for the bell and then
empties the mailbox; it may also stop waiting because there is something else to do. What the
mailbox ever took in is kept, and so is what was handed over or discarded. -/
structure Shared (β : Type) where
  bell : β
  queue : Queue Notification := .empty
  closed : Bool := false
  published : Nat := 0
  dropped : Nat := 0
  accepted : List Notification := []
  handed : List Notification := []
  discarded : List Notification := []
  callers : List Caller := []
  consumer : Consumer := .away

inductive Move where
  | publish (n : Notification)
  | close
  | drain
  | advance (place : Nat)
  | poll
  | leave
  | take

namespace Shared

variable {β : Type}

def join (s : Shared β) (c : Caller) : Shared β := { s with callers := s.callers ++ [c] }

def take? (s : Shared β) : Option (Notification × Shared β) :=
  s.queue.pop?.map fun (n, q) => (n, { s with queue := q, handed := s.handed ++ [n] })

def advance? (B : Bell β) (s : Shared β) : Caller → Option (Caller × Shared β)
  | .publish n .arrived =>
    if s.callers.any Caller.ownsGate then none else some (.publish n .inside, s)
  | .publish n .inside => some (.publish n (if s.closed then .refused else .admitted), s)
  -- a publisher is out of the gate with this step, or where it counts its notification as dropped
  | .publish n .admitted =>
    some (.publish n .pushed, { s with queue := s.queue.push n, accepted := s.accepted ++ [n] })
  | .publish n .refused => some (.publish n (.done false), { s with dropped := s.dropped + 1 })
  | .publish n .pushed => some (.publish n .counted, { s with published := s.published + 1 })
  | .publish n .counted => some (.publish n (.done true), { s with bell := B.ring s.bell })
  | .publish _ (.done _) => none
  | .close .arrived =>
    if s.callers.any fun c => c.sharesGate || c.ownsGate then none else some (.close .inside, s)
  | .close .inside => some (.close .shut, { s with closed := true })
  -- a closer is out of the gate with this step
  | .close .shut =>
    some (.close (.cleared s.queue.clear.1),
      { s with queue := s.queue.clear.2, discarded := s.discarded ++ s.queue.items })
  | .close (.cleared k) => some (.close (.tallied k), { s with dropped := s.dropped + k })
  | .close (.tallied k) => some (.close (.done k), { s with bell := B.ring s.bell })
  | .close (.done _) => none
  | .drain count false =>
    match s.take? with
    | some (_, t) => some (.drain (count + 1) false, t)
    | none => some (.drain count true, s)
  | .drain _ true => none

def advanceAt? (B : Bell β) (s : Shared β) (place : Nat) : Option (Shared β) := do
  let c ← s.callers[place]?
  let (c, t) ← s.advance? B c
  return { t with callers := s.callers.set place c }

def poll (B : Bell β) (s : Shared β) : Shared β :=
  { s with
    bell := (B.poll s.bell).2
    consumer := if B.isRung s.bell then .draining else .waiting }

def step? (B : Bell β) (s : Shared β) : Move → Option (Shared β)
  | .publish n => some (s.join (.publish n .arrived))
  | .close => some (s.join (.close .arrived))
  | .drain => some (s.join (.drain 0 false))
  | .advance place => s.advanceAt? B place
  | .poll => if s.consumer = .draining then none else some (s.poll B)
  | .leave =>
    if s.consumer = .waiting then some { s with bell := B.leave s.bell, consumer := .away }
    else none
  | .take =>
    if s.consumer = .draining then
      match s.take? with
      | some (_, t) => some t
      | none => some { s with consumer := .away }
    else none

def run (B : Bell β) (s : Shared β) (ms : List Move) : Option (Shared β) := ms.foldlM (step? B) s

def mailbox (B : Bell β) (s : Shared β) : Mailbox where
  queue := s.queue
  wakeup := B.isRung s.bell
  owed := s.callers.countP Caller.owesRing
  closed := s.closed
  published := s.published
  dropped := s.dropped
  accepted := s.accepted
  discarded := s.discarded

end Shared

end Mailbox

end MarketFeed
