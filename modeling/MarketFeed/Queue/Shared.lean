import MarketFeed.Queue

namespace MarketFeed

namespace Queue

inductive Pushing where
  | seeking
  | holding
  | owing
  deriving DecidableEq

structure Producer (α : Type) where
  pushed : List α := []
  left : List α
  stage : Pushing := .seeking

/-- How far a pop has come, and whether it was told to look again. Without an item it is dry while it
still has the lock, and parked afterwards. -/
inductive Popping (α : Type) where
  | seeking (told : Bool)
  | holding (told : Bool)
  | dry
  | parked
  | done (a : α)

/-- What a queue does at once, whether something is in it or not. -/
inductive Prompt where
  | take
  | clear
  | size
  | isEmpty

inductive Answer (α : Type) where
  | item (a : Option α)
  | count (n : Nat)
  | flag (b : Bool)

inductive Asking (α : Type) where
  | seeking
  | holding
  | done (answer : Answer α)

inductive Consumer (α : Type) where
  | pop (stage : Popping α)
  | ask (prompt : Prompt) (stage : Asking α)

variable {α : Type}

namespace Producer

def holdsLock (p : Producer α) : Bool := p.stage = .holding

def owes (p : Producer α) : Bool := p.stage = .owing

end Producer

namespace Consumer

def holdsLock : Consumer α → Bool
  | pop (.holding _) | pop .dry | ask _ .holding => true
  | _ => false

def isParked : Consumer α → Bool
  | pop .parked => true
  | _ => false

/-- Whether the consumer was told and has not looked again yet. -/
def isOnItsWay : Consumer α → Bool
  | pop (.seeking told) | pop (.holding told) => told
  | _ => false

end Consumer

/-- The answer to a prompt, what it removes, and what it leaves. -/
structure Effect (α : Type) where
  answer : Answer α
  removed : List α := []
  queue : Queue α

def Prompt.perform (q : Queue α) : Prompt → Effect α
  | take =>
    match q.pop? with
    | some (a, rest) => { answer := .item (some a), removed := [a], queue := rest }
    | none => { answer := .item none, queue := q }
  | clear => { answer := .count q.clear.1, removed := q.items, queue := q.clear.2 }
  | size => { answer := .count q.size, queue := q }
  | isEmpty => { answer := .flag q.isEmpty, queue := q }

/-- A queue in the hands of many threads, with its producers and the calls of its consumers, those
that have returned included. Whoever looks at the items or changes them holds the lock meanwhile. A
consumer that finds nothing to pop gives it back and begins to wait in one step; when it was told it
has to get the lock again, and by then another may have been faster. What came in is kept, with the
numbers of the producers, and what was removed, with the places of the calls that removed it. -/
structure Shared (α : Type) where
  queue : Queue α := .empty
  producers : List (Producer α)
  consumers : List (Consumer α) := []
  arrived : List (Nat × α) := []
  removed : List (Nat × α) := []

inductive Move where
  | push (number : Nat)
  | tell (number : Nat) (place : Option Nat)
  | pop
  | ask (prompt : Prompt)
  | advance (place : Nat)

namespace Shared

def start (lists : List (List α)) : Shared α := { producers := lists.map fun as => { left := as } }

def isLocked (s : Shared α) : Bool :=
  s.producers.any Producer.holdsLock || s.consumers.any Consumer.holdsLock

def setProducer (s : Shared α) (number : Nat) (p : Producer α) : Shared α :=
  { s with producers := s.producers.set number p }

def setConsumer (s : Shared α) (place : Nat) (c : Consumer α) : Shared α :=
  { s with consumers := s.consumers.set place c }

def join (s : Shared α) (c : Consumer α) : Shared α := { s with consumers := s.consumers ++ [c] }

def remove (s : Shared α) (place : Nat) (as : List α) (rest : Queue α) : Shared α :=
  { s with queue := rest, removed := s.removed ++ as.map (place, ·) }

def push? (s : Shared α) (number : Nat) : Option (Shared α) := do
  let p ← s.producers[number]?
  match p.left, p.stage with
  | _ :: _, .seeking =>
    if s.isLocked then none else some (s.setProducer number { p with stage := .holding })
  | a :: rest, .holding =>
    let t := s.setProducer number { pushed := p.pushed ++ [a], left := rest, stage := .owing }
    some { t with queue := s.queue.push a, arrived := s.arrived ++ [(number, a)] }
  | _, _ => none

/-- A producer tells a consumer that is parked. Only if there is none does it tell nobody. -/
def tell? (s : Shared α) (number : Nat) (place : Option Nat) : Option (Shared α) := do
  let p ← s.producers[number]?
  if p.owes then
    let t := s.setProducer number { p with stage := .seeking }
    match place with
    | none => if s.consumers.any Consumer.isParked then none else some t
    | some place =>
      match s.consumers[place]? with
      | some (.pop .parked) => some (t.setConsumer place (.pop (.seeking true)))
      | _ => none
  else none

def advance? (s : Shared α) (place : Nat) : Option (Shared α) := do
  match ← s.consumers[place]? with
  | .pop (.seeking told) =>
    if s.isLocked then none else some (s.setConsumer place (.pop (.holding told)))
  | .pop (.holding _) =>
    match s.queue.pop? with
    | some (a, rest) => some ((s.setConsumer place (.pop (.done a))).remove place [a] rest)
    | none => some (s.setConsumer place (.pop .dry))
  | .pop .dry => some (s.setConsumer place (.pop .parked))
  | .pop .parked | .pop (.done _) => none
  | .ask prompt .seeking =>
    if s.isLocked then none else some (s.setConsumer place (.ask prompt .holding))
  | .ask prompt .holding =>
    let e := prompt.perform s.queue
    some ((s.setConsumer place (.ask prompt (.done e.answer))).remove place e.removed e.queue)
  | .ask _ (.done _) => none

def step? (s : Shared α) : Move → Option (Shared α)
  | .push number => s.push? number
  | .tell number place => s.tell? number place
  | .pop => some (s.join (.pop (.seeking false)))
  | .ask prompt => some (s.join (.ask prompt .seeking))
  | .advance place => s.advance? place

def run (s : Shared α) (ms : List Move) : Option (Shared α) := ms.foldlM step? s

end Shared

end Queue

end MarketFeed
