import MarketFeed.Listeners

namespace MarketFeed.Listeners

inductive Op (ι : Type) where
  | register (kind : EventKind) (listener : ι)
  | unregister (kind : EventKind)
  | has (kind : EventKind)
  | size
  | dispatch (n : Notification)
  | clear

inductive Reply where
  | done
  | flag (b : Bool)
  | count (n : Nat)
  deriving DecidableEq

/-- What happens at a table. A notification that is dispatched is missed, or a listener is invoked
with it, which returns after all that its own operations make happen. -/
inductive Happening (ι : Type) where
  | registered (kind : EventKind) (listener : ι) (replaced : Bool)
  | unregistered (kind : EventKind) (removed : Bool)
  | asked (kind : EventKind) (answer : Bool)
  | counted (n : Nat)
  | cleared
  | missed (n : Notification)
  | invoked (listener : ι) (n : Notification)
  | returned (listener : ι) (n : Notification) (replies : List Reply)
  deriving DecidableEq

/-- Host code: its next operation, if it is not at its end, after all that has happened and what its
earlier operations answered. -/
abbrev Program (ι : Type) := List (Happening ι) → List Reply → Option (Op ι)

abbrev Code (ι : Type) := ι → Notification → Program ι

structure Board (ι : Type) where
  table : Listeners ι := .empty
  history : List (Happening ι) := []

variable {ι : Type}

def Board.note (b : Board ι) (e : Happening ι) : Board ι := { b with history := b.history ++ [e] }

/-- Carries out one operation, given how listeners are invoked; `none` stands for a listener that
does not return in the steps allowed. -/
def Op.run (invoke : ι → Notification → Board ι → Option (Board ι)) (b : Board ι) :
    Op ι → Option (Reply × Board ι)
  | register kind l =>
    let had := b.table.has kind
    some (.flag had, { b.note (.registered kind l had) with table := b.table.register kind l })
  | unregister kind =>
    let had := b.table.has kind
    some (.flag had, { b.note (.unregistered kind had) with table := b.table.unregister kind })
  | has kind => some (.flag (b.table.has kind), b.note (.asked kind (b.table.has kind)))
  | size => some (.count b.table.size, b.note (.counted b.table.size))
  | clear => some (.done, { b.note .cleared with table := .empty })
  | dispatch n =>
    match b.table.find? n.kind with
    | none => some (.flag false, b.note (.missed n))
    | some l => (invoke l n b).map fun b => (.flag true, b)

/-- Invokes a listener, given how programs are run. It was looked up before its code runs, so that
the code may replace or remove it. -/
def invoke (code : Code ι)
    (runProgram : Program ι → List Reply → Board ι → Option (List Reply × Board ι))
    (l : ι) (n : Notification) (b : Board ι) : Option (Board ι) :=
  (runProgram (code l n) [] (b.note (.invoked l n))).map fun (replies, b) =>
    b.note (.returned l n replies)

/-- Runs a program to its end, after what its operations answered so far. The number bounds how many
operations it can have, and how deep invocations can be nested. -/
def run (code : Code ι) : Nat → Program ι → List Reply → Board ι → Option (List Reply × Board ι)
  | 0, _, _, _ => none
  | fuel + 1, p, replies, b =>
    match p b.history replies with
    | none => some (replies, b)
    | some op =>
      (op.run (invoke code (run code fuel)) b).bind fun (reply, b) =>
        run code fuel p (replies ++ [reply]) b

def script (ops : List (Op ι)) : Program ι := fun _ replies => ops[replies.length]?

inductive Scripted (α : Type) where
  | mk (name : α) (ops : List (Op (Scripted α)))

namespace Scripted

variable {α : Type}

def name : Scripted α → α
  | mk name _ => name

def code : Code (Scripted α)
  | mk _ ops, _ => script ops

end Scripted

end MarketFeed.Listeners
