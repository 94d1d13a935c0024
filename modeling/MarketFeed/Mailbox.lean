import MarketFeed.Event
import MarketFeed.Queue

namespace MarketFeed

/-- The mailbox between the gateway's callback thread and the host. However many notifications come
in before the host looks, they leave a single wakeup, so the host empties the mailbox each time it
wakes. A mailbox keeps what it ever took in, and what was still in it when it was closed; wakeups
are owed by publishers that have put a notification in and have not come to the wakeup yet. -/
structure Mailbox where
  queue : Queue Notification := .empty
  wakeup : Bool := false
  owed : Nat := 0
  closed : Bool := false
  published : Nat := 0
  dropped : Nat := 0
  accepted : List Notification := []
  discarded : List Notification := []
  deriving DecidableEq

namespace Mailbox

def pending (m : Mailbox) : Nat := m.queue.size

def publish (m : Mailbox) (n : Notification) : Mailbox :=
  if m.closed then { m with dropped := m.dropped + 1 }
  else
    { m with
      queue := m.queue.push n, published := m.published + 1, wakeup := true
      accepted := m.accepted ++ [n] }

/-- The first half of publishing: the notification is in, and the wakeup is owed. -/
def post (m : Mailbox) (n : Notification) : Mailbox :=
  if m.closed then { m with dropped := m.dropped + 1 }
  else
    { m with
      queue := m.queue.push n, owed := m.owed + 1
      accepted := m.accepted ++ [n] }

/-- The second half: a wakeup that is owed is stored. -/
def ring? (m : Mailbox) : Option Mailbox :=
  if 0 < m.owed then
    some { m with published := m.published + 1, wakeup := true, owed := m.owed - 1 }
  else none

def publishAll (m : Mailbox) (ns : List Notification) : Mailbox := ns.foldl publish m

def wake? (m : Mailbox) : Option Mailbox :=
  if m.wakeup then some { m with wakeup := false } else none

def take? (m : Mailbox) : Option (Notification × Mailbox) :=
  m.queue.pop?.map fun (n, q) => (n, { m with queue := q })

def close (m : Mailbox) : Nat × Mailbox :=
  (m.queue.clear.1,
    { m with
      closed := true, queue := m.queue.clear.2, dropped := m.dropped + m.queue.clear.1,
      wakeup := true, discarded := m.discarded ++ m.queue.items })

inductive Visit where
  | publish (n : Notification)
  | close
  deriving DecidableEq

/-- What one receiver does, and the counts its closings gave. -/
def visit (m : Mailbox) : List Visit → List Nat × Mailbox
  | [] => ([], m)
  | .publish n :: vs => (m.publish n).visit vs
  | .close :: vs =>
    let (counts, m') := m.close.2.visit vs
    (m.close.1 :: counts, m')

structure Drained where
  items : List Notification
  discarded : List Nat
  mailbox : Mailbox
  deriving DecidableEq

/-- Takes notifications out until none is left. The receiver of the first does what the first list
of visits says, and so on; receivers beyond the lists do nothing, so the rest goes at once. -/
def drain (m : Mailbox) : List (List Visit) → Drained
  | [] => ⟨m.queue.items, [], { m with queue := .empty }⟩
  | vs :: later =>
    match m.take? with
    | none => ⟨[], [], m⟩
    | some (n, m') =>
      let (counts, m'') := m'.visit vs
      let d := m''.drain later
      ⟨n :: d.items, counts ++ d.discarded, d.mailbox⟩

theorem ring?_post {m : Mailbox} (h : m.closed = false) (n : Notification) :
    (m.post n).ring? = some (m.publish n) := by
  simp [post, publish, ring?, h]

theorem closed_publish (m : Mailbox) (n : Notification) : (m.publish n).closed = m.closed := by
  cases h : m.closed <;> simp [publish, h]

theorem items_publish (m : Mailbox) (n : Notification) :
    (m.publish n).queue.items = m.queue.items ++ if m.closed then [] else [n] := by
  cases h : m.closed <;> simp [publish, Queue.items_push, h]

theorem items_publishAll (m : Mailbox) (ns : List Notification) :
    (m.publishAll ns).queue.items = m.queue.items ++ if m.closed then [] else ns := by
  induction ns generalizing m with
  | nil => simp [publishAll]
  | cons n ns ih =>
    have h := ih (m.publish n)
    simp only [publishAll, List.foldl_cons] at h ⊢
    rw [h, items_publish, closed_publish]
    cases m.closed <;> simp

theorem take?_eq_some_iff {m m' : Mailbox} {n : Notification} :
    m.take? = some (n, m') ↔
      m.queue.items = n :: m'.queue.items ∧ m' = { m with queue := m'.queue } := by
  cases h : m.queue.pop? with
  | none =>
    have hi := Queue.pop?_eq_none_iff.1 h
    simp [take?, h, hi]
  | some r =>
    obtain ⟨a, q⟩ := r
    have hi := Queue.pop?_eq_some_iff.1 h
    simp only [take?, h, hi, Option.map_some, Option.some.injEq, Prod.mk.injEq, List.cons.injEq]
    constructor
    · rintro ⟨rfl, rfl⟩
      exact ⟨⟨rfl, rfl⟩, rfl⟩
    · rintro ⟨⟨rfl, hq⟩, hm⟩
      refine ⟨rfl, ?_⟩
      have : q = m'.queue := by
        cases q with
        | mk items => cases hm' : m'.queue with | mk items' => simp_all
      rw [hm, this]

end Mailbox

end MarketFeed
