import MarketFeed.Failure

namespace MarketFeed

/-- What the pump takes up: a call with its outcome, or a notification. -/
inductive Signal where
  | call (op : Operation) (outcome : Outcome)
  | event (n : Notification)

namespace Signal

def call? : Signal → Option (Operation × Outcome)
  | call op outcome => some (op, outcome)
  | event _ => none

def event? : Signal → Option Notification
  | call .. => none
  | event n => some n

theorem filterMap_event?_events (ns : List Notification) :
    (ns.map event).filterMap event? = ns := by
  rw [List.filterMap_map]
  exact List.filterMap_some

theorem eq_events {xs : List Signal} (h : xs.filterMap call? = []) :
    ∃ ns : List Notification, xs = ns.map event := by
  induction xs with
  | nil => exact ⟨[], rfl⟩
  | cons x xs ih =>
    cases x with
    | call op outcome => cases h
    | event n =>
      obtain ⟨ns, rfl⟩ := ih h
      exact ⟨n :: ns, rfl⟩

theorem eq_events_append_call {xs : List Signal} {op : Operation} {outcome : Outcome}
    {later : List (Operation × Outcome)} (h : xs.filterMap call? = (op, outcome) :: later) :
    ∃ (ns : List Notification) (rest : List Signal),
      xs = ns.map event ++ call op outcome :: rest ∧ rest.filterMap call? = later := by
  induction xs with
  | nil => cases h
  | cons x xs ih =>
    cases x with
    | call op' outcome' =>
      obtain ⟨he, hrest⟩ := List.cons.inj h
      cases he
      exact ⟨[], xs, rfl, hrest⟩
    | event n =>
      obtain ⟨ns, rest, rfl, hrest⟩ := ih h
      exact ⟨n :: ns, rest, rfl, hrest⟩

/-- Signals in which some calls and some notifications come together, each in their order. -/
structure Interleaves (xs : List Signal) (calls : List (Operation × Outcome))
    (ns : List Notification) : Prop where
  calls : xs.filterMap call? = calls
  events : xs.filterMap event? = ns

theorem mem_events {n : Notification} {ns : List Notification} :
    event n ∈ ns.map event ↔ n ∈ ns := by
  rw [List.mem_map]
  apply Iff.intro
  · rintro ⟨m, hm, he⟩
    cases he
    exact hm
  · intro hn
    exact ⟨n, hn, rfl⟩

theorem call_not_mem_events {op : Operation} {outcome : Outcome} {ns : List Notification} :
    call op outcome ∉ ns.map event := by
  intro h
  obtain ⟨n, -, he⟩ := List.mem_map.1 h
  cases he

end Signal

def EventKind.isConnection : EventKind → Bool
  | frontConnected | frontDisconnected => true
  | _ => false

namespace Lifecycle

theorem afterEvent_of_not_connection (s : Lifecycle) {k : EventKind} (h : k.isConnection = false) :
    s.afterEvent k = s := by
  cases k with
  | frontConnected | frontDisconnected => cases h
  | _ => cases s <;> rfl

theorem afterCall_of_other (s : Lifecycle) {op : Operation} (hc : op ≠ .create) (hi : op ≠ .init)
    (he : op ≠ .exit) : s.afterCall op = s := by
  cases op with
  | create => exact absurd rfl hc
  | init => exact absurd rfl hi
  | exit => exact absurd rfl he
  | _ => cases s <;> rfl

/-- A call moves the state unless it has failed. -/
def after (s : Lifecycle) : Signal → Lifecycle
  | .call op (.ok _) => s.afterCall op
  | .call _ (.error _) => s
  | .event n => s.afterEvent n.kind

def afterAll (s : Lifecycle) (xs : List Signal) : Lifecycle := xs.foldl after s

def afterEvents (s : Lifecycle) (ns : List Notification) : Lifecycle :=
  ns.foldl (fun s n => s.afterEvent n.kind) s

theorem afterAll_append (s : Lifecycle) (xs ys : List Signal) :
    s.afterAll (xs ++ ys) = (s.afterAll xs).afterAll ys :=
  List.foldl_append

theorem afterAll_events (s : Lifecycle) (ns : List Notification) :
    s.afterAll (ns.map .event) = s.afterEvents ns :=
  List.foldl_map

theorem afterEvents_append (s : Lifecycle) (ns ms : List Notification) :
    s.afterEvents (ns ++ ms) = (s.afterEvents ns).afterEvents ms :=
  List.foldl_append

/-- How far a session has come. A connection that was lost and one that stands are equally far. -/
def rank : Lifecycle → Nat
  | uninitialized => 0
  | created => 1
  | initialized => 2
  | active | disconnected => 3
  | exiting => 4
  | closed => 5

theorem rank_le_closed (s : Lifecycle) : s.rank ≤ closed.rank := by
  cases s <;> decide

theorem rank_le_exiting {s : Lifecycle} (h : s.isTerminal = false) : s.rank ≤ exiting.rank := by
  cases s <;> first | decide | cases h

theorem rank_le_afterCall (s : Lifecycle) (op : Operation) : s.rank ≤ (s.afterCall op).rank := by
  cases op with
  | exit => exact s.rank_le_closed
  | create => cases s <;> decide
  | init => cases s <;> decide
  | _ => cases s <;> exact Nat.le_refl _

theorem rank_le_afterEvent (s : Lifecycle) (k : EventKind) :
    s.rank ≤ (s.afterEvent k).rank := by
  cases k with
  | frontConnected => cases s <;> decide
  | frontDisconnected => cases s <;> decide
  | _ => cases s <;> exact Nat.le_refl _

end Lifecycle

end MarketFeed
