import MarketFeed.Session.Pump

namespace MarketFeed

/-- What a session's parts do, in any order. A request is booked in one move and queued in another,
with the state locked in between; a callback's notification is posted in one move and its wakeup
comes in another. The pump may be destroyed too, but only between two turns. -/
inductive Move where
  | book (request : Request) (requestId : Option Int32) (k : Continuation)
  | enqueue
  | on (kind : EventKind) (l : Listener)
  | off (kind : EventKind)
  | post (callback : Callback)
  | ring
  | work
  | pump
  | letGo
  | destroyPump

namespace Session

variable {σ : Type}

def workStep? (V : Vendor σ) (s : Session σ) : Option (Session σ) :=
  (s.lane.advance? V).map fun (raised, lane) => { s with lane := lane }.publish raised

def step? (V : Vendor σ) (s : Session σ) : Move → Option (Session σ)
  | .book request requestId k =>
    if s.held ∧ s.booked = none then some (s.book request requestId k).2 else none
  | .enqueue => if s.booked.isSome then some s.enqueue else none
  | .on kind l => if s.held then some (s.on kind l).2 else none
  | .off kind => if s.held then some (s.off kind).2 else none
  | .post callback => some { s with mailbox := s.mailbox.post (.ofCallback callback) }
  | .ring => s.mailbox.ring?.map fun m => { s with mailbox := m }
  | .work => s.workStep? V
  | .pump => s.pumpStep? V
  | .letGo => if s.held ∧ s.booked = none then some s.letGo else none
  | .destroyPump => if s.betweenTurns then some s.destroyPump else none

def run (V : Vendor σ) (s : Session σ) (ms : List Move) : Option (Session σ) :=
  ms.foldlM (step? V) s

theorem run_append (V : Vendor σ) (s : Session σ) (ms ns : List Move) :
    s.run V (ms ++ ns) = (s.run V ms).bind fun s => s.run V ns :=
  List.foldlM_append

/-- Whether a pump that has not started would find something to do. -/
def hasNews (s : Session σ) : Bool :=
  !s.lane.completions.isEmpty || s.mailbox.wakeup ||
    match s.lane.phase with
    | .ended => true
    | _ => false

def nextMove (V : Vendor σ) (s : Session σ) : Option (Session σ) :=
  match s.pump with
  | .completing .. | .draining _ | .dispatching .. => s.pumpStep? V
  | .unstarted =>
    match s.workStep? V with
    | some s => some s
    | none => if s.hasNews then s.pumpStep? V else none
  | _ =>
    match s.workStep? V with
    | some s => some s
    | none => s.pumpStep? V

theorem step?_of_nextMove {V : Vendor σ} {s s' : Session σ} (h : s.nextMove V = some s') :
    s.step? V .work = some s' ∨ s.step? V .pump = some s' := by
  cases hw : s.workStep? V with
  | none =>
    have hp : s.pumpStep? V = some s' := by
      cases hs : s.pump <;> simp_all [nextMove]
    exact .inr hp
  | some t =>
    have h' : t = s' ∨ s.pumpStep? V = some s' := by
      cases hs : s.pump <;> simp_all [nextMove]
    cases h' with
    | inl ht => exact .inl (ht ▸ hw)
    | inr hp => exact .inr hp

/-- Moves on until nothing is left to do, or until the given number of moves is used up. -/
def settle (V : Vendor σ) : Nat → Session σ → Session σ
  | 0, s => s
  | n + 1, s =>
    match s.nextMove V with
    | none => s
    | some s => settle V n s

theorem settle_eq_run (V : Vendor σ) (n : Nat) (s : Session σ) :
    ∃ ms : List Move, (∀ m ∈ ms, m = .work ∨ m = .pump) ∧ s.run V ms = some (s.settle V n) := by
  induction n generalizing s with
  | zero => exact ⟨[], nofun, rfl⟩
  | succ n ih =>
    cases h : s.nextMove V with
    | none => exact ⟨[], nofun, by simp [settle, h, run]⟩
    | some s' =>
      obtain ⟨ms, hms, hr⟩ := ih s'
      have hs : s.settle V (n + 1) = s'.settle V n := by simp [settle, h]
      rw [hs]
      cases step?_of_nextMove h with
      | inl hw => exact ⟨.work :: ms, by simpa using hms, by simp [run, hw] at hr ⊢; exact hr⟩
      | inr hp => exact ⟨.pump :: ms, by simpa using hms, by simp [run, hp] at hr ⊢; exact hr⟩

end Session

end MarketFeed
