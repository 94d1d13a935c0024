import MarketFeed.Client.Calls

namespace MarketFeed

def Move.isUnattended : Move → Bool
  | enqueue | post _ | ring | work | pump => true
  | _ => false

namespace Client

variable {σ : Type}

/-- The address that a client connects to: a name server is taken before a front. -/
def registration (settings : Settings) : Except Failure Request :=
  match settings.nameServerAddress?, settings.frontAddress? with
  | some address, _ => .ok (.registerNameServer address)
  | none, some address => .ok (.registerFront address)
  | none, none =>
    .error (.configuration "either frontAddress or nameServerAddress is required")

/-- A connection creates the handle, registers the address and starts the gateway. That there is no
address is found where one is needed. -/
def plan (settings : Settings) : List (Except Failure Request) :=
  [.ok (.create settings.flowDir), registration settings, .ok .init]

def heard? (c : Client σ) (t : Ticket) : Option Outcome :=
  match c.session.finished.find? fun f => f.tag == t.tag with
  | some f => some f.outcome
  | none =>
    match c.session.pump with
    | .completing sub outcome _ _ => if sub.continuation.tag = t.tag then some outcome else none
    | _ => none

end Client

/-- Where a connection stands: before its calls, suspended in one of them with what is to come after
it, or at an end. While it is suspended the pump, the worker and the vendor's threads move on in any
order. -/
inductive Progress where
  | ready (plan : List (Except Failure Request))
  | waiting (t : Ticket) (later : List (Except Failure Request))
  | connected
  | failed (f : Failure)

structure Connection (σ : Type) where
  client : Client σ
  progress : Progress

namespace Connection

variable {σ : Type}

def fail (c : Client σ) (f : Failure) : Connection σ :=
  ⟨{ c with session := c.session.letGo }, .failed f⟩

def proceed (c : Client σ) : List (Except Failure Request) → Connection σ
  | [] => ⟨c, .connected⟩
  | .error f :: _ => fail c f
  | .ok request :: later =>
    match c.book request none with
    | (.error f, c) => fail c f
    | (.ok t, c) => ⟨c, .waiting t later⟩

def start (c : Client σ) : Connection σ := ⟨c, .ready (Client.plan c.session.settings)⟩

def resume? (x : Connection σ) : Option (Connection σ) :=
  match x.progress with
  | .ready plan => some (proceed x.client plan)
  | .waiting t later =>
    (x.client.heard? t).map fun
      | .ok _ => proceed x.client later
      | .error f => fail x.client f
  | _ => none

inductive Move where
  | resume
  | around (m : MarketFeed.Move)

def step? (V : Vendor σ) (x : Connection σ) : Move → Option (Connection σ)
  | .resume => x.resume?
  | .around m =>
    if m.isUnattended then
      (x.client.session.step? V m).map fun s => { x with client := { x.client with session := s } }
    else none

def run (V : Vendor σ) (x : Connection σ) (ms : List Move) : Option (Connection σ) :=
  ms.foldlM (step? V) x

theorem run_append (V : Vendor σ) (x : Connection σ) (ms ns : List Move) :
    x.run V (ms ++ ns) = (x.run V ms).bind fun x => x.run V ns :=
  List.foldlM_append

def settle (V : Vendor σ) (fuel : Nat) (x : Connection σ) : Connection σ :=
  { x with client := x.client.enqueue.settle V fuel }

def drive (V : Vendor σ) (fuel : Nat) : Nat → Connection σ → Connection σ
  | 0, x => x.settle V fuel
  | n + 1, x =>
    match (x.settle V fuel).resume? with
    | some y => y.drive V fuel n
    | none => x.settle V fuel

/-- What a connection has come to. One that is not at its end has nobody left to hear from. -/
def result (x : Connection σ) : Except Failure Unit :=
  match x.progress with
  | .connected => .ok ()
  | .failed f => .error f
  | .ready _ | .waiting .. => .error .disconnected

theorem run_of_unattended {V : Vendor σ} {x : Connection σ} {s : Session σ}
    {ms : List MarketFeed.Move} (hms : ∀ m ∈ ms, m.isUnattended = true)
    (h : x.client.session.run V ms = some s) :
    x.run V (ms.map .around) = some { x with client := { x.client with session := s } } := by
  induction ms generalizing x with
  | nil =>
    cases h
    rfl
  | cons m ms ih =>
    rw [Session.run, List.foldlM_cons] at h
    obtain ⟨u, hu, hr⟩ := Option.bind_eq_some_iff.1 h
    have hstep : x.step? V (.around m) =
        some { x with client := { x.client with session := u } } := by
      rw [step?, if_pos (hms m List.mem_cons_self), hu]
      rfl
    rw [List.map_cons, run, List.foldlM_cons, hstep]
    exact ih (x := { x with client := { x.client with session := u } })
      (fun n hn => hms n (List.mem_cons_of_mem _ hn)) hr

theorem settle_eq_run (V : Vendor σ) (fuel : Nat) (x : Connection σ) :
    ∃ ms, x.run V ms = some (x.settle V fuel) := by
  obtain ⟨ms, hms, hr⟩ := x.client.session.enqueue.settle_eq_run V fuel
  have hmoves (m : MarketFeed.Move) (hm : m ∈ ms) : m.isUnattended = true := by
    rcases hms m hm with rfl | rfl <;> rfl
  cases hb : x.client.session.booked with
  | none =>
    have he : x.client.session.enqueue = x.client.session := by rw [Session.enqueue, hb]
    rw [he] at hr
    refine ⟨_, (run_of_unattended hmoves hr).trans ?_⟩
    rw [settle, Client.enqueue, he]
    rfl
  | some sub =>
    have hqueue : x.client.session.step? V .enqueue = some x.client.session.enqueue := by
      rw [Session.step?, hb]
      rfl
    have hall : x.client.session.run V (.enqueue :: ms) =
        some (x.client.session.enqueue.settle V fuel) := by
      rw [Session.run, List.foldlM_cons, hqueue]
      exact hr
    refine ⟨_, run_of_unattended ?_ hall⟩
    intro m hm
    rcases List.mem_cons.1 hm with rfl | hm
    · rfl
    · exact hmoves m hm

theorem drive_eq_run (V : Vendor σ) (fuel n : Nat) (x : Connection σ) :
    ∃ ms, x.run V ms = some (x.drive V fuel n) := by
  induction n generalizing x with
  | zero => exact x.settle_eq_run V fuel
  | succ n ih =>
    obtain ⟨ms, hms⟩ := x.settle_eq_run V fuel
    rw [drive]
    cases hr : (x.settle V fuel).resume? with
    | none => exact ⟨ms, hms⟩
    | some y =>
      obtain ⟨ns, hns⟩ := ih y
      refine ⟨ms ++ .resume :: ns, ?_⟩
      rw [run_append, hms]
      rw [run] at hns
      simp only [Option.bind_some, run, List.foldlM_cons, step?, hr]
      exact hns

end Connection

/-- A connected client, or the failure together with the client whose session was let go. -/
def Client.connect {σ : Type} (V : Vendor σ) (fuel : Nat) (c : Client σ) :
    Except Failure Unit × Client σ :=
  let x := (Connection.start c).drive V fuel ((plan c.session.settings).length + 1)
  (x.result, x.client)

theorem Client.connect_eq_run {σ : Type} (V : Vendor σ) (fuel : Nat) (c : Client σ) :
    ∃ ms x, (Connection.start c).run V ms = some x ∧ c.connect V fuel = (x.result, x.client) := by
  obtain ⟨ms, hms⟩ :=
    (Connection.start c).drive_eq_run V fuel ((plan c.session.settings).length + 1)
  exact ⟨ms, _, hms, rfl⟩

end MarketFeed
