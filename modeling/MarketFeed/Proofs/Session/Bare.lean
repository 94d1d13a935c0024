import MarketFeed.Proofs.Lane.Map
import MarketFeed.Proofs.Session.Flow
import MarketFeed.Proofs.Session.Delivery

namespace MarketFeed

def Continuation.bare (k : Continuation) : Continuation := { k with acts := [] }

def Listener.bare (l : Listener) : Listener := { l with rounds := [] }

def Registration.bare (r : Registration) : Registration := { r with listener := r.listener.bare }

/-- An act without what comes of it later. -/
def Act.bare : Act → Act
  | call request requestId _ => call request requestId []
  | on event label _ => on event label []
  | act => act

theorem Act.eq_of_bare {act act' : Act} (h : act.bare = act'.bare) :
    (∃ request requestId acts acts',
      act = .call request requestId acts ∧ act' = .call request requestId acts') ∨
    (∃ event label rounds rounds', act = .on event label rounds ∧ act' = .on event label rounds') ∨
    act = act' := by
  cases act with
  | call request requestId acts =>
    cases act' with
    | call request' requestId' acts' =>
      cases h
      exact .inl ⟨request, requestId, acts, acts', rfl, rfl⟩
    | _ => cases h
  | on event label rounds =>
    cases act' with
    | on event' label' rounds' =>
      cases h
      exact .inr (.inl ⟨event, label, rounds, rounds', rfl, rfl⟩)
    | _ => cases h
  | _ =>
    cases act' with
    | call request' requestId' acts' => cases h
    | on event' label' rounds' => cases h
    | _ => exact .inr (.inr h)

def Pump.bare : Pump → Pump
  | completing sub outcome _ _ => completing (sub.map Continuation.bare) outcome [] []
  | dispatching count n r _ _ => dispatching count n r.bare [] []
  | pump => pump

/-- Whether the pump is inside a continuation or a listener. -/
def Pump.isRunning : Pump → Bool
  | completing .. | dispatching .. => true
  | _ => false

def Pump.acts : Pump → List Act
  | completing _ _ acts _ => acts
  | dispatching _ _ _ acts _ => acts
  | _ => []

def Finished.bare (f : Finished) : Finished := ⟨f.submission.map Continuation.bare, f.outcome, []⟩

def Delivery.bare (d : Delivery) : Delivery :=
  ⟨d.notification, d.listener.map Registration.bare, []⟩

namespace Listeners

variable {α β : Type} (f : α → β)

def map (t : Listeners α) : Listeners β := ⟨t.slots.map (Option.map f)⟩

theorem find?_map (t : Listeners α) (kind : EventKind) :
    (t.map f).find? kind = (t.find? kind).map f :=
  Vector.getElem_map ..

theorem map_empty : (empty : Listeners α).map f = empty := by
  simp [map, empty]

theorem map_register (t : Listeners α) (kind : EventKind) (a : α) :
    (t.register kind a).map f = (t.map f).register kind (f a) := by
  simp [map, register, Vector.map_set]

theorem map_unregister (t : Listeners α) (kind : EventKind) :
    (t.unregister kind).map f = (t.map f).unregister kind := by
  simp [map, unregister, Vector.map_set]

end Listeners

namespace Session

variable {σ : Type}

/-- A session without its host code: what is left is enough to tell how the session goes on, but for
the next act of a continuation or a listener that is running. -/
def bare (s : Session σ) : Session σ where
  settings := s.settings
  lane := s.lane.map Continuation.bare
  booked := s.booked.map (Submission.map Continuation.bare)
  mailbox := s.mailbox
  state := s.state
  listeners := s.listeners.map Registration.bare
  registrations := s.registrations
  inFlight := s.inFlight
  pump := s.pump.bare
  held := s.held
  finished := s.finished.map Finished.bare
  deliveries := s.deliveries.map Delivery.bare

theorem book_fst (s : Session σ) (request : Request) (requestId : Option Int32)
    (k : Continuation) :
    (s.book request requestId k).1 =
      request.check.bind fun _ =>
        if s.state.accepts request.operation then .ok ()
        else .error (.invalidState request.operation s.state) := by
  rw [book]
  cases request.check with
  | error f => rfl
  | ok u =>
    simp only [Except.bind]
    split <;> rfl

section
variable {s t : Session σ} (h : s.bare = t.bare)
include h

theorem worker_of_bare : s.lane.worker = t.lane.worker := congrArg (·.lane.worker) h

theorem state_of_bare : s.state = t.state := congrArg (·.state) h

theorem inFlight_of_bare : s.inFlight = t.inFlight := congrArg (·.inFlight) h

theorem mailbox_of_bare : s.mailbox = t.mailbox := congrArg (·.mailbox) h

theorem held_of_bare : s.held = t.held := congrArg (·.held) h

theorem isDetached_of_bare : s.isDetached = t.isDetached := by
  have hb (s : Session σ) : s.bare.isDetached = s.isDetached := by
    cases hp : s.pump <;> simp only [isDetached, bare, Pump.bare, hp]
  rw [← hb s, ← hb t, h]

theorem betweenTurns_of_bare : s.betweenTurns = t.betweenTurns := by
  have hb (s : Session σ) : s.bare.betweenTurns = s.betweenTurns := by
    cases hp : s.pump <;> simp only [betweenTurns, bare, Pump.bare, hp]
  rw [← hb s, ← hb t, h]

theorem isSome_booked_of_bare : s.booked.isSome = t.booked.isSome := by
  have hb (s : Session σ) : s.bare.booked.isSome = s.booked.isSome := Option.isSome_map
  rw [← hb s, ← hb t, h]

theorem free_of_bare : s.booked = none ↔ t.booked = none := by
  rw [← Option.not_isSome_iff_eq_none, ← Option.not_isSome_iff_eq_none, isSome_booked_of_bare h]

theorem find?_of_bare (kind : EventKind) :
    (s.listeners.find? kind).map Registration.bare =
      (t.listeners.find? kind).map Registration.bare := by
  rw [← Listeners.find?_map, ← Listeners.find?_map]
  exact congrArg (fun b : Session σ => b.listeners.find? kind) h

theorem mustWait_of_bare (act : Act) : s.mustWait act = t.mustWait act := by
  rw [mustWait, mustWait, isSome_booked_of_bare h]

theorem bare_detach : s.detach.bare = t.detach.bare :=
  congrArg (fun b : Session σ => { b with
    mailbox := b.mailbox.close.2
    listeners := Listeners.empty.map Registration.bare
    pump := .detached }) h

theorem bare_endTurn : s.endTurn.bare = t.endTurn.bare := by
  rw [endTurn, endTurn]
  by_cases hx : s.state = .closed ∧ s.inFlight = 0
  · rw [if_pos hx, if_pos (state_of_bare h ▸ inFlight_of_bare h ▸ hx)]
    exact bare_detach h
  · rw [if_neg hx, if_neg (state_of_bare h ▸ inFlight_of_bare h ▸ hx)]
    exact congrArg (fun b : Session σ => { b with pump := .waiting }) h

theorem bare_endCompletion {sub sub' : Submission Continuation}
    (hs : sub.map Continuation.bare = sub'.map Continuation.bare) (outcome : Outcome)
    (answers answers' : List Answer) (panic panic' : Option String) :
    (s.endCompletion sub outcome answers panic).bare =
      (t.endCompletion sub' outcome answers' panic').bare := by
  have hb (s : Session σ) (sub : Submission Continuation) (answers : List Answer)
      (log : List LogRecord) : bare
      { s with
        finished := s.finished ++ [⟨sub, outcome, answers⟩]
        listeners := if sub.operation = .exit then .empty else s.listeners
        inFlight := s.inFlight - 1
        log := log } =
      { s.bare with
        finished := s.bare.finished ++ [⟨sub.map Continuation.bare, outcome, []⟩]
        listeners := if (sub.map Continuation.bare).operation = .exit then .empty
          else s.bare.listeners
        inFlight := s.bare.inFlight - 1 } := by
    have ho : (sub.map Continuation.bare).operation = sub.operation := rfl
    by_cases he : sub.operation = .exit <;>
      simp only [bare, List.map_append, ho, he, if_true, if_false, Listeners.map_empty] <;> rfl
  obtain ⟨log, he⟩ := s.endCompletion_eq sub outcome answers panic
  obtain ⟨log', he'⟩ := t.endCompletion_eq sub' outcome answers' panic'
  rw [he, he']
  apply bare_endTurn
  rw [hb, hb, h, hs]

theorem bare_endDispatch (count : Nat) (n : Notification) {r r' : Registration}
    (hr : r.bare = r'.bare) (answers answers' : List Answer) (panic panic' : Option String) :
    (s.endDispatch count n r answers panic).bare =
      (t.endDispatch count n r' answers' panic').bare := by
  have hb (s : Session σ) (r : Registration) (answers : List Answer) (log : List LogRecord) : bare
      { s with
        deliveries := s.deliveries ++ [⟨n, some r, answers⟩]
        pump := .draining (count + 1)
        log := log } =
      { s.bare with
        deliveries := s.bare.deliveries ++ [⟨n, some r.bare, []⟩]
        pump := .draining (count + 1) } := by
    simp only [bare, List.map_append]
    rfl
  obtain ⟨log, he⟩ := s.endDispatch_eq count n r answers panic
  obtain ⟨log', he'⟩ := t.endDispatch_eq count n r' answers' panic'
  rw [he, he', hb, hb, h, hr]

theorem bare_endDrain (count : Nat) : (s.endDrain count).bare = (t.endDrain count).bare := by
  rw [endDrain, endDrain]
  split
  · exact bare_endTurn (s := s.note (.drained count)) h
  · exact bare_endTurn h

theorem bare_beginCompletion {c c' : Completion Continuation}
    (hc : c.map Continuation.bare = c'.map Continuation.bare) :
    (s.beginCompletion c).bare = (t.beginCompletion c').bare := by
  have hb (s : Session σ) (c : Completion Continuation) : (s.beginCompletion c).bare =
      { s.bare with
        state := s.bare.stateAfter (c.map Continuation.bare).submission.operation
          (c.map Continuation.bare).result
        mailbox := if (c.map Continuation.bare).submission.operation = .exit
          then s.bare.mailbox.close.2 else s.bare.mailbox
        pump := .completing (c.map Continuation.bare).submission
          (c.map Continuation.bare).result.outcome [] [] } := by
    obtain ⟨log, he⟩ := s.beginCompletion_eq c
    rw [he]
    rfl
  rw [hb, hb, h, hc]

theorem bare_beginDispatch (count : Nat) (n : Notification) :
    (s.beginDispatch count n).bare = (t.beginDispatch count n).bare := by
  have hl := find?_of_bare h n.kind
  rcases s.beginDispatch_eq count n with ⟨hn, log, he⟩ | ⟨r, log, hr, he⟩
  · rcases t.beginDispatch_eq count n with ⟨hn', log', he'⟩ | ⟨r', log', hr', he'⟩
    · have hb (s : Session σ) (log : List LogRecord) : bare
          { s with
            state := s.state.afterEvent n.kind
            deliveries := s.deliveries ++ [⟨n, none, []⟩]
            pump := .draining (count + 1)
            log := log } =
          { s.bare with
            state := s.bare.state.afterEvent n.kind
            deliveries := s.bare.deliveries ++ [⟨n, none, []⟩]
            pump := .draining (count + 1) } := by
        simp only [bare, List.map_append]
        rfl
      rw [he, he', hb, hb, h]
    · rw [hn, hr'] at hl
      cases hl
  · rcases t.beginDispatch_eq count n with ⟨hn', log', he'⟩ | ⟨r', log', hr', he'⟩
    · rw [hr, hn'] at hl
      cases hl
    · rw [hr, hr'] at hl
      have hb (s : Session σ) (r : Registration) (log : List LogRecord) : bare
          { s with
            state := s.state.afterEvent n.kind
            pump := .dispatching count n r (r.listener.acts (s.invocations r.number)) []
            log := log } =
          { s.bare with
            state := s.bare.state.afterEvent n.kind
            pump := .dispatching count n r.bare [] [] } := rfl
      rw [he, he', hb, hb, h, Option.some.inj hl]

theorem book_of_bare (request : Request) (requestId : Option Int32) {k k' : Continuation}
    (hk : k.bare = k'.bare) :
    (s.book request requestId k).1 = (t.book request requestId k').1 ∧
      (s.book request requestId k).2.bare = (t.book request requestId k').2.bare := by
  have hb (s : Session σ) (k : Continuation) (log : List LogRecord) :
      (s.booking ⟨request, requestId, k⟩ log).bare =
        { s.bare with
          state := if request.operation = .exit then .exiting else s.bare.state
          inFlight := s.bare.inFlight + 1
          booked := some ⟨request, requestId, k.bare⟩ } := rfl
  have hf : (s.book request requestId k).1 = (t.book request requestId k').1 := by
    rw [book_fst, book_fst, state_of_bare h]
  rcases s.book_eq request requestId k with ⟨hn, he⟩ | ⟨ho, -, -, log, he⟩
  · rcases t.book_eq request requestId k' with ⟨-, he'⟩ | ⟨ho', -⟩
    · rw [he, he']
      exact ⟨hf, h⟩
    · rw [hf, ho'] at hn
      cases hn
  · rcases t.book_eq request requestId k' with ⟨hn', -⟩ | ⟨-, -, -, log', he'⟩
    · rw [hf, hn'] at ho
      cases ho
    · rw [he, he', hb, hb, h, hk]
      exact ⟨hf, rfl⟩

theorem bare_enqueue : s.enqueue.bare = t.enqueue.bare := by
  have hb := congrArg (·.booked) h
  rw [enqueue, enqueue]
  cases hs : s.booked with
  | none =>
    cases ht : t.booked with
    | none => exact h
    | some sub' => simp [bare, hs, ht] at hb
  | some sub =>
    cases ht : t.booked with
    | none => simp [bare, hs, ht] at hb
    | some sub' =>
      have he : sub.map Continuation.bare = sub'.map Continuation.bare := by
        simpa [bare, hs, ht] using hb
      have hm (s : Session σ) (sub : Submission Continuation) :
          bare { s with lane := s.lane.submit sub, booked := none } =
            { s.bare with
              lane := s.bare.lane.submit (sub.map Continuation.bare), booked := none } := by
        rw [bare, Lane.map_submit]
        rfl
      change bare { s with lane := s.lane.submit sub, booked := none } =
        bare { t with lane := t.lane.submit sub', booked := none }
      rw [hm, hm, h, he]

theorem bare_on (kind : EventKind) {l l' : Listener} (hl : l.bare = l'.bare) :
    (s.on kind l).2.bare = (t.on kind l').2.bare := by
  have hb (s : Session σ) (l : Listener) : (s.on kind l).2.bare =
      { s.bare with
        listeners := s.bare.listeners.register kind ⟨s.bare.registrations, l.bare⟩
        registrations := s.bare.registrations + 1 } := by
    rw [on, bare, Listeners.map_register]
    rfl
  rw [hb, hb, h, hl]

theorem bare_off (kind : EventKind) : (s.off kind).2.bare = (t.off kind).2.bare := by
  have hb (s : Session σ) : (s.off kind).2.bare =
      { s.bare with listeners := s.bare.listeners.unregister kind } := by
    rw [off, bare, Listeners.map_unregister]
    rfl
  rw [hb, hb, h]

theorem bare_publish (callbacks : List Callback) :
    (s.publish callbacks).bare = (t.publish callbacks).bare :=
  congrArg (fun b : Session σ => b.publish callbacks) h

theorem bare_submit (request : Request) (requestId : Option Int32) {k k' : Continuation}
    (hk : k.bare = k'.bare) :
    (s.submit request requestId k).2.bare = (t.submit request requestId k').2.bare :=
  bare_enqueue (book_of_bare h request requestId hk).2

theorem allows_of_bare {act act' : Act} (ha : act.bare = act'.bare) :
    s.allows act = t.allows act' := by
  have hn (act : Act) : act.bare.needsSession = act.needsSession := by cases act <;> rfl
  rw [allows, allows, held_of_bare h, ← hn act, ha, hn]

theorem panic?_of_bare {act act' : Act} (ha : act.bare = act'.bare) :
    s.panic? act = t.panic? act' := by
  have hp := allows_of_bare h ha
  rcases Act.eq_of_bare ha with
    ⟨request, requestId, acts, acts', rfl, rfl⟩ | ⟨event, label, rounds, rounds', rfl, rfl⟩ | rfl
  · rfl
  · rfl
  · cases act with
    | panic text inSession => rw [panic?, panic?, hp]
    | _ => rfl

theorem bare_perform (V : Vendor σ) {act act' : Act} (ha : act.bare = act'.bare) :
    (s.perform V act).2.bare = (t.perform V act').2.bare := by
  unfold perform
  rw [allows_of_bare h ha]
  cases t.allows act' with
  | false => exact h
  | true =>
    simp only [Bool.not_true, Bool.false_eq_true, if_false]
    rcases Act.eq_of_bare ha with
      ⟨request, requestId, acts, acts', rfl, rfl⟩ | ⟨event, label, rounds, rounds', rfl, rfl⟩ | rfl
    · exact bare_submit h request requestId rfl
    · simp only [onNamed]
      cases EventKind.named event with
      | error f => exact h
      | ok kind => exact bare_on h kind rfl
    · cases act with
      | call request requestId acts => exact bare_submit h request requestId rfl
      | on event label rounds =>
        simp only [onNamed]
        cases EventKind.named event with
        | error f => exact h
        | ok kind => exact bare_on h kind rfl
      | off kind => exact bare_off h kind
      | emit callbacks =>
        simp only [emit, worker_of_bare h]
        cases V.isListening t.lane.worker.vendor with
        | true => exact bare_publish h callbacks
        | false => exact h
      | _ => exact h

theorem phase_of_bare :
    s.lane.phase.map Continuation.bare = t.lane.phase.map Continuation.bare :=
  congrArg (·.lane.phase) h

theorem bare_wake :
    (s.mailbox.wake?.map fun m => { s with mailbox := m, pump := .draining 0 }).map bare =
      (t.mailbox.wake?.map fun m => { t with mailbox := m, pump := .draining 0 }).map bare := by
  rw [Option.map_map, Option.map_map, mailbox_of_bare h]
  have hb (m : Mailbox) := congrArg
    (fun b : Session σ => { b with mailbox := m, pump := .draining 0 }) h
  exact congrArg (t.mailbox.wake?.map ·) (funext hb)

theorem bare_withLane {l l' : Lane σ Continuation}
    (hl : l.map Continuation.bare = l'.map Continuation.bare) :
    bare { s with lane := l } = bare { t with lane := l' } := by
  change (fun b : Session σ => { b with lane := l.map Continuation.bare }) s.bare =
    (fun b : Session σ => { b with lane := l'.map Continuation.bare }) t.bare
  rw [h, hl]

theorem bare_beginTurn? : s.beginTurn?.map bare = t.beginTurn?.map bare := by
  have hl : s.lane.map Continuation.bare = t.lane.map Continuation.bare := congrArg (·.lane) h
  have hr := congrArg Lane.receive? hl
  rw [Lane.receive?_map, Lane.receive?_map] at hr
  rw [beginTurn?, beginTurn?]
  cases hs : s.lane.receive? with
  | some r =>
    cases ht : t.lane.receive? with
    | none =>
      rw [hs, ht] at hr
      cases hr
    | some r' =>
      rw [hs, ht] at hr
      obtain ⟨hc, hl⟩ := Prod.mk.inj (Option.some.inj hr)
      apply congrArg some
      apply bare_beginCompletion ?_ hc
      exact bare_withLane h hl
  | none =>
    cases ht : t.lane.receive? with
    | some r =>
      rw [hs, ht] at hr
      cases hr
    | none =>
      have hp := phase_of_bare h
      cases hps : s.lane.phase with
      | ended =>
        cases hpt : t.lane.phase with
        | ended => exact congrArg some (bare_detach h)
        | _ => rw [hps, hpt] at hp; cases hp
      | _ =>
        cases hpt : t.lane.phase with
        | ended => rw [hps, hpt] at hp; cases hp
        | _ => exact bare_wake h

theorem pump_of_bare (hs : s.pump.isRunning = false) : t.pump = s.pump := by
  have hp : s.pump.bare = t.pump.bare := congrArg (·.pump) h
  have hb {p : Pump} (hp : p.isRunning = false) : p.bare = p := by
    cases p with
    | completing sub outcome acts answers => cases hp
    | dispatching count n r acts answers => cases hp
    | _ => rfl
  have hr (p : Pump) : p.bare.isRunning = p.isRunning := by cases p <;> rfl
  have ht : t.pump.isRunning = false := by rw [← hr, ← hp, hr, hs]
  rw [← hb ht, ← hp, hb hs]

theorem bare_pumpStep?_outside (V : Vendor σ) (hs : s.pump.isRunning = false) :
    (s.pumpStep? V).map bare = (t.pumpStep? V).map bare := by
  have hp := pump_of_bare h hs
  cases hps : s.pump with
  | completing sub outcome acts answers =>
    rw [hps] at hs
    cases hs
  | dispatching count n r acts answers =>
    rw [hps] at hs
    cases hs
  | unstarted =>
    simp only [pumpStep?, hps, hp]
    exact congrArg (fun b : Session σ => some { b with pump := .waiting }) h
  | waiting =>
    simp only [pumpStep?, hps, hp]
    exact bare_beginTurn? h
  | draining count =>
    simp only [pumpStep?, hps, hp, mailbox_of_bare h]
    cases t.mailbox.take? with
    | none => exact congrArg some (bare_endDrain h count)
    | some r =>
      apply congrArg some
      apply bare_beginDispatch
      exact congrArg (fun b : Session σ => { b with mailbox := r.2, pump := .draining count }) h
  | detached => simp only [pumpStep?, hps, hp]
  | destroyed => simp only [pumpStep?, hps, hp]

theorem bare_workStep? (V : Vendor σ) : (s.workStep? V).map bare = (t.workStep? V).map bare := by
  have hl : s.lane.map Continuation.bare = t.lane.map Continuation.bare := congrArg (·.lane) h
  have ha := congrArg (·.advance? V) hl
  simp only [Lane.advance?_map] at ha
  rw [workStep?, workStep?, Option.map_map, Option.map_map]
  cases hs : s.lane.advance? V with
  | none =>
    cases ht : t.lane.advance? V with
    | none => rfl
    | some r =>
      rw [hs, ht] at ha
      cases ha
  | some r =>
    cases ht : t.lane.advance? V with
    | none =>
      rw [hs, ht] at ha
      cases ha
    | some r' =>
      rw [hs, ht] at ha
      obtain ⟨hr, hl⟩ := Prod.mk.inj (Option.some.inj ha)
      apply congrArg some
      change bare (publish { s with lane := r.2 } r.1) = bare (publish { t with lane := r'.2 } r'.1)
      rw [hr]
      apply bare_publish
      exact bare_withLane h hl

theorem bare_letGo : s.letGo.bare = t.letGo.bare := by
  have hb (s : Session σ) : s.letGo.bare =
      { s.bare with held := false, lane := s.bare.lane.stop } := by
    rw [letGo, bare, Lane.map_stop]
    rfl
  rw [hb, hb, h]

theorem bare_destroyPump : s.destroyPump.bare = t.destroyPump.bare := by
  have hb (s : Session σ) : bare { s with pump := .destroyed, lane := s.lane.stopReceiving } =
      { s.bare with pump := .destroyed, lane := s.bare.lane.stopReceiving } := by
    rw [bare, Lane.map_stopReceiving]
    rfl
  rw [destroyPump, destroyPump, isDetached_of_bare h]
  split
  · exact h
  · rw [hb, hb, h]

end

end Session

end MarketFeed
