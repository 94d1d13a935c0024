import MarketFeed.Session.Run
import MarketFeed.Proofs.Lane.Step

namespace MarketFeed.Session

variable {σ : Type}

def booking (s : Session σ) (sub : Submission Continuation) (log : List LogRecord) : Session σ :=
  { s with
    state := if sub.operation = .exit then .exiting else s.state
    inFlight := s.inFlight + 1
    booked := some sub
    log := log }

/-- What an act of host code can do to a session. -/
inductive HostChange (s : Session σ) : Session σ → Prop
  | same : HostChange s s
  | submit (sub : Submission Continuation) (log : List LogRecord) (held : s.held = true)
      (free : s.booked = none) (hc : sub.request.check = .ok ())
      (ha : s.state.accepts sub.operation = true) : HostChange s (s.booking sub log).enqueue
  | on (kind : EventKind) (l : Listener) (held : s.held = true) : HostChange s (s.on kind l).2
  | off (kind : EventKind) (held : s.held = true) : HostChange s (s.off kind).2
  | publish (callbacks : List Callback) : HostChange s (s.publish callbacks)

/-- The end of a turn of the pump: it waits for the next, or detaches. -/
inductive TurnEnd (s : Session σ) : Session σ → Prop
  | wait (h : ¬ (s.state = .closed ∧ s.inFlight = 0)) : TurnEnd s { s with pump := .waiting }
  | detach (log : List LogRecord) (h : s.state = .closed ∧ s.inFlight = 0) :
      TurnEnd s
        { s with
          mailbox := s.mailbox.close.2, listeners := .empty, pump := .detached, log := log }

inductive Change (V : Vendor σ) (s : Session σ) : Session σ → Prop
  | host (t : Session σ) (h : HostChange s t) : Change V s t
  | book (sub : Submission Continuation) (log : List LogRecord) (held : s.held = true)
      (free : s.booked = none) (hc : sub.request.check = .ok ())
      (ha : s.state.accepts sub.operation = true) : Change V s (s.booking sub log)
  | enqueue (sub : Submission Continuation) (hb : s.booked = some sub) :
      Change V s { s with lane := s.lane.submit sub, booked := none }
  | post (n : Notification) : Change V s { s with mailbox := s.mailbox.post n }
  | ring (m : Mailbox) (hm : s.mailbox.ring? = some m) : Change V s { s with mailbox := m }
  | work (raised : List Callback) (lane : Lane σ Continuation)
      (h : s.lane.advance? V = some (raised, lane)) :
      Change V s ({ s with lane := lane }.publish raised)
  | letGo (held : s.held = true) (free : s.booked = none) : Change V s s.letGo
  | destroyPump (hp : s.betweenTurns = true) (hd : s.isDetached = false) :
      Change V s { s with pump := .destroyed, lane := s.lane.stopReceiving }
  | destroyNothing (hd : s.isDetached = true) : Change V s s
  | start (log : List LogRecord) (hp : s.pump = .unstarted) :
      Change V s { s with pump := .waiting, log := log }
  | beginCompletion (c : Completion Continuation) (lane : Lane σ Continuation)
      (log : List LogRecord) (hp : s.pump = .waiting) (hc : s.lane.receive? = some (c, lane)) :
      Change V s
        { s with
          lane := lane
          state := s.stateAfter c.submission.operation c.result
          mailbox := if c.submission.operation = .exit then s.mailbox.close.2 else s.mailbox
          pump := .completing c.submission c.result.outcome c.submission.continuation.acts []
          log := log }
  | continueCompletion (sub : Submission Continuation) (outcome : Outcome) (act : Act)
      (acts : List Act) (answers answers' : List Answer) (u : Session σ)
      (hp : s.pump = .completing sub outcome (act :: acts) answers) (h : HostChange s u) :
      Change V s { u with pump := .completing sub outcome acts answers' }
  | endCompletion (sub : Submission Continuation) (outcome : Outcome) (acts : List Act)
      (answers answers' : List Answer) (log : List LogRecord) (t : Session σ)
      (hp : s.pump = .completing sub outcome acts answers)
      (he : TurnEnd
        { s with
          finished := s.finished ++ [⟨sub, outcome, answers'⟩]
          listeners := if sub.operation = .exit then .empty else s.listeners
          inFlight := s.inFlight - 1
          log := log } t) :
      Change V s t
  | quit (log : List LogRecord) (hp : s.pump = .waiting) (hc : s.lane.receive? = none)
      (he : s.lane.phase = .ended) :
      Change V s
        { s with
          mailbox := s.mailbox.close.2, listeners := .empty, pump := .detached, log := log }
  | wake (m : Mailbox) (hp : s.pump = .waiting) (hc : s.lane.receive? = none)
      (hm : s.mailbox.wake? = some m) : Change V s { s with mailbox := m, pump := .draining 0 }
  | discard (count : Nat) (n : Notification) (m : Mailbox) (log : List LogRecord)
      (hp : s.pump = .draining count) (hm : s.mailbox.take? = some (n, m))
      (hl : s.listeners.find? n.kind = none) :
      Change V s
        { s with
          mailbox := m
          state := s.state.afterEvent n.kind
          deliveries := s.deliveries ++ [⟨n, none, []⟩]
          pump := .draining (count + 1)
          log := log }
  | dispatch (count : Nat) (n : Notification) (m : Mailbox) (r : Registration)
      (log : List LogRecord) (hp : s.pump = .draining count) (hm : s.mailbox.take? = some (n, m))
      (hl : s.listeners.find? n.kind = some r) :
      Change V s
        { s with
          mailbox := m
          state := s.state.afterEvent n.kind
          pump := .dispatching count n r (r.listener.acts (s.invocations r.number)) []
          log := log }
  | continueDispatch (count : Nat) (n : Notification) (r : Registration) (act : Act)
      (acts : List Act) (answers answers' : List Answer) (u : Session σ)
      (hp : s.pump = .dispatching count n r (act :: acts) answers) (h : HostChange s u) :
      Change V s { u with pump := .dispatching count n r acts answers' }
  | endDispatch (count : Nat) (n : Notification) (r : Registration) (acts : List Act)
      (answers answers' : List Answer) (log : List LogRecord)
      (hp : s.pump = .dispatching count n r acts answers) :
      Change V s
        { s with
          deliveries := s.deliveries ++ [⟨n, some r, answers'⟩]
          pump := .draining (count + 1)
          log := log }
  | endDrain (count : Nat) (log : List LogRecord) (t : Session σ) (hp : s.pump = .draining count)
      (hm : s.mailbox.take? = none) (he : TurnEnd { s with log := log } t) : Change V s t

/-- A request is refused and leaves nothing behind, or is accepted. -/
theorem book_eq (s : Session σ) (request : Request) (requestId : Option Int32) (k : Continuation) :
    ((s.book request requestId k).1.isOk = false ∧ (s.book request requestId k).2 = s) ∨
    ((s.book request requestId k).1.isOk = true ∧ request.check = .ok () ∧
      s.state.accepts request.operation = true ∧
      ∃ log, (s.book request requestId k).2 = s.booking ⟨request, requestId, k⟩ log) := by
  rw [book]
  cases hc : request.check with
  | error f => exact .inl ⟨rfl, rfl⟩
  | ok u =>
    simp only []
    cases ha : s.state.accepts request.operation with
    | false => exact .inl ⟨rfl, rfl⟩
    | true =>
      refine .inr ⟨rfl, trivial, rfl, (if request.operation = .exit then s.log ++ [.exiting s.state]
        else s.log) ++ [.submitted request.operation requestId], ?_⟩
      by_cases ho : request.operation = .exit <;>
        simp only [booking, note, Submission.operation, ho, if_true, if_false]

theorem enqueue_of_free {s : Session σ} (free : s.booked = none) : s.enqueue = s := by
  rw [enqueue, free]

theorem HostChange.of_submit (s : Session σ) (request : Request) (requestId : Option Int32)
    (k : Continuation) (held : s.held = true) (free : s.booked = none) :
    HostChange s (s.submit request requestId k).2 := by
  change HostChange s (s.book request requestId k).2.enqueue
  rcases s.book_eq request requestId k with ⟨-, he⟩ | ⟨-, hc, ha, log, he⟩
  · rw [he, enqueue_of_free free]
    exact .same
  · rw [he]
    exact .submit ⟨request, requestId, k⟩ log held free hc ha

theorem held_of_allows {s : Session σ} {act : Act} (h : s.allows act = true)
    (ha : act.needsSession = true) : s.held = true := by
  simpa only [allows, ha, Bool.not_true, Bool.or_false] using h

theorem free_of_not_mustWait {s : Session σ} {act : Act} (h : s.mustWait act = false)
    (ha : act.submits = true) : s.booked = none := by
  cases hb : s.booked with
  | none => rfl
  | some sub =>
    rw [mustWait, hb, ha] at h
    cases h

theorem mustWait_of_free {s : Session σ} (free : s.booked = none) (act : Act) :
    s.mustWait act = false := by
  rw [mustWait, free]
  rfl

theorem HostChange.of_perform (V : Vendor σ) {s : Session σ} {act : Act}
    (hw : s.mustWait act = false) : HostChange s (s.perform V act).2 := by
  unfold Session.perform
  cases ha : s.allows act with
  | false => exact .same
  | true =>
    cases act with
    | call request requestId acts =>
      exact .of_submit s request requestId _ (held_of_allows ha rfl) (free_of_not_mustWait hw rfl)
    | on event label rounds =>
      have held := held_of_allows ha rfl
      simp only [Bool.not_true, Bool.false_eq_true, if_false, onNamed]
      cases EventKind.named event with
      | error f => exact .same
      | ok kind => exact .on kind _ held
    | off kind => exact .off kind (held_of_allows ha rfl)
    | emit callbacks =>
      simp only [Bool.not_true, Bool.false_eq_true, if_false, Session.emit]
      cases V.isListening s.lane.worker.vendor with
      | true => exact .publish callbacks
      | false => exact .same
    | _ => exact .same

theorem perform_of_panic (V : Vendor σ) {s : Session σ} {act : Act} {text : String}
    (h : s.panic? act = some text) : (s.perform V act).2 = s := by
  unfold Session.panic? at h
  unfold Session.perform
  cases act with
  | panic message inSession => split <;> rfl
  | _ => cases h

theorem TurnEnd.of_endTurn (s : Session σ) : TurnEnd s s.endTurn := by
  rw [Session.endTurn]
  split
  · exact .detach _ (by assumption)
  · exact .wait (by assumption)

theorem enter_eq (s : Session σ) (next : Lifecycle) :
    ∃ log, s.enter next = { s with state := next, log := log } := by
  rw [enter]
  split
  · subst next
    exact ⟨_, rfl⟩
  · exact ⟨_, rfl⟩

theorem closeOnExit_eq (s : Session σ) (op : Operation) :
    ∃ log, s.closeOnExit op =
      { s with mailbox := if op = .exit then s.mailbox.close.2 else s.mailbox, log := log } := by
  rw [closeOnExit]
  split
  · dsimp only
    split
    · exact ⟨_, rfl⟩
    · exact ⟨_, rfl⟩
  · exact ⟨_, rfl⟩

theorem noteNotification_eq (s : Session σ) (n : Notification) :
    ∃ log, s.noteNotification n = { s with log := log } := by
  rw [noteNotification]
  cases n.error with
  | none => cases s.settings.verbose <;> exact ⟨_, rfl⟩
  | some e =>
    dsimp only
    split <;> cases s.settings.verbose <;> exact ⟨_, rfl⟩

theorem beginCompletion_eq (s : Session σ) (c : Completion Continuation) :
    ∃ log, s.beginCompletion c =
      { s with
        state := s.stateAfter c.submission.operation c.result
        mailbox := if c.submission.operation = .exit then s.mailbox.close.2 else s.mailbox
        pump := .completing c.submission c.result.outcome c.submission.continuation.acts []
        log := log } := by
  obtain ⟨log, he⟩ := s.enter_eq (s.stateAfter c.submission.operation c.result)
  obtain ⟨log', hc⟩ := (s.enter (s.stateAfter c.submission.operation c.result)).closeOnExit_eq
    c.submission.operation
  apply Exists.intro log'
  simp only [beginCompletion]
  rw [hc, he]

theorem endCompletion_eq (s : Session σ) (sub : Submission Continuation) (outcome : Outcome)
    (answers : List Answer) (panic : Option String) :
    ∃ log, s.endCompletion sub outcome answers panic =
      endTurn
        { s with
          finished := s.finished ++ [⟨sub, outcome, answers⟩]
          listeners := if sub.operation = .exit then .empty else s.listeners
          inFlight := s.inFlight - 1
          log := log } := by
  unfold endCompletion
  cases panic <;> by_cases ho : sub.operation = .exit <;> simp only [ho, if_true, if_false] <;>
    exact ⟨_, rfl⟩

theorem endDispatch_eq (s : Session σ) (count : Nat) (n : Notification) (r : Registration)
    (answers : List Answer) (panic : Option String) :
    ∃ log, s.endDispatch count n r answers panic =
      { s with
        deliveries := s.deliveries ++ [⟨n, some r, answers⟩]
        pump := .draining (count + 1)
        log := log } := by
  unfold endDispatch
  cases panic <;> exact ⟨_, rfl⟩

theorem Change.of_endCompletion (V : Vendor σ) {s : Session σ} {sub : Submission Continuation}
    {outcome : Outcome} {acts : List Act} {answers : List Answer}
    (hp : s.pump = .completing sub outcome acts answers) (answers' : List Answer)
    (panic : Option String) : Change V s (s.endCompletion sub outcome answers' panic) := by
  obtain ⟨log, he⟩ := s.endCompletion_eq sub outcome answers' panic
  rw [he]
  exact .endCompletion sub outcome acts answers answers' log _ hp (.of_endTurn _)

theorem Change.of_endDispatch (V : Vendor σ) {s : Session σ} {count : Nat} {n : Notification}
    {r : Registration} {acts : List Act} {answers : List Answer}
    (hp : s.pump = .dispatching count n r acts answers) (answers' : List Answer)
    (panic : Option String) : Change V s (s.endDispatch count n r answers' panic) := by
  obtain ⟨log, he⟩ := s.endDispatch_eq count n r answers' panic
  rw [he]
  exact .endDispatch count n r acts answers answers' log hp

theorem beginDispatch_eq (s : Session σ) (count : Nat) (n : Notification) :
    (s.listeners.find? n.kind = none ∧ ∃ log, s.beginDispatch count n =
      { s with
        state := s.state.afterEvent n.kind
        deliveries := s.deliveries ++ [⟨n, none, []⟩]
        pump := .draining (count + 1)
        log := log }) ∨
    ∃ r log, s.listeners.find? n.kind = some r ∧ s.beginDispatch count n =
      { s with
        state := s.state.afterEvent n.kind
        pump := .dispatching count n r (r.listener.acts (s.invocations r.number)) []
        log := log } := by
  obtain ⟨log, he⟩ := s.enter_eq (s.state.afterEvent n.kind)
  obtain ⟨log', hn⟩ := (s.enter (s.state.afterEvent n.kind)).noteNotification_eq n
  rw [he] at hn
  rw [beginDispatch]
  simp only []
  rw [he, hn]
  cases hl : s.listeners.find? n.kind with
  | none => exact .inl ⟨rfl, _, rfl⟩
  | some r => exact .inr ⟨r, _, rfl, rfl⟩

theorem Change.of_beginDispatch (V : Vendor σ) {s : Session σ} {count : Nat} {n : Notification}
    {m : Mailbox} (hp : s.pump = .draining count) (hm : s.mailbox.take? = some (n, m)) :
    Change V s ({ s with mailbox := m }.beginDispatch count n) := by
  rcases beginDispatch_eq { s with mailbox := m } count n with ⟨hl, log, he⟩ | ⟨r, log, hl, he⟩
  · rw [he]
    exact .discard count n m log hp hm hl
  · rw [he]
    exact .dispatch count n m r log hp hm hl

theorem pumpStep?_completing (V : Vendor σ) {s : Session σ} {sub : Submission Continuation}
    {outcome : Outcome} {acts : List Act} {answers : List Answer}
    (hp : s.pump = .completing sub outcome acts answers)
    (hw : ∀ act ∈ acts.head?, s.mustWait act = false) :
    (∃ answers' panic, s.pumpStep? V = some (s.endCompletion sub outcome answers' panic)) ∨
    ∃ act later answers' u, acts = act :: later ∧ HostChange s u ∧
      s.pumpStep? V = some { u with pump := .completing sub outcome later answers' } := by
  cases acts with
  | nil => exact .inl ⟨answers, none, by simp only [pumpStep?, hp]⟩
  | cons act later =>
    have hw := hw act rfl
    cases hq : s.panic? act with
    | none =>
      refine .inr ⟨act, later, answers ++ [(s.perform V act).1], _, rfl, .of_perform V hw, ?_⟩
      simp only [pumpStep?, hp, hw, hq, Bool.false_eq_true, if_false]
    | some text =>
      refine .inl ⟨answers ++ [(s.perform V act).1], some text, ?_⟩
      simp only [pumpStep?, hp, hw, hq, perform_of_panic V hq, Bool.false_eq_true, if_false]

theorem pumpStep?_dispatching (V : Vendor σ) {s : Session σ} {count : Nat} {n : Notification}
    {r : Registration} {acts : List Act} {answers : List Answer}
    (hp : s.pump = .dispatching count n r acts answers)
    (hw : ∀ act ∈ acts.head?, s.mustWait act = false) :
    (∃ answers' panic, s.pumpStep? V = some (s.endDispatch count n r answers' panic)) ∨
    ∃ act later answers' u, acts = act :: later ∧ HostChange s u ∧
      s.pumpStep? V = some { u with pump := .dispatching count n r later answers' } := by
  cases acts with
  | nil => exact .inl ⟨answers, none, by simp only [pumpStep?, hp]⟩
  | cons act later =>
    have hw := hw act rfl
    cases hq : s.panic? act with
    | none =>
      refine .inr ⟨act, later, answers ++ [(s.perform V act).1], _, rfl, .of_perform V hw, ?_⟩
      simp only [pumpStep?, hp, hw, hq, Bool.false_eq_true, if_false]
    | some text =>
      refine .inl ⟨answers ++ [(s.perform V act).1], some text, ?_⟩
      simp only [pumpStep?, hp, hw, hq, perform_of_panic V hq, Bool.false_eq_true, if_false]

theorem pumpStep?_take (V : Vendor σ) {s : Session σ} {count : Nat} {n : Notification}
    {m : Mailbox} (hp : s.pump = .draining count) (hm : s.mailbox.take? = some (n, m)) :
    s.pumpStep? V = some ({ s with mailbox := m }.beginDispatch count n) := by
  simp only [pumpStep?, hp, hm]

/-- Whether the host code that is running ends with the next step: nothing of it is left, or the next
act is a panic. -/
def EndsWith (s : Session σ) (acts : List Act) : Prop :=
  acts = [] ∨ ∃ act later text, acts = act :: later ∧ s.panic? act = some text

/-- All that the pump does in a step. -/
inductive PumpStep (V : Vendor σ) (s : Session σ) : Session σ → Prop
  | start (hp : s.pump = .unstarted) : PumpStep V s { s.note .pumpStarted with pump := .waiting }
  | receive (c : Completion Continuation) (lane : Lane σ Continuation) (hp : s.pump = .waiting)
      (hc : s.lane.receive? = some (c, lane)) :
      PumpStep V s ({ s with lane := lane }.beginCompletion c)
  | quit (hp : s.pump = .waiting) (hc : s.lane.receive? = none) (he : s.lane.phase = .ended) :
      PumpStep V s s.detach
  | wake (m : Mailbox) (hp : s.pump = .waiting) (hc : s.lane.receive? = none)
      (hm : s.mailbox.wake? = some m) :
      PumpStep V s { s with mailbox := m, pump := .draining 0 }
  | endCompletion (sub : Submission Continuation) (outcome : Outcome) (acts : List Act)
      (answers answers' : List Answer) (panic : Option String)
      (hp : s.pump = .completing sub outcome acts answers) (hend : s.EndsWith acts) :
      PumpStep V s (s.endCompletion sub outcome answers' panic)
  | continueCompletion (sub : Submission Continuation) (outcome : Outcome) (act : Act)
      (acts : List Act) (answers answers' : List Answer)
      (hp : s.pump = .completing sub outcome (act :: acts) answers) (hw : s.mustWait act = false)
      (hq : s.panic? act = none) :
      PumpStep V s { (s.perform V act).2 with pump := .completing sub outcome acts answers' }
  | take (count : Nat) (n : Notification) (m : Mailbox) (hp : s.pump = .draining count)
      (hm : s.mailbox.take? = some (n, m)) :
      PumpStep V s ({ s with mailbox := m }.beginDispatch count n)
  | endDrain (count : Nat) (hp : s.pump = .draining count) (hm : s.mailbox.take? = none) :
      PumpStep V s (s.endDrain count)
  | endDispatch (count : Nat) (n : Notification) (r : Registration) (acts : List Act)
      (answers answers' : List Answer) (panic : Option String)
      (hp : s.pump = .dispatching count n r acts answers) (hend : s.EndsWith acts) :
      PumpStep V s (s.endDispatch count n r answers' panic)
  | continueDispatch (count : Nat) (n : Notification) (r : Registration) (act : Act)
      (acts : List Act) (answers answers' : List Answer)
      (hp : s.pump = .dispatching count n r (act :: acts) answers) (hw : s.mustWait act = false)
      (hq : s.panic? act = none) :
      PumpStep V s { (s.perform V act).2 with pump := .dispatching count n r acts answers' }

/-- Where the pump carries out an act, it stops at its panic or goes on after it. -/
theorem of_performed {s t go : Session σ} {stop : String → Session σ} {act : Act}
    {P : Session σ → Prop}
    (h : (if s.mustWait act then none
      else
        match s.panic? act with
        | some text => some (stop text)
        | none => some go) = some t)
    (hstop : ∀ text, s.panic? act = some text → P (stop text))
    (hgo : s.mustWait act = false → s.panic? act = none → P go) : P t := by
  cases hw : s.mustWait act with
  | true =>
    rw [hw, if_pos rfl] at h
    cases h
  | false =>
    rw [hw, if_neg Bool.false_ne_true] at h
    cases hq : s.panic? act with
    | none =>
      rw [hq] at h
      cases h
      exact hgo hw hq
    | some text =>
      rw [hq] at h
      cases h
      exact hstop text hq

theorem PumpStep.of_beginTurn? (V : Vendor σ) {s t : Session σ} (hp : s.pump = .waiting)
    (h : s.beginTurn? = some t) : PumpStep V s t := by
  rw [beginTurn?] at h
  cases hc : s.lane.receive? with
  | some r =>
    obtain ⟨c, lane⟩ := r
    simp only [hc, Option.some.injEq] at h
    rw [← h]
    exact .receive c lane hp hc
  | none =>
    have hw (h : (s.mailbox.wake?.map fun m => { s with mailbox := m, pump := .draining 0 }) =
        some t) : PumpStep V s t := by
      obtain ⟨m, hm, rfl⟩ := Option.map_eq_some_iff.1 h
      exact .wake m hp hc hm
    cases he : s.lane.phase with
    | ended =>
      simp only [hc, he, Option.some.injEq] at h
      rw [← h]
      exact .quit hp hc he
    | waiting =>
      simp only [hc, he] at h
      exact hw h
    | busy sub =>
      simp only [hc, he] at h
      exact hw h

theorem PumpStep.of_pumpStep? {V : Vendor σ} {s t : Session σ} (h : s.pumpStep? V = some t) :
    PumpStep V s t := by
  cases hp : s.pump with
  | unstarted =>
    simp only [pumpStep?, hp, Option.some.injEq] at h
    rw [← h]
    exact .start hp
  | waiting =>
    simp only [pumpStep?, hp] at h
    exact .of_beginTurn? V hp h
  | completing sub outcome acts answers =>
    cases acts with
    | nil =>
      simp only [pumpStep?, hp, Option.some.injEq] at h
      rw [← h]
      exact .endCompletion sub outcome [] answers answers none hp (.inl rfl)
    | cons act acts =>
      simp only [pumpStep?, hp] at h
      apply of_performed h
      · intro text hq
        rw [perform_of_panic V hq]
        exact .endCompletion sub outcome _ answers _ _ hp (.inr ⟨act, acts, text, rfl, hq⟩)
      · exact fun hw hq => .continueCompletion sub outcome act acts answers _ hp hw hq
  | draining count =>
    cases hm : s.mailbox.take? with
    | none =>
      simp only [pumpStep?, hp, hm, Option.some.injEq] at h
      rw [← h]
      exact .endDrain count hp hm
    | some r =>
      obtain ⟨n, m⟩ := r
      cases h.symm.trans (pumpStep?_take V hp hm)
      exact .take count n m hp hm
  | dispatching count n r acts answers =>
    cases acts with
    | nil =>
      simp only [pumpStep?, hp, Option.some.injEq] at h
      rw [← h]
      exact .endDispatch count n r [] answers answers none hp (.inl rfl)
    | cons act acts =>
      simp only [pumpStep?, hp] at h
      apply of_performed h
      · intro text hq
        rw [perform_of_panic V hq]
        exact .endDispatch count n r _ answers _ _ hp (.inr ⟨act, acts, text, rfl, hq⟩)
      · exact fun hw hq => .continueDispatch count n r act acts answers _ hp hw hq
  | detached => simp only [pumpStep?, hp, reduceCtorEq] at h
  | destroyed => simp only [pumpStep?, hp, reduceCtorEq] at h

theorem endDrain_eq (s : Session σ) (count : Nat) :
    ∃ log, s.endDrain count = { s with log := log }.endTurn := by
  rw [endDrain]
  split <;> exact ⟨_, rfl⟩

theorem Change.of_pumpStep? {V : Vendor σ} {s t : Session σ} (h : s.pumpStep? V = some t) :
    Change V s t := by
  cases PumpStep.of_pumpStep? h with
  | start hp => exact .start _ hp
  | receive c lane hp hc =>
    obtain ⟨log, he⟩ := beginCompletion_eq { s with lane := lane } c
    rw [he]
    exact .beginCompletion c lane log hp hc
  | quit hp hc he => exact .quit _ hp hc he
  | wake m hp hc hm => exact .wake m hp hc hm
  | endCompletion sub outcome acts answers answers' panic hp hend =>
    exact .of_endCompletion V hp answers' panic
  | continueCompletion sub outcome act acts answers answers' hp hw hq =>
    exact .continueCompletion sub outcome act acts answers answers' _ hp (.of_perform V hw)
  | take count n m hp hm => exact .of_beginDispatch V hp hm
  | endDrain count hp hm =>
    obtain ⟨log, he⟩ := s.endDrain_eq count
    rw [he]
    exact .endDrain count log _ hp hm (.of_endTurn _)
  | endDispatch count n r acts answers answers' panic hp hend =>
    exact .of_endDispatch V hp answers' panic
  | continueDispatch count n r act acts answers answers' hp hw hq =>
    exact .continueDispatch count n r act acts answers answers' _ hp (.of_perform V hw)

theorem Change.of_destroyPump (V : Vendor σ) {s : Session σ} (hp : s.betweenTurns = true) :
    Change V s s.destroyPump := by
  rw [Session.destroyPump]
  cases hd : s.isDetached with
  | true => exact .destroyNothing hd
  | false => exact .destroyPump hp hd

theorem Change.of_step? {V : Vendor σ} {s t : Session σ} {m : Move} (h : s.step? V m = some t) :
    Change V s t := by
  cases m with
  | book request requestId k =>
    obtain ⟨⟨held, free⟩, h⟩ := Option.ite_none_right_eq_some.1 h
    cases h
    rcases s.book_eq request requestId k with ⟨-, he⟩ | ⟨-, hc, ha, log, he⟩
    · rw [he]
      exact .host _ .same
    · rw [he]
      exact .book ⟨request, requestId, k⟩ log held free hc ha
  | enqueue =>
    obtain ⟨hb, h⟩ := Option.ite_none_right_eq_some.1 h
    obtain ⟨sub, hb⟩ := Option.isSome_iff_exists.1 hb
    cases h
    rw [Session.enqueue, hb]
    exact .enqueue sub hb
  | on kind l =>
    obtain ⟨held, h⟩ := Option.ite_none_right_eq_some.1 h
    cases h
    exact .host _ (.on kind l held)
  | off kind =>
    obtain ⟨held, h⟩ := Option.ite_none_right_eq_some.1 h
    cases h
    exact .host _ (.off kind held)
  | post callback =>
    cases h
    exact .post _
  | ring =>
    obtain ⟨m, hm, rfl⟩ := Option.map_eq_some_iff.1 h
    exact .ring m hm
  | work =>
    obtain ⟨⟨raised, lane⟩, ha, rfl⟩ := Option.map_eq_some_iff.1 h
    exact .work raised lane ha
  | pump => exact .of_pumpStep? h
  | letGo =>
    obtain ⟨⟨held, free⟩, h⟩ := Option.ite_none_right_eq_some.1 h
    cases h
    exact .letGo held free
  | destroyPump =>
    obtain ⟨hp, h⟩ := Option.ite_none_right_eq_some.1 h
    cases h
    exact .of_destroyPump V hp

theorem step_and_run {V : Vendor σ} {s u : Session σ} {m : Move} {ms : List Move}
    (h : s.run V (m :: ms) = some u) : ∃ t, s.step? V m = some t ∧ t.run V ms = some u := by
  rw [run, List.foldlM_cons] at h
  exact Option.bind_eq_some_iff.1 h

theorem step_induction {V : Vendor σ} {P : Session σ → Prop}
    (step : ∀ s m t, P s → s.step? V m = some t → P t) {s t : Session σ} {ms : List Move}
    (h : s.run V ms = some t) (hs : P s) : P t := by
  induction ms generalizing s with
  | nil => cases h; exact hs
  | cons m ms ih =>
    obtain ⟨u, hm, hr⟩ := step_and_run h
    exact ih hr (step _ _ _ hs hm)

theorem run_induction {V : Vendor σ} {P : Session σ → Prop}
    (change : ∀ s t, P s → Change V s t → P t) {s t : Session σ} {ms : List Move}
    (h : s.run V ms = some t) (hs : P s) : P t :=
  step_induction (fun s _ t hs hm => change s t hs (.of_step? hm)) h hs

/-- What host code leaves alone. -/
theorem HostChange.frame {s u : Session σ} (h : HostChange s u) :
    u.pump = s.pump ∧ u.finished = s.finished ∧ u.deliveries = s.deliveries ∧
      u.held = s.held ∧ u.booked = s.booked := by
  cases h with
  | submit sub log held free hc ha => exact ⟨rfl, rfl, rfl, rfl, free.symm⟩
  | _ => exact ⟨rfl, rfl, rfl, rfl, rfl⟩

theorem TurnEnd.frame {s t : Session σ} (h : TurnEnd s t) :
    t.finished = s.finished ∧ t.deliveries = s.deliveries ∧ t.held = s.held ∧
      t.booked = s.booked ∧ t.inFlight = s.inFlight ∧ t.state = s.state := by
  cases h <;> exact ⟨rfl, rfl, rfl, rfl, rfl, rfl⟩

theorem HostChange.lane {s u : Session σ} (h : HostChange s u) (V : Vendor σ) :
    u.lane = s.lane ∨ Lane.Step V s.lane u.lane := by
  cases h with
  | submit sub log held free hc ha => exact .inr (.submit sub)
  | _ => exact .inl rfl

theorem TurnEnd.lane {s t : Session σ} (h : TurnEnd s t) : t.lane = s.lane := by
  cases h <;> rfl

theorem Change.lane {V : Vendor σ} {s t : Session σ} (h : Change V s t) :
    t.lane = s.lane ∨ Lane.Step V s.lane t.lane := by
  cases h with
  | host t h => exact h.lane V
  | enqueue sub hb => exact .inr (.submit sub)
  | work raised lane h => exact .inr (.work lane (.of_advance? h))
  | letGo held free => exact .inr (.of_stop V s.lane)
  | destroyPump hp hd => exact .inr .stopReceiving
  | beginCompletion c lane log hp hc => exact .inr (.of_receive? hc)
  | continueCompletion sub outcome act acts answers answers' u hp h => exact h.lane V
  | endCompletion sub outcome acts answers answers' log t hp he => exact .inl he.lane
  | continueDispatch count n r act acts answers answers' u hp h => exact h.lane V
  | endDrain count log t hp hm he => exact .inl he.lane
  | _ => exact .inl rfl

/-- What every step of a lane keeps, a run of a session keeps for its lane. -/
theorem lane_induction {V : Vendor σ} {P : Lane σ Continuation → Prop}
    (step : ∀ l l', P l → Lane.Step V l l' → P l') {s t : Session σ} {ms : List Move}
    (h : s.run V ms = some t) (hs : P s.lane) : P t.lane := by
  apply run_induction (P := fun s => P s.lane) ?_ h hs
  intro s t hs hc
  rcases hc.lane with he | hl
  · rw [he]
    exact hs
  · exact step _ _ hs hl

theorem create_eq_made_iff {hasScheduler : Bool} {vendor : σ} {settings : Settings}
    {s : Session σ} :
    create hasScheduler vendor settings = .made s ↔
      hasScheduler = true ∧ settings.workerNameFault? = none ∧ s = fresh vendor settings := by
  rw [create]
  cases hasScheduler with
  | false => simp only [Bool.false_eq_true, if_false, reduceCtorEq, false_and]
  | true =>
    cases settings.workerNameFault? with
    | some fault => simp only [if_true, reduceCtorEq, false_and, and_false]
    | none => simp only [if_true, Start.made.injEq, true_and, eq_comm]

theorem create_default (vendor : σ) : create true vendor {} = .made (fresh vendor {}) :=
  create_eq_made_iff.2 ⟨rfl, by decide +kernel, rfl⟩

end MarketFeed.Session
