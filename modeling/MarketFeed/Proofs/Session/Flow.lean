import MarketFeed.Proofs.Lane.Handover
import MarketFeed.Proofs.Lane.Order
import MarketFeed.Proofs.Lifecycle
import MarketFeed.Proofs.Mailbox
import MarketFeed.Proofs.Session.Change

namespace MarketFeed

def Completion.handed {κ : Type} (c : Completion κ) : Submission κ × Outcome :=
  (c.submission, c.result.outcome)

namespace Pump

/-- Where the pump stands with the calls. -/
inductive Standing where
  | idle
  | inCall (sub : Submission Continuation) (outcome : Outcome)
  | detached
  | destroyed

def standing : Pump → Standing
  | completing sub outcome _ _ => .inCall sub outcome
  | detached => .detached
  | destroyed => .destroyed
  | _ => .idle

def Standing.openCall : Standing → List (Submission Continuation × Outcome)
  | inCall sub outcome => [(sub, outcome)]
  | _ => []

end Pump

namespace Session

variable {σ : Type}

def started (s : Session σ) : List (Submission Continuation × Outcome) :=
  s.finished.map (fun f => (f.submission, f.outcome)) ++ s.pump.standing.openCall

theorem isDetached_iff {s : Session σ} : s.isDetached = true ↔ s.pump.standing = .detached := by
  rw [isDetached]
  cases s.pump with
  | detached => exact ⟨fun _ => rfl, fun _ => rfl⟩
  | _ =>
    apply Iff.intro
    · intro h
      cases h
    · intro h
      cases h

theorem isDetached_eq_false {s : Session σ} (h : s.pump.standing ≠ .detached) :
    s.isDetached = false :=
  Bool.eq_false_iff.2 fun hd => h (isDetached_iff.1 hd)

theorem standing_of_betweenTurns {s : Session σ} (h : s.betweenTurns = true)
    (hd : s.isDetached = false) :
    s.pump.standing = .idle ∨ s.pump.standing = .destroyed := by
  cases hp : s.pump with
  | completing sub outcome acts answers =>
    simp only [betweenTurns, hp, Bool.false_eq_true] at h
  | detached => simp only [isDetached, hp, Bool.true_eq_false] at hd
  | destroyed => exact .inr rfl
  | _ => exact .inl rfl

/-- What two sessions have in common when no call moves but within the lane. -/
structure CallFrame (s t : Session σ) : Prop where
  standing : t.pump.standing = s.pump.standing
  finished : t.finished = s.finished
  held : t.held = s.held
  closed : t.mailbox.closed = s.mailbox.closed

theorem CallFrame.started {s t : Session σ} (h : CallFrame s t) : t.started = s.started := by
  rw [Session.started, Session.started, h.standing, h.finished]

theorem CallFrame.isDetached {s t : Session σ} (h : CallFrame s t) :
    t.isDetached = s.isDetached := by
  rw [Bool.eq_iff_iff, isDetached_iff, isDetached_iff, h.standing]

/-- What a change of a session means to its calls. -/
inductive CallChange (V : Vendor σ) (s t : Session σ) : Prop
  | quiet (f : CallFrame s t) (hl : t.lane = s.lane) (hb : t.booked = s.booked)
      (hi : t.inFlight = s.inFlight) (hs : Lifecycle.EndsLike t.state s.state)
  | accept (sub : Submission Continuation) (f : CallFrame s t) (held : s.held = true)
      (free : s.booked = none) (ha : s.state.accepts sub.operation = true)
      (hl : (t.lane = s.lane ∧ t.booked = some sub) ∨
        (t.lane = s.lane.submit sub ∧ t.booked = none))
      (hi : t.inFlight = s.inFlight + 1)
      (hs : t.state = if sub.operation = .exit then .exiting else s.state)
  | enqueue (sub : Submission Continuation) (f : CallFrame s t) (hb : s.booked = some sub)
      (hl : t.lane = s.lane.submit sub) (hb' : t.booked = none) (hi : t.inFlight = s.inFlight)
      (hs : t.state = s.state)
  | work (f : CallFrame s t) (hl : Lane.Advance V s.lane t.lane) (hb : t.booked = s.booked)
      (hi : t.inFlight = s.inFlight) (hs : t.state = s.state)
  | letGo (held : s.held = true) (free : s.booked = none) (ht : t = s.letGo)
  | destroyPump (hp : s.betweenTurns = true) (hd : s.isDetached = false)
      (ht : t = { s with pump := .destroyed, lane := s.lane.stopReceiving })
  | beginCompletion (c : Completion Continuation) (hp : s.pump = .waiting)
      (hc : s.lane.receive? = some (c, t.lane))
      (ht : t.pump.standing = .inCall c.submission c.result.outcome)
      (hf : t.finished = s.finished) (hh : t.held = s.held) (hb : t.booked = s.booked)
      (hi : t.inFlight = s.inFlight) (hs : t.state = s.stateAfter c.submission.operation c.result)
      (hm : t.mailbox =
        if c.submission.operation = .exit then s.mailbox.close.2 else s.mailbox)
  | endCompletion (sub : Submission Continuation) (outcome : Outcome) (answers : List Answer)
      (listeners : Listeners Registration) (log : List LogRecord)
      (hp : s.pump.standing = .inCall sub outcome)
      (he : TurnEnd
        { s with
          finished := s.finished ++ [⟨sub, outcome, answers⟩]
          listeners := listeners
          inFlight := s.inFlight - 1
          log := log } t)
  | endTurn (log : List LogRecord) (hp : s.pump.standing = .idle)
      (he : TurnEnd { s with log := log } t)
  | quit (listeners : Listeners Registration) (log : List LogRecord) (hp : s.pump = .waiting)
      (hc : s.lane.receive? = none) (he : s.lane.phase = .ended)
      (ht : t =
        { s with
          mailbox := s.mailbox.close.2, listeners := listeners, pump := .detached, log := log })

theorem HostChange.callChange {V : Vendor σ} {s u t : Session σ} (hu : HostChange s u)
    (hp : t.pump.standing = u.pump.standing)
    (ht : ∃ pump, t = { u with pump := pump }) : CallChange V s t := by
  obtain ⟨pump, rfl⟩ := ht
  rw [hu.frame.1] at hp
  cases hu with
  | submit sub log held free hc ha =>
    exact .accept sub ⟨hp, rfl, rfl, rfl⟩ held free ha (.inr ⟨rfl, rfl⟩) rfl rfl
  | publish callbacks =>
    exact .quiet ⟨hp, rfl, rfl, s.mailbox.closed_publishAll _⟩ rfl rfl rfl (.refl _)
  | _ => exact .quiet ⟨hp, rfl, rfl, rfl⟩ rfl rfl rfl (.refl _)

theorem Change.callChange {V : Vendor σ} {s t : Session σ} (hc : Change V s t) :
    CallChange V s t := by
  cases hc with
  | host t hu => exact hu.callChange rfl ⟨t.pump, rfl⟩
  | book sub log held free hc ha =>
    exact .accept sub ⟨rfl, rfl, rfl, rfl⟩ held free ha (.inl ⟨rfl, rfl⟩) rfl rfl
  | enqueue sub hb => exact .enqueue sub ⟨rfl, rfl, rfl, rfl⟩ hb rfl rfl rfl rfl
  | post n =>
    exact .quiet ⟨rfl, rfl, rfl, s.mailbox.closed_post n⟩ rfl rfl rfl (.refl _)
  | ring m hm => exact .quiet ⟨rfl, rfl, rfl, Mailbox.closed_ring? hm⟩ rfl rfl rfl (.refl _)
  | work raised lane ha =>
    exact .work ⟨rfl, rfl, rfl, s.mailbox.closed_publishAll _⟩ (.of_advance? ha) rfl rfl rfl
  | letGo held free => exact .letGo held free rfl
  | destroyPump hp hd => exact .destroyPump hp hd rfl
  | destroyNothing hd => exact .quiet ⟨rfl, rfl, rfl, rfl⟩ rfl rfl rfl (.refl _)
  | start log hp => exact .quiet ⟨by rw [hp]; rfl, rfl, rfl, rfl⟩ rfl rfl rfl (.refl _)
  | beginCompletion c lane log hp hc =>
    exact .beginCompletion c hp hc rfl rfl rfl rfl rfl rfl rfl
  | continueCompletion sub outcome act acts answers answers' u hp hu =>
    exact hu.callChange (by rw [hu.frame.1, hp]; rfl) ⟨_, rfl⟩
  | endCompletion sub outcome acts answers answers' log t hp he =>
    exact .endCompletion sub outcome answers' _ log (by rw [hp]; rfl) he
  | quit log hp hc he => exact .quit _ log hp hc he rfl
  | wake m hp hc hm =>
    exact .quiet ⟨by rw [hp]; rfl, rfl, rfl, Mailbox.closed_wake? hm⟩ rfl rfl rfl (.refl _)
  | discard count n m log hp hm hl =>
    exact .quiet ⟨by rw [hp]; rfl, rfl, rfl, Mailbox.closed_take? hm⟩ rfl rfl rfl
      (s.state.endsLike_afterEvent n.kind)
  | dispatch count n m r log hp hm hl =>
    exact .quiet ⟨by rw [hp]; rfl, rfl, rfl, Mailbox.closed_take? hm⟩ rfl rfl rfl
      (s.state.endsLike_afterEvent n.kind)
  | continueDispatch count n r act acts answers answers' u hp hu =>
    exact hu.callChange (by rw [hu.frame.1, hp]; rfl) ⟨_, rfl⟩
  | endDispatch count n r acts answers answers' log hp =>
    exact .quiet ⟨by rw [hp]; rfl, rfl, rfl, rfl⟩ rfl rfl rfl (.refl _)
  | endDrain count log t hp hm he => exact .endTurn log (by rw [hp]; rfl) he

/-- Where requests are, and how many. -/
structure Flow (s : Session σ) : Prop where
  handed : s.lane.executed.map Completion.handed =
    s.started ++ s.lane.unreceived.map Completion.handed
  inFlight : s.inFlight + s.finished.length = s.accepted.length
  issued : s.lane.issued = s.lane.submitted.map .run ++ if s.held then [] else [.stop]
  stopped : s.lane.stopped = !s.held
  booked : s.held = false → s.booked = none
  receiving : s.lane.receiving = false → s.pump.standing = .destroyed

theorem flow_fresh (vendor : σ) (settings : Settings) : (fresh vendor settings).Flow where
  handed := rfl
  inFlight := rfl
  issued := rfl
  stopped := rfl
  booked _ := rfl
  receiving h := by cases h

theorem accepted_of_issued {s t : Session σ} (h : t.lane.issued = s.lane.issued)
    (hb : t.booked = s.booked) : t.accepted = s.accepted := by
  simp only [accepted, Lane.submitted, h, hb]

theorem accepted_of_accept {s t : Session σ} {sub : Submission Continuation}
    (free : s.booked = none)
    (hl : (t.lane = s.lane ∧ t.booked = some sub) ∨
      (t.lane = s.lane.submit sub ∧ t.booked = none)) : t.accepted = s.accepted ++ [sub] := by
  rcases hl with ⟨hl, hb⟩ | ⟨hl, hb⟩
  · rw [accepted, accepted, hl, hb, free, Option.toList_none, List.append_nil]
    rfl
  · rw [accepted, accepted, hl, hb, free, Option.toList_none, List.append_nil, List.append_nil,
      Lane.submitted_submit]

theorem accepted_of_enqueue {s t : Session σ} {sub : Submission Continuation}
    (hb : s.booked = some sub) (hl : t.lane = s.lane.submit sub) (hb' : t.booked = none) :
    t.accepted = s.accepted := by
  rw [accepted, accepted, hl, hb, hb', Option.toList_none, List.append_nil,
    Lane.submitted_submit]
  rfl

theorem started_of_idle {s : Session σ} (h : s.pump.standing = .idle) :
    s.started = s.finished.map fun f => (f.submission, f.outcome) := by
  rw [started, h]
  exact List.append_nil _

theorem started_of_inCall {s : Session σ} {sub : Submission Continuation} {outcome : Outcome}
    (h : s.pump.standing = .inCall sub outcome) :
    s.started = s.finished.map (fun f => (f.submission, f.outcome)) ++ [(sub, outcome)] := by
  rw [started, h]
  rfl

theorem TurnEnd.started {s t : Session σ} (h : TurnEnd s t) :
    t.started = s.finished.map fun f => (f.submission, f.outcome) := by
  cases h <;> exact List.append_nil _

theorem Flow.of_eq {s t : Session σ} (h : s.Flow) (hl : t.lane = s.lane)
    (hs : t.started = s.started) (hi : t.inFlight + t.finished.length = t.accepted.length)
    (hh : t.held = s.held) (hb : t.held = false → t.booked = none)
    (hp : s.pump.standing = .destroyed → t.pump.standing = .destroyed) : t.Flow where
  handed := by rw [hl, hs]; exact h.handed
  inFlight := hi
  issued := by rw [hl, hh]; exact h.issued
  stopped := by rw [hl, hh]; exact h.stopped
  booked := hb
  receiving hr := hp (h.receiving (hl ▸ hr))

theorem Flow.of_submit {s t : Session σ} (h : s.Flow) {sub : Submission Continuation}
    (f : CallFrame s t) (held : s.held = true) (hl : t.lane = s.lane.submit sub)
    (hi : t.inFlight + t.finished.length = t.accepted.length) : t.Flow := by
  apply Flow.mk
  case handed =>
    rw [hl, f.started]
    exact h.handed
  case inFlight => exact hi
  case issued =>
    have hiss := h.issued
    simp only [held, if_true, List.append_nil] at hiss
    rw [hl, Lane.submitted_submit, f.held, held, if_pos rfl, List.append_nil, List.map_append]
    exact congrArg (· ++ [.run sub]) hiss
  case stopped =>
    rw [hl, f.held]
    exact h.stopped
  case booked =>
    intro hh
    rw [f.held, held] at hh
    cases hh
  case receiving =>
    rw [hl, f.standing]
    exact h.receiving

theorem Flow.accept {s t : Session σ} (h : s.Flow) {sub : Submission Continuation}
    (f : CallFrame s t) (held : s.held = true) (free : s.booked = none)
    (hl : (t.lane = s.lane ∧ t.booked = some sub) ∨
      (t.lane = s.lane.submit sub ∧ t.booked = none))
    (hi : t.inFlight = s.inFlight + 1) : t.Flow := by
  have hcount : t.inFlight + t.finished.length = t.accepted.length := by
    rw [hi, f.finished, accepted_of_accept free hl, List.length_append, ← h.inFlight]
    exact Nat.add_right_comm _ _ _
  rcases hl with ⟨hl, -⟩ | ⟨hl, -⟩
  · apply h.of_eq hl f.started hcount f.held ?_ fun hd => f.standing.trans hd
    intro hh
    rw [f.held, held] at hh
    cases hh
  · exact h.of_submit f held hl hcount

theorem Flow.enqueue {s t : Session σ} (h : s.Flow) {sub : Submission Continuation}
    (f : CallFrame s t) (hb : s.booked = some sub) (hl : t.lane = s.lane.submit sub)
    (hb' : t.booked = none) (hi : t.inFlight = s.inFlight) : t.Flow := by
  have held : s.held = true := by
    cases hh : s.held with
    | true => rfl
    | false =>
      rw [h.booked hh] at hb
      cases hb
  apply h.of_submit f held hl
  rw [hi, f.finished, accepted_of_enqueue hb hl hb']
  exact h.inFlight

theorem Flow.work {V : Vendor σ} {s t : Session σ} (h : s.Flow) (heard : s.lane.Heard)
    (f : CallFrame s t) (ha : Lane.Advance V s.lane t.lane) (hb : t.booked = s.booked)
    (hi : t.inFlight = s.inFlight) : t.Flow := by
  obtain ⟨cs, hex, hun⟩ := heard.unreceived_advance ha
  obtain ⟨hiss, hst, hrec⟩ := ha.frame
  have hsub : t.lane.submitted = s.lane.submitted := by rw [Lane.submitted, Lane.submitted, hiss]
  apply Flow.mk
  case handed =>
    rw [hex, hun, f.started, List.map_append, List.map_append, h.handed, List.append_assoc]
  case inFlight =>
    rw [hi, f.finished, accepted_of_issued hiss hb]
    exact h.inFlight
  case issued =>
    rw [hiss, hsub, f.held]
    exact h.issued
  case stopped =>
    rw [hst, f.held]
    exact h.stopped
  case booked =>
    rw [f.held, hb]
    exact h.booked
  case receiving =>
    rw [hrec, f.standing]
    exact h.receiving

theorem Flow.letGo {s : Session σ} (h : s.Flow) (held : s.held = true) (free : s.booked = none) :
    s.letGo.Flow := by
  have hst : s.lane.stopped = false := by
    rw [h.stopped, held]
    rfl
  have hl : s.letGo.lane = { s.lane with stopped := true }.issue .stop := by
    simp only [Session.letGo, Lane.stop, hst, Bool.false_eq_true, if_false]
  have hsub : s.letGo.lane.submitted = s.lane.submitted := s.lane.submitted_stop
  have hi := h.issued
  simp only [held, if_true, List.append_nil] at hi
  apply Flow.mk
  case handed =>
    rw [hl]
    exact h.handed
  case inFlight =>
    rw [accepted, hsub]
    exact h.inFlight
  case issued =>
    rw [hsub, hl]
    exact congrArg (· ++ [.stop]) hi
  case stopped =>
    rw [hl]
    rfl
  case booked => exact fun _ => free
  case receiving =>
    rw [hl]
    exact h.receiving

theorem Flow.destroyPump {s : Session σ} (h : s.Flow)
    (hp : s.pump.standing = .idle ∨ s.pump.standing = .destroyed) :
    Flow { s with pump := .destroyed, lane := s.lane.stopReceiving } := by
  refine ⟨?_, h.inFlight, h.issued, h.stopped, h.booked, fun _ => rfl⟩
  have hu : s.lane.stopReceiving.unreceived = s.lane.unreceived := List.append_nil _
  have ho : s.pump.standing.openCall = [] := by
    rcases hp with hp | hp <;> rw [hp] <;> rfl
  have hs := h.handed
  rw [started, ho] at hs
  rw [hu]
  exact hs

theorem Flow.receive {s t : Session σ} {c : Completion Continuation} (h : s.Flow)
    (heard : s.lane.Heard) (hp : s.pump = .waiting) (hc : s.lane.receive? = some (c, t.lane))
    (ht : t.pump.standing = .inCall c.submission c.result.outcome)
    (hf : t.finished = s.finished) (hh : t.held = s.held) (hb : t.booked = s.booked)
    (hi : t.inFlight = s.inFlight) : t.Flow := by
  have hun := heard.unreceived_receive hc
  obtain ⟨rest, -, hl⟩ := Lane.receive?_eq_some_iff.1 hc
  have hiss : t.lane.issued = s.lane.issued := by rw [hl]
  have hsub : t.lane.submitted = s.lane.submitted := by rw [Lane.submitted, Lane.submitted, hiss]
  apply Flow.mk
  case handed =>
    have hex : t.lane.executed = s.lane.executed := by rw [hl]
    have hx := h.handed
    rw [started_of_idle (by rw [hp]; rfl), hun] at hx
    rw [hex, hx, started_of_inCall ht, hf, List.append_assoc]
    rfl
  case inFlight =>
    rw [hi, hf, accepted_of_issued hiss hb]
    exact h.inFlight
  case issued =>
    rw [hiss, hsub, hh]
    exact h.issued
  case stopped =>
    rw [hh, ← h.stopped, hl]
  case booked =>
    rw [hh, hb]
    exact h.booked
  case receiving =>
    intro hr
    rw [hl] at hr
    have hd := h.receiving hr
    rw [hp] at hd
    cases hd

theorem started_submissions {s : Session σ} (h : s.Flow) :
    s.started.map (·.1) ++ s.lane.unreceived.map (·.submission) = s.lane.served := by
  have hm := congrArg (List.map (·.1)) h.handed
  rw [List.map_append, List.map_map, List.map_map] at hm
  exact hm.symm

/-- The accepted requests, from the oldest to the newest, by where they are. -/
theorem Flow.accepted_eq {V : Vendor σ} {vendor : σ} {s : Session σ} (h : s.Flow)
    (ho : s.lane.Orderly V vendor) :
    s.accepted = s.started.map (·.1) ++ s.lane.unreceived.map (·.submission) ++
      s.lane.executing ++ s.lane.queued ++ s.booked.toList := by
  rw [started_submissions h, accepted, ho.submitted_eq]

theorem Flow.inFlight_pos {V : Vendor σ} {vendor : σ} {s : Session σ} (h : s.Flow)
    (ho : s.lane.Orderly V vendor) {sub : Submission Continuation} {outcome : Outcome}
    (hp : s.pump.standing = .inCall sub outcome) : 0 < s.inFlight := by
  have hl := congrArg List.length (h.accepted_eq ho)
  have hi := h.inFlight
  simp only [started_of_inCall hp, List.map_append, List.length_append, List.length_map,
    List.length_cons, List.length_nil] at hl
  omega

theorem Flow.endCompletion {V : Vendor σ} {vendor : σ} {s t : Session σ} (h : s.Flow)
    (ho : s.lane.Orderly V vendor) {sub : Submission Continuation} {outcome : Outcome}
    {answers : List Answer} {listeners : Listeners Registration} {log : List LogRecord}
    (hp : s.pump.standing = .inCall sub outcome)
    (he : TurnEnd
      { s with
        finished := s.finished ++ [⟨sub, outcome, answers⟩]
        listeners := listeners
        inFlight := s.inFlight - 1
        log := log } t) : t.Flow := by
  obtain ⟨hfin, -, hheld, hbook, hin, -⟩ := he.frame
  have hpos := h.inFlight_pos ho hp
  have hacc : t.accepted = s.accepted := accepted_of_issued (congrArg Lane.issued he.lane) hbook
  apply h.of_eq he.lane ?_ ?_ hheld ?_ fun hd => by rw [hp] at hd; cases hd
  · rw [he.started, started_of_inCall hp, List.map_append]
    rfl
  · rw [hin, hfin, hacc, ← h.inFlight, List.length_append, List.length_singleton]
    change s.inFlight - 1 + (s.finished.length + 1) = s.inFlight + s.finished.length
    omega
  · rw [hheld, hbook]
    exact h.booked

theorem Flow.change {V : Vendor σ} {vendor : σ} {s t : Session σ} (h : s.Flow)
    (ho : s.lane.Orderly V vendor) (heard : s.lane.Heard) (hc : CallChange V s t) : t.Flow := by
  cases hc with
  | quiet f hl hb hi hs =>
    apply h.of_eq hl f.started ?_ f.held ?_ fun hd => f.standing.trans hd
    · rw [hi, f.finished, accepted_of_issued (congrArg Lane.issued hl) hb]
      exact h.inFlight
    · rw [f.held, hb]
      exact h.booked
  | accept sub f held free ha hl hi hs => exact h.accept f held free hl hi
  | enqueue sub f hb hl hb' hi hs => exact h.enqueue f hb hl hb' hi
  | work f ha hb hi hs => exact h.work heard f ha hb hi
  | letGo held free ht => exact ht ▸ h.letGo held free
  | destroyPump hp hd ht => exact ht ▸ h.destroyPump (standing_of_betweenTurns hp hd)
  | beginCompletion c hp hc ht hf hh hb hi hs hm => exact h.receive heard hp hc ht hf hh hb hi
  | endCompletion sub outcome answers listeners log hp he => exact h.endCompletion ho hp he
  | endTurn log hp he =>
    obtain ⟨hfin, -, hheld, hbook, hin, -⟩ := he.frame
    apply h.of_eq he.lane ?_ ?_ hheld ?_ fun hd => by rw [hp] at hd; cases hd
    · rw [he.started, started_of_idle hp]
    · rw [hin, hfin, accepted_of_issued (congrArg Lane.issued he.lane) hbook]
      exact h.inFlight
    · rw [hheld, hbook]
      exact h.booked
  | quit listeners log hp hc he ht =>
    subst ht
    apply h.of_eq
    case hl => rfl
    case hs =>
      rw [started_of_idle (s := s) (by rw [hp]; rfl)]
      exact List.append_nil _
    case hi => exact h.inFlight
    case hh => rfl
    case hb => exact h.booked
    case hp =>
      intro hd
      rw [hp] at hd
      cases hd

end Session

end MarketFeed
