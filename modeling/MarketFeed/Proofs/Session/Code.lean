import MarketFeed.Proofs.Session.Course
import MarketFeed.Proofs.Session.Offer
import MarketFeed.Proofs.Session.Completion

namespace MarketFeed

def Act.registration? : Act → Option (EventKind × Listener)
  | on event label rounds => (EventKind.ofName? event).map fun kind => (kind, ⟨label, rounds⟩)
  | _ => none

/-- A table of listeners with nothing in it but what is in another one. -/
def Listeners.Within {α : Type} (t u : Listeners α) : Prop :=
  ∀ kind a, t.find? kind = some a → u.find? kind = some a

theorem Listeners.Within.refl {α : Type} (t : Listeners α) : t.Within t := fun _ _ h => h

theorem Listeners.Within.of_eq {α : Type} {t u : Listeners α} (h : t = u) : t.Within u := by
  rw [h]
  exact .refl u

theorem Listeners.empty_within {α : Type} (t : Listeners α) : (empty : Listeners α).Within t := by
  intro kind a h
  rw [find?_empty] at h
  cases h

theorem Listeners.unregister_within {α : Type} (t : Listeners α) (kind : EventKind) :
    (t.unregister kind).Within t := by
  intro kind' a h
  rw [find?_unregister] at h
  split at h
  · cases h
  · exact h

theorem Pump.act?_eq (p : Pump) : p.act? = p.acts.head? := by
  cases p with
  | completing sub outcome acts answers => cases acts <;> rfl
  | dispatching count n r acts answers => cases acts <;> rfl
  | _ => rfl

theorem Pump.acts_of_not_running {p : Pump} (h : p.isRunning = false) : p.acts = [] := by
  cases p with
  | completing sub outcome acts answers => cases h
  | dispatching count n r acts answers => cases h
  | _ => rfl

namespace Session

variable {σ : Type}

def registrationBy? (s : Session σ) (act : Act) : Option (EventKind × Listener) :=
  if s.allows act then act.registration? else none

def registration? (s : Session σ) : Move → Option (EventKind × Listener)
  | .on kind l => some (kind, l)
  | .pump => s.pump.act?.bind s.registrationBy?
  | _ => none

def registering (s : Session σ) : Option (EventKind × Listener) → Listeners Registration
  | some (kind, l) => s.listeners.register kind ⟨s.registrations, l⟩
  | none => s.listeners

/-- What is left to do in host code after its next act: nothing, if that is a panic. -/
def remaining (s : Session σ) : List Act :=
  match s.pump.acts with
  | [] => []
  | act :: acts => if (s.panic? act).isSome then [] else acts

/-- What host code a pump begins that was not running any. -/
inductive Begins (s t : Session σ) : Prop
  | nothing (hr : t.pump.isRunning = false) (hs : t.started = s.started)
      (hd : t.drained = s.drained ∨ ∃ n, t.drained = s.drained ++ [(n, none)])
  | continuation (sub : Submission Continuation) (outcome : Outcome)
      (hp : t.pump = .completing sub outcome sub.continuation.acts [])
      (hs : t.started = s.started ++ [(sub, outcome)]) (hd : t.drained = s.drained)
  | listener (count : Nat) (n : Notification) (r : Registration)
      (hp : t.pump = .dispatching count n r (r.listener.acts (s.invocations r.number)) [])
      (hl : s.listeners.find? n.kind = some r) (hs : t.started = s.started)
      (hd : t.drained = s.drained ++ [(n, some r)])

theorem TurnEnd.isRunning {s t : Session σ} (h : TurnEnd s t) : t.pump.isRunning = false := by
  cases h <;> rfl

theorem begins_of_endTurn {s t : Session σ} (hs : s.pump.standing.openCall = [])
    (hd : s.pump.openDelivery = []) (hf : t.finished = s.finished)
    (hf' : t.deliveries = s.deliveries) : Begins s t.endTurn := by
  have he := TurnEnd.of_endTurn t
  apply Begins.nothing he.isRunning
  · rw [he.started, started, hs, List.append_nil, hf]
  · exact .inl (drained_of_openDelivery hd he.openDelivery (he.frame.2.1.trans hf'))

theorem begins_of_beginDispatch {s : Session σ} {count : Nat} (hp : s.pump = .draining count)
    (n : Notification) (m : Mailbox) :
    Begins s ({ s with mailbox := m }.beginDispatch count n) := by
  rcases beginDispatch_eq { s with mailbox := m } count n with ⟨hl, log, he⟩ | ⟨r, log, hl, he⟩
  · rw [he]
    apply Begins.nothing rfl
    · rw [started, started, hp]
      rfl
    · refine .inr ⟨n, ?_⟩
      simp only [drained, hp, Pump.openDelivery, List.map_append, List.map_cons, List.map_nil,
        List.append_nil]
  · have hl' : s.listeners.find? n.kind = some r := hl
    rw [he]
    apply Begins.listener count n r rfl hl'
    · rw [started, started, hp]
      rfl
    · simp only [drained, hp, Pump.openDelivery, List.append_nil]

theorem Begins.of_eq {s t : Session σ} (hr : t.pump.isRunning = false)
    (hs : s.pump.standing.openCall = []) (ht : t.pump.standing.openCall = [])
    (hd : s.pump.openDelivery = []) (hd' : t.pump.openDelivery = [])
    (hf : t.finished = s.finished) (hf' : t.deliveries = s.deliveries) : Begins s t := by
  apply Begins.nothing hr
  · rw [started, started, hs, ht, hf]
  · exact .inl (drained_of_openDelivery hd hd' hf')

theorem begins_of_pumpStep? {V : Vendor σ} {s t : Session σ} (hs : s.pump.isRunning = false)
    (h : s.pumpStep? V = some t) : Begins s t := by
  cases PumpStep.of_pumpStep? h with
  | start hp => exact .of_eq rfl (by rw [hp]; rfl) rfl (by rw [hp]; rfl) rfl rfl rfl
  | receive c lane hp hc =>
    obtain ⟨log, he⟩ := beginCompletion_eq { s with lane := lane } c
    rw [he]
    apply Begins.continuation c.submission c.result.outcome rfl
    · rw [started, started, hp]
      exact congrArg (· ++ [(c.submission, c.result.outcome)]) (List.append_nil _).symm
    · exact drained_of_openDelivery (by rw [hp]; rfl) rfl rfl
  | quit hp hc he => exact .of_eq rfl (by rw [hp]; rfl) rfl (by rw [hp]; rfl) rfl rfl rfl
  | wake m hp hc hm => exact .of_eq rfl (by rw [hp]; rfl) rfl (by rw [hp]; rfl) rfl rfl rfl
  | take count n m hp hm => exact begins_of_beginDispatch hp n m
  | endDrain count hp hm =>
    obtain ⟨log, he⟩ := s.endDrain_eq count
    rw [he]
    exact begins_of_endTurn (by rw [hp]; rfl) (by rw [hp]; rfl) rfl rfl
  | endCompletion sub outcome acts answers answers' panic hp
  | continueCompletion sub outcome act acts answers answers' hp
  | endDispatch count n r acts answers answers' panic hp
  | continueDispatch count n r act acts answers answers' hp =>
    rw [hp] at hs
    cases hs

/-- What the books have of host code is settled when it begins. -/
structure Goes (s t : Session σ) (acts : List Act) : Prop where
  acts : t.pump.acts = acts
  started : t.started = s.started
  drained : t.drained = s.drained

theorem goes_of_endCompletion {s : Session σ} {sub : Submission Continuation} {outcome : Outcome}
    {acts answers} (hp : s.pump = .completing sub outcome acts answers) (answers' : List Answer)
    (panic : Option String) : Goes s (s.endCompletion sub outcome answers' panic) [] := by
  obtain ⟨log, he⟩ := s.endCompletion_eq sub outcome answers' panic
  rw [he]
  have ht := TurnEnd.of_endTurn
    { s with
      finished := s.finished ++ [⟨sub, outcome, answers'⟩]
      listeners := if sub.operation = .exit then .empty else s.listeners
      inFlight := s.inFlight - 1
      log := log }
  apply Goes.mk
  case acts => exact Pump.acts_of_not_running ht.isRunning
  case started =>
    rw [ht.started, List.map_append, Session.started, hp]
    rfl
  case drained => exact drained_of_openDelivery (by rw [hp]; rfl) ht.openDelivery ht.frame.2.1

theorem goes_of_endDispatch {s : Session σ} {count : Nat} {n : Notification} {r : Registration}
    {acts answers} (hp : s.pump = .dispatching count n r acts answers) (answers' : List Answer)
    (panic : Option String) : Goes s (s.endDispatch count n r answers' panic) [] := by
  obtain ⟨log, he⟩ := s.endDispatch_eq count n r answers' panic
  rw [he]
  apply Goes.mk rfl
  case started =>
    rw [Session.started, Session.started, hp]
    rfl
  case drained =>
    rw [Session.drained, Session.drained, hp, List.map_append]
    exact List.append_nil _

theorem Goes.of_eq {s t : Session σ} (hp : t.pump = s.pump) (hf : t.finished = s.finished)
    (hd : t.deliveries = s.deliveries) : Goes s t s.pump.acts := by
  apply Goes.mk
  case acts => rw [hp]
  case started => rw [Session.started, Session.started, hp, hf]
  case drained => rw [Session.drained, Session.drained, hp, hd]

theorem goes_of_step? {V : Vendor σ} {s t : Session σ} {m : Move} (hm : m ≠ .pump)
    (h : s.step? V m = some t) : Goes s t s.pump.acts := by
  cases m with
  | book request requestId k =>
    obtain ⟨-, h⟩ := Option.ite_none_right_eq_some.1 h
    cases h
    rcases s.book_eq request requestId k with ⟨-, he⟩ | ⟨-, -, -, log, he⟩ <;> rw [he] <;>
      exact .of_eq rfl rfl rfl
  | enqueue =>
    obtain ⟨-, h⟩ := Option.ite_none_right_eq_some.1 h
    cases h
    rw [enqueue]
    cases s.booked <;> exact .of_eq rfl rfl rfl
  | on kind l =>
    obtain ⟨-, h⟩ := Option.ite_none_right_eq_some.1 h
    cases h
    exact .of_eq rfl rfl rfl
  | off kind =>
    obtain ⟨-, h⟩ := Option.ite_none_right_eq_some.1 h
    cases h
    exact .of_eq rfl rfl rfl
  | post callback =>
    cases h
    exact .of_eq rfl rfl rfl
  | ring =>
    obtain ⟨m, -, rfl⟩ := Option.map_eq_some_iff.1 h
    exact .of_eq rfl rfl rfl
  | work =>
    obtain ⟨⟨raised, lane⟩, -, rfl⟩ := Option.map_eq_some_iff.1 h
    exact .of_eq rfl rfl rfl
  | pump => exact absurd rfl hm
  | letGo =>
    obtain ⟨-, h⟩ := Option.ite_none_right_eq_some.1 h
    cases h
    exact .of_eq rfl rfl rfl
  | destroyPump =>
    obtain ⟨hb, h⟩ := Option.ite_none_right_eq_some.1 h
    cases h
    cases hd : s.isDetached with
    | true =>
      rw [destroyPump, hd]
      exact .of_eq rfl rfl rfl
    | false =>
      rw [destroyPump, hd]
      have hr : s.pump.isRunning = false := by
        cases hp : s.pump <;> simp [betweenTurns, hp] at hb <;> rfl
      apply Goes.mk
      case acts => exact (Pump.acts_of_not_running hr).symm
      case started =>
        have ho : s.pump.standing.openCall = [] := by
          rcases standing_of_betweenTurns hb hd with hp | hp <;> rw [hp] <;> rfl
        rw [started, started, ho]
        rfl
      case drained =>
        exact drained_of_openDelivery (openDelivery_of_betweenTurns hb).1 rfl rfl

theorem exists_pumpStep?_eq (V : Vendor σ) {s : Session σ} {act : Act} {acts : List Act}
    (ha : s.pump.acts = act :: acts) :
    ∃ (stop : String → Session σ) (pump : Pump),
      s.pumpStep? V = (if s.mustWait act then none
        else
          match s.panic? act with
          | some text => some (stop text)
          | none => some { (s.perform V act).2 with pump := pump }) ∧
      pump.bare = s.pump.bare ∧ pump.standing = s.pump.standing ∧ pump.acts = acts := by
  cases hp : s.pump with
  | completing sub outcome acts' answers =>
    rw [hp] at ha
    change acts' = act :: acts at ha
    let given := answers ++ [(s.perform V act).1]
    refine ⟨fun text => (s.perform V act).2.endCompletion sub outcome given (some text),
      .completing sub outcome acts given, ?_, rfl, rfl, rfl⟩
    simp only [pumpStep?, hp, ha]
    rfl
  | dispatching count n r acts' answers =>
    rw [hp] at ha
    change acts' = act :: acts at ha
    let given := answers ++ [(s.perform V act).1]
    refine ⟨fun text => (s.perform V act).2.endDispatch count n r given (some text),
      .dispatching count n r acts given, ?_, rfl, rfl, rfl⟩
    simp only [pumpStep?, hp, ha]
    rfl
  | _ =>
    rw [hp] at ha
    cases ha

theorem exists_act_of_bind {s : Session σ} {α : Type} {f : Act → Option α} {a : α}
    (h : s.pump.act?.bind f = some a) :
    ∃ act acts, s.pump.acts = act :: acts ∧ f act = some a := by
  rw [Pump.act?_eq] at h
  cases ha : s.pump.acts with
  | nil =>
    rw [ha] at h
    cases h
  | cons act acts =>
    rw [ha] at h
    exact ⟨act, acts, rfl, h⟩

theorem submission?_pump {s : Session σ} {act : Act} {acts : List Act}
    (h : s.pump.acts = act :: acts) : s.submission? .pump = s.submissionBy? act := by
  rw [submission?, Pump.act?_eq, h]
  rfl

theorem registration?_pump {s : Session σ} {act : Act} {acts : List Act}
    (h : s.pump.acts = act :: acts) : s.registration? .pump = s.registrationBy? act := by
  rw [registration?, Pump.act?_eq, h]
  rfl

theorem nothing_brought {s : Session σ} (h : s.pump.acts = []) :
    s.submission? .pump = none ∧ s.registration? .pump = none := by
  rw [submission?, registration?, Pump.act?_eq, h]
  exact ⟨rfl, rfl⟩

theorem remaining_of_panic {s : Session σ} {act : Act} {acts : List Act} {text : String}
    (hp : s.pump.acts = act :: acts) (hq : s.panic? act = some text) : s.remaining = [] := by
  rw [remaining, hp]
  simp only [hq, Option.isSome_some, if_true]

theorem remaining_of_performed {s : Session σ} {act : Act} {acts : List Act}
    (hp : s.pump.acts = act :: acts) (hq : s.panic? act = none) : s.remaining = acts := by
  rw [remaining, hp]
  simp only [hq, Option.isSome_none, Bool.false_eq_true, if_false]

theorem remaining_of_endsWith {s : Session σ} (h : s.EndsWith s.pump.acts) :
    s.remaining = [] := by
  rcases h with ha | ⟨act, acts, text, ha, hq⟩
  · rw [remaining, ha]
  · exact remaining_of_panic ha hq

theorem goes_of_pumpStep? {V : Vendor σ} {s t : Session σ} (hs : s.pump.isRunning = true)
    (h : s.pumpStep? V = some t) : Goes s t s.remaining := by
  have hgo {act : Act} {acts : List Act} {pump : Pump} (ha : s.pump.acts = act :: acts)
      (hw : s.mustWait act = false) (hq : s.panic? act = none) (hacts : pump.acts = acts)
      (hst : pump.standing = s.pump.standing) (ho : pump.openDelivery = s.pump.openDelivery) :
      Goes s { (s.perform V act).2 with pump := pump } s.remaining := by
    obtain ⟨-, hf, hd, -⟩ := (HostChange.of_perform V hw).frame
    apply Goes.mk (hacts.trans (remaining_of_performed ha hq).symm)
    case started => rw [started, started, hst, hf]
    case drained => rw [drained, drained, ho, hd]
  cases PumpStep.of_pumpStep? h with
  | endCompletion sub outcome acts answers answers' panic hp hend =>
    rw [remaining_of_endsWith (by rw [hp]; exact hend)]
    exact goes_of_endCompletion hp answers' panic
  | continueCompletion sub outcome act acts answers answers' hp hw hq =>
    exact hgo (by rw [hp]; rfl) hw hq rfl (by rw [hp]; rfl) (by rw [hp]; rfl)
  | endDispatch count n r acts answers answers' panic hp hend =>
    rw [remaining_of_endsWith (by rw [hp]; exact hend)]
    exact goes_of_endDispatch hp answers' panic
  | continueDispatch count n r act acts answers answers' hp hw hq =>
    exact hgo (by rw [hp]; rfl) hw hq rfl (by rw [hp]; rfl) (by rw [hp]; rfl)
  | start hp | receive c lane hp | quit hp | wake m hp | take count n m hp | endDrain count hp =>
    rw [hp] at hs
    cases hs

theorem listeners_book (s : Session σ) (request : Request) (requestId : Option Int32)
    (k : Continuation) : (s.book request requestId k).2.listeners = s.listeners := by
  rcases s.book_eq request requestId k with ⟨-, he⟩ | ⟨-, -, -, log, he⟩
  · rw [he]
  · rw [he]
    rfl

theorem listeners_enqueue (s : Session σ) : s.enqueue.listeners = s.listeners := by
  rw [enqueue]
  cases s.booked <;> rfl

theorem within_perform (V : Vendor σ) (s : Session σ) (act : Act) :
    (s.perform V act).2.listeners.Within (s.registering (s.registrationBy? act)) := by
  unfold perform registrationBy?
  cases s.allows act with
  | false => exact .refl _
  | true =>
    simp only [Bool.not_true, Bool.false_eq_true, if_false, if_true]
    cases act with
    | call request requestId acts =>
      have hs : (s.submit request requestId ⟨0, acts⟩).2.listeners = s.listeners :=
        (listeners_enqueue _).trans (s.listeners_book request requestId _)
      exact .of_eq hs
    | on event label rounds =>
      simp only [onNamed, EventKind.named, Act.registration?]
      cases EventKind.ofName? event with
      | none => exact .refl _
      | some kind => exact .refl _
    | off kind => exact s.listeners.unregister_within kind
    | emit callbacks =>
      simp only [emit]
      cases V.isListening s.lane.worker.vendor <;> exact .refl _
    | _ => exact .refl _

theorem TurnEnd.within {s t : Session σ} (h : TurnEnd s t) : t.listeners.Within s.listeners := by
  cases h with
  | wait => exact .refl _
  | detach => exact s.listeners.empty_within

theorem within_endCompletion (s : Session σ) (sub : Submission Continuation) (outcome : Outcome)
    (answers : List Answer) (panic : Option String) :
    (s.endCompletion sub outcome answers panic).listeners.Within s.listeners := by
  obtain ⟨log, he⟩ := s.endCompletion_eq sub outcome answers panic
  rw [he]
  intro kind r hr
  have ht := (TurnEnd.of_endTurn _).within kind r hr
  simp only [] at ht
  split at ht
  · exact s.listeners.empty_within kind r ht
  · exact ht

theorem registrationBy?_panic (s : Session σ) (text : String) (inSession : Bool) :
    s.registrationBy? (.panic text inSession) = none := by
  rw [registrationBy?]
  split <;> rfl

theorem within_pumpStep? {V : Vendor σ} {s t : Session σ} (h : s.pumpStep? V = some t) :
    t.listeners.Within (s.registering (s.registration? .pump)) := by
  have hnone (hn : s.pump.acts.head?.bind s.registrationBy? = none)
      (ht : t.listeners.Within s.listeners) :
      t.listeners.Within (s.registering (s.registration? .pump)) := by
    rw [registration?, Pump.act?_eq, hn]
    exact ht
  cases PumpStep.of_pumpStep? h with
  | start hp => exact hnone (by rw [hp]; rfl) (.refl _)
  | receive c lane hp hc =>
    obtain ⟨log, he⟩ := beginCompletion_eq { s with lane := lane } c
    exact hnone (by rw [hp]; rfl) (.of_eq (by rw [he]))
  | quit hp hc he => exact hnone (by rw [hp]; rfl) s.listeners.empty_within
  | wake m hp hc hm => exact hnone (by rw [hp]; rfl) (.refl _)
  | endCompletion sub outcome acts answers answers' panic hp hend =>
    apply hnone ?_ (s.within_endCompletion sub outcome answers' panic)
    rw [hp]
    exact hend.nothing s.registrationBy?_panic
  | continueCompletion sub outcome act acts answers answers' hp hw hq =>
    rw [registration?, hp]
    exact within_perform V s act
  | take count n m hp hm =>
    apply hnone (by rw [hp]; rfl)
    rcases beginDispatch_eq { s with mailbox := m } count n with
      ⟨-, log, he⟩ | ⟨r, log, -, he⟩ <;> rw [he] <;> exact .refl _
  | endDrain count hp hm =>
    apply hnone (by rw [hp]; rfl)
    obtain ⟨log, he⟩ := s.endDrain_eq count
    rw [he]
    exact (TurnEnd.of_endTurn _).within
  | endDispatch count n r acts answers answers' panic hp hend =>
    apply hnone
    · rw [hp]
      exact hend.nothing s.registrationBy?_panic
    · obtain ⟨log, he⟩ := s.endDispatch_eq count n r answers' panic
      rw [he]
      exact .refl _
  | continueDispatch count n r act acts answers answers' hp hw hq =>
    rw [registration?, hp]
    exact within_perform V s act

theorem within_of_step? {V : Vendor σ} {s t : Session σ} {m : Move} (h : s.step? V m = some t) :
    t.listeners.Within (s.registering (s.registration? m)) := by
  cases m with
  | book request requestId k =>
    obtain ⟨-, h⟩ := Option.ite_none_right_eq_some.1 h
    cases h
    exact .of_eq (s.listeners_book request requestId k)
  | enqueue =>
    obtain ⟨-, h⟩ := Option.ite_none_right_eq_some.1 h
    cases h
    exact .of_eq s.listeners_enqueue
  | on kind l =>
    obtain ⟨-, h⟩ := Option.ite_none_right_eq_some.1 h
    cases h
    exact .refl _
  | off kind =>
    obtain ⟨-, h⟩ := Option.ite_none_right_eq_some.1 h
    cases h
    exact s.listeners.unregister_within kind
  | post callback =>
    cases h
    exact .refl _
  | ring =>
    obtain ⟨m, -, rfl⟩ := Option.map_eq_some_iff.1 h
    exact .refl _
  | work =>
    obtain ⟨⟨raised, lane⟩, -, rfl⟩ := Option.map_eq_some_iff.1 h
    exact .refl _
  | pump => exact within_pumpStep? h
  | letGo =>
    obtain ⟨-, h⟩ := Option.ite_none_right_eq_some.1 h
    cases h
    exact .refl _
  | destroyPump =>
    obtain ⟨-, h⟩ := Option.ite_none_right_eq_some.1 h
    cases h
    rw [destroyPump]
    split <;> exact .refl _

theorem accepted_offered (s : Session σ) (sub? : Option (Submission Continuation)) :
    Offer.accepted (s.offered sub?) = (sub?.filter s.takes).toList := by
  cases sub? with
  | none => rfl
  | some sub =>
    rw [Option.filter_some]
    split
    · rename_i h
      exact Offer.accepted_of_taken h
    · rename_i h
      exact Offer.accepted_of_not_taken (Bool.eq_false_iff.2 h)

theorem getElem?_accepted_of_step? {V : Vendor σ} {s t : Session σ} {m : Move}
    (h : s.step? V m = some t) (i : Nat) (x : Submission Continuation) :
    t.accepted[i]? = some x ↔ s.accepted[i]? = some x ∨
      i = s.accepted.length ∧ s.submission? m = some x ∧ s.takes x = true := by
  rw [accepted_of_step? h, accepted_offered, ← Option.filter_eq_some_iff]
  generalize (s.submission? m).filter s.takes = sub?
  rcases Nat.lt_trichotomy i s.accepted.length with hi | rfl | hi
  · rw [List.getElem?_append_left hi]
    exact ⟨.inl, fun hx => hx.resolve_right fun hx => Nat.ne_of_lt hi hx.1⟩
  · rw [List.getElem?_append_right (Nat.le_refl _), Nat.sub_self, List.getElem?_eq_none
      (Nat.le_refl s.accepted.length)]
    cases sub? <;> simp
  · rw [List.getElem?_eq_none (Nat.le_of_lt hi), List.getElem?_eq_none]
    · simp only [reduceCtorEq, false_or, false_iff, not_and]
      exact fun he => absurd he (Nat.ne_of_gt hi)
    · rw [List.length_append]
      have hl : sub?.toList.length ≤ 1 := Option.length_toList_le
      omega

/-- The continuation that is begun is that of the first accepted request that was not come to. -/
theorem Sound.accepted_getElem? {V : Vendor σ} {vendor : σ} {s t : Session σ}
    (h : t.Sound V vendor) {sub : Submission Continuation} {outcome : Outcome}
    (hs : t.started = s.started ++ [(sub, outcome)]) :
    t.accepted[s.started.length]? = some sub := by
  have hp := h.started_prefix
  rw [hs] at hp
  have hz := List.prefix_iff_getElem?.1 hp s.started.length (by simp)
  rw [List.getElem_concat_length rfl] at hz
  exact (List.getElem?_zip_eq_some.1 hz).1

theorem isRunning_of_bare {s t : Session σ} (h : s.bare = t.bare) :
    s.pump.isRunning = t.pump.isRunning := by
  have hr (s : Session σ) : s.bare.pump.isRunning = s.pump.isRunning := by
    rw [bare]
    cases s.pump <;> rfl
  rw [← hr, ← hr t, h]

theorem length_started_of_bare {s t : Session σ} (h : s.bare = t.bare) :
    s.started.length = t.started.length := by
  have hl := congrArg (fun b : Session σ => b.started.length) h
  simp only [started_bare, List.length_map] at hl
  exact hl

theorem accepted_bare (s : Session σ) :
    s.bare.accepted = s.accepted.map (Submission.map Continuation.bare) := by
  have hj (j : Job Continuation) :
      (j.map Continuation.bare).submission? =
        j.submission?.map (Submission.map Continuation.bare) := by
    cases j <;> rfl
  have hb : s.bare.booked.toList = s.booked.toList.map (Submission.map Continuation.bare) := by
    rw [bare]
    cases s.booked <;> rfl
  have hl : s.bare.lane.submitted = s.lane.submitted.map (Submission.map Continuation.bare) := by
    rw [Lane.submitted, Lane.submitted, bare, Lane.map, List.filterMap_map, List.map_filterMap]
    exact congrArg (fun f => s.lane.issued.filterMap f) (funext hj)
  rw [accepted, accepted, hl, hb, List.map_append]

theorem length_accepted_of_bare {s t : Session σ} (h : s.bare = t.bare) :
    s.accepted.length = t.accepted.length := by
  have hl := congrArg (fun b : Session σ => b.accepted.length) h
  simp only [accepted_bare, List.length_map] at hl
  exact hl

theorem invocations_of_bare {s t : Session σ} (h : s.bare = t.bare) (number : Nat) :
    s.invocations number = t.invocations number := by
  have hi (s : Session σ) : s.bare.invocations number = s.invocations number := by
    rw [invocations, invocations, bare, List.countP_map]
    apply List.countP_congr
    intro d hd
    simp only [Function.comp_def, Delivery.bare, Option.any_map]
    rfl
  rw [← hi, ← hi t, h]

/-- Two sessions that differ in their host code alone begin the same code: none, the continuations
of two requests that have the same place, or two listeners with the same number. -/
theorem Begins.alike {s s' t t' : Session σ} (h : Begins s t) (h' : Begins s' t')
    (hs : s.bare = s'.bare) (ht : t.bare = t'.bare) :
    (t.pump.isRunning = false ∧ t'.pump.isRunning = false ∧ t.started = s.started ∧
      (t.drained = s.drained ∨ ∃ n, t.drained = s.drained ++ [(n, none)])) ∨
    (∃ sub sub' outcome outcome', t.started = s.started ++ [(sub, outcome)] ∧
      t'.started = s'.started ++ [(sub', outcome')] ∧ t.pump.acts = sub.continuation.acts ∧
      t'.pump.acts = sub'.continuation.acts ∧ t.drained = s.drained) ∨
    ∃ n r r', s.listeners.find? n.kind = some r ∧ s'.listeners.find? n.kind = some r' ∧
      t.pump.acts = r.listener.acts (s.invocations r.number) ∧
      t'.pump.acts = r'.listener.acts (s.invocations r.number) ∧ t.started = s.started ∧
      t.drained = s.drained ++ [(n, some r)] := by
  have hp : t.pump.bare = t'.pump.bare := congrArg (·.pump) ht
  cases h with
  | nothing hr hst hd => exact .inl ⟨hr, (isRunning_of_bare ht).symm.trans hr, hst, hd⟩
  | continuation sub outcome hpt hst hd =>
    rw [hpt] at hp
    cases h' with
    | nothing hr =>
      rw [← isRunning_of_bare ht, hpt] at hr
      cases hr
    | continuation sub' outcome' hpt' hst' =>
      exact .inr (.inl ⟨sub, sub', outcome, outcome', hst, hst', by rw [hpt]; rfl,
        by rw [hpt']; rfl, hd⟩)
    | listener count n r hpt' =>
      rw [hpt'] at hp
      cases hp
  | listener count n r hpt hl hst hd =>
    rw [hpt] at hp
    cases h' with
    | nothing hr =>
      rw [← isRunning_of_bare ht, hpt] at hr
      cases hr
    | continuation sub' outcome' hpt' =>
      rw [hpt'] at hp
      cases hp
    | listener count' n' r' hpt' hl' =>
      rw [hpt'] at hp
      obtain ⟨-, rfl, hr, -, -⟩ := Pump.dispatching.inj hp
      have hn : r.bare.number = r'.bare.number := congrArg Registration.number hr
      change r.number = r'.number at hn
      refine .inr (.inr ⟨n, r, r', hl, hl', by rw [hpt]; rfl, ?_, hst, hd⟩)
      rw [hpt', hn, invocations_of_bare hs]
      rfl

end Session

end MarketFeed
