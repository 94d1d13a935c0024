import Mathlib.Data.List.Forall2
import MarketFeed.Proofs.Session.Recoding
import MarketFeed.Proofs.Session.Exit

namespace MarketFeed

/-- The same acts, but that what comes of them later may fail, and perhaps a panic behind them. -/
inductive ActsMayFail : List Act → List Act → Prop
  | done : ActsMayFail [] []
  | panic (text : String) : ActsMayFail [] [.panic text false]
  | cons {act act' : Act} {acts acts' : List Act} (h : act.Recoded ActsMayFail act')
      (hs : ActsMayFail acts acts') : ActsMayFail (act :: acts) (act' :: acts')

theorem ActsMayFail.refl (acts : List Act) : ActsMayFail acts acts := by
  induction acts with
  | nil => exact .done
  | cons act acts ih => exact .cons (.same act) ih

theorem ActsMayFail.next? {acts acts' : List Act} (h : ActsMayFail acts acts') :
    Act.next? acts = Act.next? acts' := by
  cases h with
  | done => rfl
  | panic text => rfl
  | @cons act act' acts acts' h hs =>
    cases h with
    | same =>
      cases act with
      | panic text inSession => cases inSession <;> rfl
      | _ => rfl
    | call => rfl
    | on => rfl

def SubmissionMayFail (x x' : Submission Continuation) : Prop :=
  x.request = x'.request ∧ x.requestId = x'.requestId ∧
    ActsMayFail x.continuation.acts x'.continuation.acts

def ListenerMayFail (x x' : EventKind × Listener) : Prop :=
  x.1 = x'.1 ∧ ∀ n, ActsMayFail (x.2.acts n) (x'.2.acts n)

theorem Act.submission?_mayFail {act act' : Act} (h : act.Recoded ActsMayFail act') :
    Option.Rel SubmissionMayFail act.submission? act'.submission? := by
  cases h with
  | same =>
    cases act with
    | call request requestId acts => exact .some ⟨rfl, rfl, .refl acts⟩
    | _ => exact .none
  | call request requestId hacts => exact .some ⟨rfl, rfl, hacts⟩
  | on event label hrounds => exact .none

theorem Act.registration?_mayFail {act act' : Act} (h : act.Recoded ActsMayFail act') :
    Option.Rel ListenerMayFail act.registration? act'.registration? := by
  cases h with
  | same =>
    cases act with
    | on event label rounds =>
      rw [Act.registration?]
      cases EventKind.ofName? event with
      | none => exact .none
      | some kind => exact .some ⟨rfl, fun n => .refl (actsAt rounds n)⟩
    | _ => exact .none
  | call request requestId hacts => exact .none
  | on event label hrounds =>
    rw [Act.registration?, Act.registration?]
    cases EventKind.ofName? event with
    | none => exact .none
    | some kind => exact .some ⟨rfl, hrounds⟩

namespace Session

variable {σ : Type}

/-- Two sessions whose host code differs in that the second one's may fail. -/
structure Twins (s s' : Session σ) : Prop where
  bare : s.bare = s'.bare
  accepted : ∀ (i : Nat) (x x' : Submission Continuation), s.accepted[i]? = some x →
    s'.accepted[i]? = some x' → ActsMayFail x.continuation.acts x'.continuation.acts
  listeners : ∀ kind r r', s.listeners.find? kind = some r → s'.listeners.find? kind = some r' →
    ∀ n, ActsMayFail (r.listener.acts n) (r'.listener.acts n)
  acts : ActsMayFail s.pump.acts s'.pump.acts

section
variable {s s' : Session σ} (h : Twins s s')
include h

theorem Twins.act? {α β : Type} {R : α → β → Prop} {f : Act → Option α} {g : Act → Option β}
    (hg : ∀ text, g (.panic text false) = none)
    (hr : ∀ act act' : Act, act.Recoded ActsMayFail act' → Option.Rel R (f act) (g act')) :
    Option.Rel R (s.pump.act?.bind fun act => if s.allows act then f act else none)
      (s'.pump.act?.bind fun act => if s'.allows act then g act else none) := by
  have ha := h.acts
  rw [Pump.act?_eq, Pump.act?_eq]
  generalize s.pump.acts = acts at ha
  generalize s'.pump.acts = acts' at ha
  cases ha with
  | done => exact .none
  | panic text =>
    simp only [List.head?_nil, List.head?_cons, Option.bind_none, Option.bind_some, hg, ite_self]
    exact .none
  | @cons act act' acts acts' hact hs =>
    simp only [List.head?_cons, Option.bind_some, allows_of_bare h.bare hact.bare]
    split
    · exact hr act act' hact
    · exact .none

theorem Twins.submission? {m m' : Move} (hm : m.Recoded ActsMayFail m') :
    Option.Rel SubmissionMayFail (s.submission? m) (s'.submission? m') := by
  cases hm with
  | same =>
    cases m with
    | book request requestId k => exact .some ⟨rfl, rfl, .refl k.acts⟩
    | pump => exact h.act? (fun _ => rfl) fun _ _ => Act.submission?_mayFail
    | _ => exact .none
  | book request requestId tag hacts => exact .some ⟨rfl, rfl, hacts⟩
  | on kind label hrounds => exact .none

theorem Twins.registration? {m m' : Move} (hm : m.Recoded ActsMayFail m') :
    Option.Rel ListenerMayFail (s.registration? m) (s'.registration? m') := by
  cases hm with
  | same =>
    cases m with
    | on kind l => exact .some ⟨rfl, fun n => .refl (l.acts n)⟩
    | pump => exact h.act? (fun _ => rfl) fun _ _ => Act.registration?_mayFail
    | _ => exact .none
  | book request requestId tag hacts => exact .none
  | on kind label hrounds => exact .some ⟨rfl, hrounds⟩

theorem Twins.remaining : ActsMayFail s.remaining s'.remaining := by
  have ha := h.acts
  rw [Session.remaining, Session.remaining]
  generalize s.pump.acts = acts at ha
  generalize s'.pump.acts = acts' at ha
  cases ha with
  | done => exact .done
  | panic text =>
    have hq : s'.panic? (.panic text false) = some text := if_pos (Bool.or_true _)
    simp only [hq, Option.isSome_some, if_true]
    exact .done
  | @cons act act' acts acts' hact hs =>
    simp only [panic?_of_bare h.bare hact.bare]
    split
    · exact .done
    · exact hs

theorem Twins.accepted_of_steps {V : Vendor σ} {t t' : Session σ} {m m' : Move}
    (hm : m.Recoded ActsMayFail m') (ht : s.step? V m = some t) (ht' : s'.step? V m' = some t')
    (i : Nat) (x x' : Submission Continuation) (hx : t.accepted[i]? = some x)
    (hx' : t'.accepted[i]? = some x') : ActsMayFail x.continuation.acts x'.continuation.acts := by
  have hl := length_accepted_of_bare h.bare
  rcases (getElem?_accepted_of_step? ht i x).1 hx with hx | ⟨hi, hx, -⟩
  · have hi : i < s.accepted.length := (List.getElem?_eq_some_iff.1 hx).1
    rcases (getElem?_accepted_of_step? ht' i x').1 hx' with hx' | ⟨hi', -⟩
    · exact h.accepted i x x' hx hx'
    · exact absurd (hi'.trans hl.symm) (Nat.ne_of_lt hi)
  · rcases (getElem?_accepted_of_step? ht' i x').1 hx' with hx' | ⟨-, hx', -⟩
    · have hi' : i < s'.accepted.length := (List.getElem?_eq_some_iff.1 hx').1
      exact absurd (hi.trans hl) (Nat.ne_of_lt hi')
    · have hs := h.submission? hm
      rw [hx, hx'] at hs
      cases hs with
      | some hs => exact hs.2.2

theorem Twins.find?_registering {a b : Option (EventKind × Listener)}
    (hab : Option.Rel ListenerMayFail a b) (kind : EventKind) (r r' : Registration)
    (hr : (s.registering a).find? kind = some r) (hr' : (s'.registering b).find? kind = some r')
    (n : Nat) : ActsMayFail (r.listener.acts n) (r'.listener.acts n) := by
  cases hab with
  | none => exact h.listeners kind r r' hr hr' n
  | @some y y' hy =>
    obtain ⟨k, l⟩ := y
    obtain ⟨k', l'⟩ := y'
    obtain ⟨rfl, hacts⟩ := hy
    simp only [registering, Listeners.find?_register] at hr hr'
    split at hr
    · rename_i hk
      rw [if_pos hk] at hr'
      cases hr
      cases hr'
      exact hacts n
    · rename_i hk
      rw [if_neg hk] at hr'
      exact h.listeners kind r r' hr hr' n

theorem Twins.begins {V : Vendor σ} {vendor : σ} {t t' : Session σ} (hs : t.Sound V vendor)
    (hs' : t'.Sound V vendor) (hb : t.bare = t'.bare)
    (haccepted : ∀ (i : Nat) (x x' : Submission Continuation), t.accepted[i]? = some x →
      t'.accepted[i]? = some x' → ActsMayFail x.continuation.acts x'.continuation.acts)
    (hbegins : Begins s t) (hbegins' : Begins s' t') : ActsMayFail t.pump.acts t'.pump.acts := by
  rcases hbegins.alike hbegins' h.bare hb with ⟨hr, hr', -, -⟩ |
    ⟨sub, sub', outcome, outcome', hst, hst', ha, ha', -⟩ | ⟨n, r, r', hl, hl', ha, ha', -, -⟩
  · rw [Pump.acts_of_not_running hr, Pump.acts_of_not_running hr']
    exact .done
  · have hx := hs.accepted_getElem? hst
    have hx' := hs'.accepted_getElem? hst'
    rw [← length_started_of_bare h.bare] at hx'
    rw [ha, ha']
    exact haccepted _ sub sub' hx hx'
  · rw [ha, ha']
    exact h.listeners _ r r' hl hl' _

end

theorem Twins.of_steps {V : Vendor σ} {vendor : σ} {s s' t t' : Session σ} (h : Twins s s')
    (hs : s.Sound V vendor) (hs' : s'.Sound V vendor) {m m' : Move} (hm : m.Recoded ActsMayFail m')
    (ht : s.step? V m = some t) (ht' : s'.step? V m' = some t') (hb : t.bare = t'.bare) :
    Twins t t' := by
  have haccepted := h.accepted_of_steps hm ht ht'
  apply Twins.mk hb haccepted
  case listeners =>
    intro kind r r' hr hr'
    exact h.find?_registering (h.registration? hm) kind r r' (within_of_step? ht kind r hr)
      (within_of_step? ht' kind r' hr')
  case acts =>
    by_cases hp : m = .pump
    · obtain rfl := hp
      obtain rfl := (Move.pump_of_bare hm.bare).1 rfl
      cases hr : s.pump.isRunning with
      | false =>
        have hr' : s'.pump.isRunning = false := (isRunning_of_bare h.bare).symm.trans hr
        exact h.begins (hs.change (.of_step? ht)) (hs'.change (.of_step? ht')) hb haccepted
          (begins_of_pumpStep? hr ht) (begins_of_pumpStep? hr' ht')
      | true =>
        have hr' : s'.pump.isRunning = true := (isRunning_of_bare h.bare).symm.trans hr
        rw [(goes_of_pumpStep? hr ht).acts, (goes_of_pumpStep? hr' ht').acts]
        exact h.remaining
    · have hp' : m' ≠ .pump := fun hp' => hp ((Move.pump_of_bare hm.bare).2 hp')
      rw [(goes_of_step? hp ht).acts, (goes_of_step? hp' ht').acts]
      exact h.acts

theorem Twins.step? {V : Vendor σ} {vendor : σ} {s s' : Session σ} (h : Twins s s')
    (hs : s.Sound V vendor) (hs' : s'.Sound V vendor) {m m' : Move}
    (hm : m.Recoded ActsMayFail m') :
    Option.Rel Twins (s.step? V m) (s'.step? V m') := by
  have hb := bare_step? V h.bare hm.bare fun _ => h.acts.next?
  cases ht : s.step? V m with
  | none =>
    cases ht' : s'.step? V m' with
    | none => exact .none
    | some t' =>
      rw [ht, ht'] at hb
      cases hb
  | some t =>
    cases ht' : s'.step? V m' with
    | none =>
      rw [ht, ht'] at hb
      cases hb
    | some t' =>
      rw [ht, ht'] at hb
      exact .some (h.of_steps hs hs' hm ht ht' (Option.some.inj hb))

theorem Twins.run {V : Vendor σ} {vendor : σ} {s s' : Session σ} (h : Twins s s')
    (hs : s.Sound V vendor) (hs' : s'.Sound V vendor) {ms ms' : List Move}
    (hms : List.Forall₂ (Move.Recoded ActsMayFail) ms ms') :
    Option.Rel Twins (s.run V ms) (s'.run V ms') := by
  induction hms generalizing s s' with
  | nil => exact .some h
  | @cons m m' ms ms' hm hms ih =>
    rw [Session.run, Session.run, List.foldlM_cons, List.foldlM_cons]
    have hstep := h.step? hs hs' hm
    cases ht : s.step? V m with
    | none =>
      cases ht' : s'.step? V m' with
      | none => exact .none
      | some t' =>
        rw [ht, ht'] at hstep
        cases hstep
    | some t =>
      cases ht' : s'.step? V m' with
      | none =>
        rw [ht, ht'] at hstep
        cases hstep
      | some t' =>
        rw [ht, ht'] at hstep
        cases hstep with
        | some htwins =>
          exact ih htwins (hs.change (.of_step? ht)) (hs'.change (.of_step? ht'))

theorem twins_fresh (vendor : σ) (settings : Settings) :
    Twins (fresh vendor settings) (fresh vendor settings) := by
  apply Twins.mk rfl
  case accepted =>
    intro i x x' hx
    cases hx
  case listeners =>
    intro kind r r' hr
    rw [fresh, Listeners.find?_empty] at hr
    cases hr
  case acts => exact .done

/-- A panic in the continuation of an exit does not keep the pump from detaching. -/
theorem Sound.detached_of_panic {V : Vendor σ} {vendor : σ} {s : Session σ} (h : s.Sound V vendor)
    {sub : Submission Continuation} {outcome : Outcome} {act : Act} {acts : List Act}
    {answers : List Answer} {text : String}
    (hp : s.pump = .completing sub outcome (act :: acts) answers) (ho : sub.operation = .exit)
    (hq : s.panic? act = some text) :
    ∃ t, s.step? V .pump = some t ∧ t.isDetached = true ∧ t.listeners = .empty ∧
      t.inFlight = 0 := by
  have hw : s.mustWait act = false := by
    cases act with
    | panic text inSession => exact Bool.and_false _
    | _ => cases hq
  have hstep : s.step? V .pump = some
      (s.endCompletion sub outcome (answers ++ [(s.perform V act).1]) (some text)) := by
    simp only [step?, pumpStep?, hp, hw, hq, perform_of_panic V hq, Bool.false_eq_true, if_false]
  obtain ⟨log, he⟩ := s.endCompletion_eq sub outcome (answers ++ [(s.perform V act).1]) (some text)
  rw [if_pos ho] at he
  have ht := h.change (.of_step? hstep)
  have hend := TurnEnd.of_endTurn
    { s with
      finished := s.finished ++ [⟨sub, outcome, answers ++ [(s.perform V act).1]⟩]
      listeners := .empty
      inFlight := s.inFlight - 1
      log := log }
  rw [← he] at hend
  generalize s.endCompletion sub outcome (answers ++ [(s.perform V act).1]) (some text) = t
    at hstep ht hend
  have hf : ⟨sub, outcome, answers ++ [(s.perform V act).1]⟩ ∈ t.finished := by
    rw [hend.frame.1]
    exact List.mem_concat_self
  have hd := ht.closing.detached_of_finished hf ho
  have hl : t.listeners = .empty := by cases hend <;> rfl
  exact ⟨t, hstep, hd, hl, ht.inFlight_of_detached hd⟩

/-- Host code that panics where it would have returned changes nothing in the course of a session,
move by move. The pump detaches with the end of an exit's continuation, if that panics too. -/
theorem panics_isolated (V : Vendor σ) (vendor : σ) {hasScheduler : Bool} {settings : Settings}
    {s₀ : Session σ} (hc : create hasScheduler vendor settings = .made s₀) {ms ms' : List Move}
    (hms : List.Forall₂ (Move.Recoded ActsMayFail) ms ms') :
    (∀ n, Option.Rel SameCourse (s₀.run V (ms.take n)) (s₀.run V (ms'.take n))) ∧
      ∀ n s sub outcome act acts answers text, s₀.run V (ms'.take n) = some s →
        s.pump = .completing sub outcome (act :: acts) answers → sub.operation = .exit →
        s.panic? act = some text →
        ∃ t, s.step? V .pump = some t ∧ t.isDetached = true ∧ t.listeners = .empty ∧
          t.inFlight = 0 := by
  constructor
  · intro n
    obtain ⟨-, -, rfl⟩ := create_eq_made_iff.1 hc
    have hs := sound_fresh V vendor settings
    have hr := (twins_fresh vendor settings).run hs hs (List.forall₂_take n hms)
    generalize (fresh vendor settings).run V (ms.take n) = t? at hr
    generalize (fresh vendor settings).run V (ms'.take n) = t'? at hr
    cases hr with
    | none => exact .none
    | some h => exact .some (sameCourse_of_bare h.bare)
  · intro n s sub outcome act acts answers text hr hp ho hq
    exact (sound_of_run hc hr).detached_of_panic hp ho hq

/-- A listener that makes a call, and an exit. What is done at their ends, and at the end of the
call's continuation, is left open. -/
def greeting (inner outer last : List Act) : List Move :=
  [.on .frontConnected ⟨"greeter", [(1, .call .apiVersion none inner :: outer)]⟩,
    .post .frontConnected, .ring, .pump, .pump, .pump, .pump, .pump, .pump,
    .book .exit none ⟨7, last⟩, .enqueue, .work, .work, .work, .work, .pump, .pump, .pump]

theorem greeting_mayFail :
    List.Forall₂ (Move.Recoded ActsMayFail) (greeting [] [] [])
      (greeting [.panic "inner" false] [.panic "outer" false] [.panic "last" false]) := by
  have hon (n : Nat) : ActsMayFail (actsAt [(1, [.call .apiVersion none []])] n)
      (actsAt [(1, [.call .apiVersion none [.panic "inner" false], .panic "outer" false])] n) := by
    cases n with
    | zero => exact .cons (.call _ _ (.panic "inner")) (.panic "outer")
    | succ n => exact .done
  apply List.Forall₂.cons (.on _ _ hon)
  repeat apply List.Forall₂.cons (.same _)
  apply List.Forall₂.cons (.book _ _ _ (.panic "last"))
  repeat apply List.Forall₂.cons (.same _)
  exact .nil

theorem panics_isolated_of_greeting :
    ∃ s s' t : Session Loopback, (fresh {} {}).run Loopback.vendor (greeting [] [] []) = some s ∧
      (fresh {} {}).run Loopback.vendor
        (greeting [.panic "inner" false] [.panic "outer" false] [.panic "last" false]) = some s' ∧
      SameCourse s s' ∧ s.started.map (·.1.operation) = [.apiVersion, .exit] ∧
      s'.step? Loopback.vendor .pump = some t ∧ t.isDetached = true ∧ t.listeners = .empty ∧
      t.inFlight = 0 := by
  obtain ⟨s, hs, hops⟩ := Option.map_eq_some_iff.1
    (rfl : ((fresh {} {}).run Loopback.vendor (greeting [] [] [])).map
      (fun s => s.started.map (·.1.operation)) = some [.apiVersion, .exit])
  obtain ⟨s', hs', hp⟩ := Option.map_eq_some_iff.1
    (rfl : ((fresh {} {}).run Loopback.vendor
        (greeting [.panic "inner" false] [.panic "outer" false] [.panic "last" false])).map
      (·.pump) = some (.completing ⟨.exit, none, ⟨7, [.panic "last" false]⟩⟩ (.ok .none)
        [.panic "last" false] []))
  obtain ⟨hsame, hexit⟩ :=
    panics_isolated Loopback.vendor {} (create_default _) greeting_mayFail
  have hrel : Option.Rel SameCourse (some s) (some s') := hs ▸ hs' ▸ hsame 18
  have hq : s'.panic? (.panic "last" false) = some "last" := if_pos (Bool.or_true _)
  obtain ⟨t, ht, hd, hl, hi⟩ := hexit 18 s' _ _ _ _ _ "last" hs' hp rfl hq
  cases hrel with
  | some hst => exact ⟨s, s', t, hs, hs', hst, hops, ht, hd, hl, hi⟩

end Session

end MarketFeed
