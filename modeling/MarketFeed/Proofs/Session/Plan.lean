import MarketFeed.Proofs.Session.Refusal

namespace MarketFeed

/-- The same acts without some of their calls; so it is with what comes of them later. -/
inductive ActsThinned : List Act → List Act → Prop
  | nil : ActsThinned [] []
  | cons {act act' : Act} {acts acts' : List Act} (h : act.Recoded ActsThinned act')
      (hs : ActsThinned acts acts') : ActsThinned (act :: acts) (act' :: acts')
  | drop {acts acts' : List Act} (request : Request) (requestId : Option Int32)
      (later : List Act) (hs : ActsThinned acts acts') :
      ActsThinned (.call request requestId later :: acts) acts'

theorem ActsThinned.refl (acts : List Act) : ActsThinned acts acts := by
  induction acts with
  | nil => exact .nil
  | cons act acts ih => exact .cons (.same act) ih

theorem ActsThinned.eq_nil {acts : List Act} (h : ActsThinned [] acts) : acts = [] := by
  cases h
  rfl

def laterRounds : List (Nat × List Act) → List (Nat × List Act)
  | [] => []
  | (0, _) :: rounds => laterRounds rounds
  | (length + 1, acts) :: rounds => (length, acts) :: rounds

theorem actsAt_laterRounds (rounds : List (Nat × List Act)) (n : Nat) :
    actsAt (laterRounds rounds) n = actsAt rounds (n + 1) := by
  induction rounds with
  | nil => rfl
  | cons round rounds ih =>
    obtain ⟨length, acts⟩ := round
    cases length with
    | zero => exact ih
    | succ length =>
      simp only [laterRounds, actsAt, Nat.add_lt_add_iff_right, Nat.add_sub_add_right]

/-- Rounds with other acts at one invocation. -/
def replaceRound (acts : List Act) : List (Nat × List Act) → Nat → List (Nat × List Act)
  | rounds, 0 => (1, acts) :: laterRounds rounds
  | rounds, n + 1 => (1, actsAt rounds 0) :: replaceRound acts (laterRounds rounds) n

theorem actsAt_replaceRound (acts : List Act) (rounds : List (Nat × List Act)) (n i : Nat) :
    actsAt (replaceRound acts rounds n) i = if i = n then acts else actsAt rounds i := by
  induction n generalizing rounds i with
  | zero =>
    cases i with
    | zero => rfl
    | succ i => exact actsAt_laterRounds rounds i
  | succ n ih =>
    cases i with
    | zero => rfl
    | succ i =>
      change actsAt (replaceRound acts (laterRounds rounds) n) i = _
      rw [ih, actsAt_laterRounds]
      simp only [Nat.add_right_cancel_iff]

/-- What is to be left of the continuations of accepted requests, in the order in which they were
accepted, of the listeners for each kind of event, and of the host code that is running. Which calls
are to be left out shows only when the code runs, so plans are made from the end of a run to its
beginning. -/
structure Plan where
  continuation : Nat → List Act
  rounds : EventKind → List (Nat × List Act)
  current : List Act

namespace Session

variable {σ : Type}

def begun (s : Session σ) (number : Nat) : Nat :=
  s.drained.countP fun d => d.2.any fun r => r.number == number

/-- A session with nothing but planned host code ahead of it. -/
structure Keeps (s : Session σ) (p : Plan) : Prop where
  continuation : ∀ i x, s.started.length ≤ i → s.accepted[i]? = some x →
    x.continuation.acts = p.continuation i
  rounds : ∀ kind r, s.listeners.find? kind = some r → ∀ n, s.begun r.number ≤ n →
    r.listener.acts n = actsAt (p.rounds kind) n
  current : s.pump.acts = p.current

structure Brings (p : Plan) (place : Nat) (sub? : Option (Submission Continuation))
    (reg? : Option (EventKind × Listener)) : Prop where
  submission : ∀ sub, sub? = some sub → sub.continuation.acts = p.continuation place
  registration : ∀ kind l, reg? = some (kind, l) → ∀ n, l.acts n = actsAt (p.rounds kind) n

theorem brings_nothing (p : Plan) (place : Nat) : Brings p place none none where
  submission _ h := by cases h
  registration _ _ h := by cases h

end Session

/-- A plan that leaves out nothing but calls. -/
structure Plan.Thins {σ : Type} (p : Plan) (s : Session σ) : Prop where
  continuation : ∀ i x, s.started.length ≤ i → s.accepted[i]? = some x →
    ActsThinned x.continuation.acts (p.continuation i)
  rounds : ∀ kind r, s.listeners.find? kind = some r → ∀ n,
    ActsThinned (r.listener.acts n) (actsAt (p.rounds kind) n)
  current : ActsThinned s.pump.acts p.current

/-- The plan before a continuation is begun: what is then running was to become of it. -/
def Plan.beforeContinuation (q : Plan) (rounds : EventKind → List (Nat × List Act)) (place : Nat) :
    Plan where
  continuation i := if i = place then q.current else q.continuation i
  rounds := rounds
  current := []

theorem Plan.continuation_beforeContinuation (q : Plan)
    (rounds : EventKind → List (Nat × List Act)) (place i : Nat) :
    (q.beforeContinuation rounds place).continuation i =
      if i = place then q.current else q.continuation i :=
  rfl

def Plan.beforeInvocation (q : Plan) (rounds : EventKind → List (Nat × List Act))
    (kind : EventKind) (number : Nat) : Plan where
  continuation := q.continuation
  rounds k := if k = kind then replaceRound q.current (rounds k) number else rounds k
  current := []

theorem Plan.actsAt_beforeInvocation (q : Plan) (rounds : EventKind → List (Nat × List Act))
    (kind : EventKind) (number i : Nat) :
    actsAt ((q.beforeInvocation rounds kind number).rounds kind) i =
      if i = number then q.current else actsAt (rounds kind) i := by
  rw [← actsAt_replaceRound]
  exact congrArg (actsAt · i) (if_pos rfl)

theorem Plan.rounds_beforeInvocation (q : Plan) (rounds : EventKind → List (Nat × List Act))
    {kind other : EventKind} (number : Nat) (ho : other ≠ kind) :
    (q.beforeInvocation rounds kind number).rounds other = rounds other :=
  if_neg ho

/-- Two plans, before and after a step, that say the same of all host code the step does not come
to. -/
structure Plan.Leads {σ : Type} (p q : Plan) (s t : Session σ) : Prop where
  continuation : ∀ i, t.started.length ≤ i → p.continuation i = q.continuation i
  rounds : ∀ kind r, s.listeners.find? kind = some r → t.listeners.find? kind = some r →
    ∀ n, t.begun r.number ≤ n → actsAt (p.rounds kind) n = actsAt (q.rounds kind) n

namespace Session

variable {σ : Type} {s t s' t' : Session σ}

theorem begun_of_bare (h : s.bare = s'.bare) (number : Nat) : s.begun number = s'.begun number := by
  have hb (s : Session σ) : s.bare.begun number = s.begun number := by
    rw [begun, begun, drained_bare, List.countP_map]
    apply List.countP_congr
    intro d hd
    simp only [Function.comp_def, Option.any_map]
    rfl
  rw [← hb s, ← hb s', h]

theorem find?_of_steps {V : Vendor σ} {m m' : Move} (hb : t.bare = t'.bare)
    (hreg : (s.registration? m).map (fun x => (x.1, x.2.bare)) =
      (s'.registration? m').map fun x => (x.1, x.2.bare))
    (ht : s.step? V m = some t) (ht' : s'.step? V m' = some t') {kind : EventKind}
    {r' : Registration} (hr' : t'.listeners.find? kind = some r') :
    s'.registration? m' = some (kind, r'.listener) ∨
      s'.listeners.find? kind = some r' ∧
        ∃ r, s.listeners.find? kind = some r ∧ t.listeners.find? kind = some r ∧
          r.number = r'.number := by
  have hf := find?_of_bare hb kind
  rw [hr'] at hf
  obtain ⟨r, hr, hrr⟩ := Option.map_eq_some_iff.1 hf
  have hn : r.bare.number = r'.bare.number := congrArg Registration.number hrr
  change r.number = r'.number at hn
  have hw := within_of_step? ht kind r hr
  have hw' := within_of_step? ht' kind r' hr'
  cases ha : s.registration? m with
  | none =>
    cases ha' : s'.registration? m' with
    | some x' =>
      rw [ha, ha'] at hreg
      cases hreg
    | none =>
      rw [ha] at hw
      rw [ha'] at hw'
      exact .inr ⟨hw', r, hw, hr, hn⟩
  | some x =>
    obtain ⟨k, l⟩ := x
    cases ha' : s'.registration? m' with
    | none =>
      rw [ha, ha'] at hreg
      cases hreg
    | some x' =>
      obtain ⟨k', l'⟩ := x'
      rw [ha, ha'] at hreg
      obtain rfl : k = k' := congrArg Prod.fst (Option.some.inj hreg)
      rw [ha] at hw
      rw [ha'] at hw'
      simp only [registering, Listeners.find?_register] at hw hw'
      by_cases hk : k = kind
      · rw [if_pos hk] at hw'
        cases hw'
        exact .inl (by rw [hk])
      · rw [if_neg hk] at hw hw'
        exact .inr ⟨hw', r, hw, hr, hn⟩

/-- A step leads from one plan to the next if it brings in what is planned. -/
theorem Keeps.of_steps {V : Vendor σ} {m m' : Move} {p q : Plan} (h : s'.Keeps p)
    (hlead : p.Leads q s t) (hb : t.bare = t'.bare)
    (hreg : (s.registration? m).map (fun x => (x.1, x.2.bare)) =
      (s'.registration? m').map fun x => (x.1, x.2.bare))
    (hbrings : Brings q s'.accepted.length (s'.submission? m') (s'.registration? m'))
    (ht : s.step? V m = some t) (ht' : s'.step? V m' = some t')
    (hs : s'.started <+: t'.started) (hd : s'.drained <+: t'.drained)
    (hacts : t'.pump.acts = q.current) : t'.Keeps q := by
  apply Keeps.mk
  case current => exact hacts
  case continuation =>
    intro i x hi hx
    rcases (getElem?_accepted_of_step? ht' i x).1 hx with hx | ⟨rfl, hx, -⟩
    · rw [h.continuation i x (Nat.le_trans hs.length_le hi) hx]
      exact hlead.continuation i (length_started_of_bare hb ▸ hi)
    · exact hbrings.submission x hx
  case rounds =>
    intro kind r' hr' n hn
    rcases find?_of_steps hb hreg ht ht' hr' with hx | ⟨hr', r, hr, hrt, he⟩
    · exact hbrings.registration kind r'.listener hx n
    · have hle : s'.begun r'.number ≤ t'.begun r'.number := hd.sublist.countP_le
      rw [h.rounds kind r' hr' n (Nat.le_trans hle hn)]
      apply hlead.rounds kind r hr hrt
      rw [begun_of_bare hb, he]
      exact hn

theorem registered_of_perform {V : Vendor σ} {act : Act} {kind : EventKind} {l : Listener}
    (h : s.registrationBy? act = some (kind, l)) :
    s.panic? act = none ∧
      (s.perform V act).2.listeners.find? kind = some ⟨s.registrations, l⟩ := by
  obtain ⟨ha, h⟩ := Option.ite_none_right_eq_some.1 h
  cases act with
  | on event label rounds =>
    obtain ⟨kind', hk, h⟩ := Option.map_eq_some_iff.1 h
    cases h
    refine ⟨rfl, ?_⟩
    rw [perform, ha]
    simp only [onNamed, EventKind.named, hk]
    exact (Listeners.find?_register _ _ _ _).trans (if_pos rfl)
  | _ => cases h

theorem registered_of_step? {V : Vendor σ} {m : Move} {kind : EventKind} {l : Listener}
    (hr : s.registration? m = some (kind, l)) (h : s.step? V m = some t) :
    t.listeners.find? kind = some ⟨s.registrations, l⟩ := by
  cases m with
  | on kind' l' =>
    obtain ⟨-, h⟩ := Option.ite_none_right_eq_some.1 h
    cases h
    cases hr
    exact (Listeners.find?_register _ _ _ _).trans (if_pos rfl)
  | pump =>
    change s.pumpStep? V = some t at h
    obtain ⟨act, acts, ha, hr⟩ := exists_act_of_bind hr
    obtain ⟨hq, hl⟩ := registered_of_perform (V := V) hr
    obtain ⟨stop, pump, he, -⟩ := exists_pumpStep?_eq V ha
    rw [he] at h
    apply of_performed h
    · intro text hq'
      exact nomatch hq.symm.trans hq'
    · exact fun _ _ => hl
  | _ => cases hr

/-- What the listeners of a session are to become when those that stay after a step become what is
planned. -/
structure Rounds (s t : Session σ) (q : Plan) (rounds : EventKind → List (Nat × List Act)) :
    Prop where
  thins : ∀ kind r, s.listeners.find? kind = some r → ∀ n,
    ActsThinned (r.listener.acts n) (actsAt (rounds kind) n)
  stay : ∀ kind r, s.listeners.find? kind = some r → t.listeners.find? kind = some r →
    rounds kind = q.rounds kind

theorem exists_rounds {q : Plan} (h : q.Thins t) : ∃ rounds, Rounds s t q rounds := by
  have each (kind : EventKind) : ∃ rounds,
      (∀ r, s.listeners.find? kind = some r → ∀ n,
        ActsThinned (r.listener.acts n) (actsAt rounds n)) ∧
      ∀ r, s.listeners.find? kind = some r → t.listeners.find? kind = some r →
        rounds = q.rounds kind := by
    cases hs : s.listeners.find? kind with
    | none => exact ⟨[], nofun, nofun⟩
    | some r =>
      by_cases hk : t.listeners.find? kind = some r
      · refine ⟨q.rounds kind, ?_, fun _ _ _ => rfl⟩
        intro r' hr'
        cases hr'
        exact h.rounds kind r hk
      · refine ⟨r.listener.rounds, ?_, ?_⟩
        · intro r' hr' n
          cases hr'
          exact .refl _
        · intro r' hr' hr
          cases hr'
          exact absurd hr hk
  obtain ⟨rounds, h⟩ := Classical.skolem.1 each
  exact ⟨rounds, fun kind => (h kind).1, fun kind => (h kind).2⟩

theorem exists_plan_of_goes {V : Vendor σ} {m : Move} {q : Plan} (h : q.Thins t)
    (ht : s.step? V m = some t) (hs : t.started = s.started) {current : List Act}
    (hc : ActsThinned s.pump.acts current) :
    ∃ p : Plan, p.Thins s ∧ p.Leads q s t ∧ p.current = current := by
  obtain ⟨rounds, hrounds⟩ := exists_rounds (s := s) h
  refine ⟨⟨q.continuation, rounds, current⟩, ?_, ?_, rfl⟩
  · apply Plan.Thins.mk ?_ hrounds.thins hc
    intro i x hi hx
    exact h.continuation i x (hs ▸ hi) ((getElem?_accepted_of_step? ht i x).2 (.inl hx))
  · apply Plan.Leads.mk
    case continuation => exact fun i hi => rfl
    case rounds =>
      intro kind r hr hrt n hn
      exact congrArg (actsAt · n) (hrounds.stay kind r hr hrt)

section
variable {V : Vendor σ} {vendor : σ} {m : Move} {q : Plan} (hs : s.Sound V vendor)
  (h : q.Thins t) (ht : s.step? V m = some t) (hr : s.refuses m = false)
  (hst : t.started = s.started)
include hs h ht hr hst

theorem thinned_of_submission {sub : Submission Continuation} (hsub : s.submission? m = some sub) :
    ActsThinned sub.continuation.acts (q.continuation s.accepted.length) := by
  have htake : s.takes sub = true := by
    rw [← Bool.not_eq_false]
    intro hn
    exact nomatch hr.symm.trans (refuses_iff.2 ⟨sub, hsub, hn⟩)
  apply h.continuation s.accepted.length sub
  · rw [hst]
    have hl := hs.started_prefix.length_le
    rw [List.length_zip] at hl
    exact Nat.le_trans hl (Nat.min_le_left _ _)
  · exact (getElem?_accepted_of_step? ht _ sub).2 (.inr ⟨rfl, hsub, htake⟩)

theorem exists_recoded_move (hm : m ≠ .pump) : ∃ m', m.Recoded ActsThinned m' ∧
    ∀ s' : Session σ, Brings q s.accepted.length (s'.submission? m') (s'.registration? m') := by
  cases m with
  | book request requestId k =>
    refine ⟨_, .book request requestId k.tag (thinned_of_submission hs h ht hr hst rfl), ?_⟩
    intro s'
    apply Brings.mk
    case submission =>
      intro sub hsub
      cases hsub
      rfl
    case registration => exact nofun
  | on kind l =>
    refine ⟨_, .on kind l.label (h.rounds kind _ (registered_of_step? rfl ht)), ?_⟩
    intro s'
    apply Brings.mk
    case submission => exact nofun
    case registration =>
      intro kind' l' hreg n
      cases hreg
      rfl
  | pump => exact absurd rfl hm
  | _ => exact ⟨_, .same _, fun s' => ⟨nofun, nofun⟩⟩

theorem exists_recoded_act {act : Act} {acts : List Act} (hm : m = .pump)
    (ha : s.pump.acts = act :: acts) : ∃ act', act.Recoded ActsThinned act' ∧
      ∀ s' : Session σ, s'.allows act' = s.allows act →
        Brings q s.accepted.length (s'.submissionBy? act') (s'.registrationBy? act') := by
  subst hm
  cases hal : s.allows act with
  | false =>
    refine ⟨act, .same act, ?_⟩
    intro s' hal'
    rw [submissionBy?, registrationBy?, hal']
    exact brings_nothing _ _
  | true =>
    cases act with
    | call request requestId later =>
      have hsub : s.submission? .pump = some ⟨request, requestId, ⟨0, later⟩⟩ := by
        rw [submission?_pump ha, submissionBy?, hal]
        rfl
      refine ⟨_, .call request requestId (thinned_of_submission hs h ht hr hst hsub), ?_⟩
      intro s' hal'
      rw [submissionBy?, registrationBy?, hal']
      apply Brings.mk
      case submission =>
        intro sub hsub
        cases hsub
        rfl
      case registration =>
        intro kind l hreg
        cases hreg
    | on event label rounds =>
      cases hk : EventKind.ofName? event with
      | none =>
        refine ⟨_, .same _, ?_⟩
        intro s' hal'
        rw [submissionBy?, registrationBy?, hal', Act.registration?, hk]
        exact brings_nothing _ _
      | some kind =>
        have hreg : s.registration? .pump = some (kind, ⟨label, rounds⟩) := by
          rw [registration?_pump ha, registrationBy?, hal, Act.registration?, hk]
          rfl
        refine ⟨_, .on event label (h.rounds kind _ (registered_of_step? hreg ht)), ?_⟩
        intro s' hal'
        rw [submissionBy?, registrationBy?, hal', Act.registration?, hk]
        apply Brings.mk
        case submission =>
          intro sub hsub
          cases hsub
        case registration =>
          intro kind' l' hreg n
          cases hreg
          rfl
    | _ =>
      refine ⟨_, .same _, ?_⟩
      intro s' hal'
      rw [submissionBy?, registrationBy?, hal']
      exact brings_nothing _ _

theorem exists_current (hm : m = .pump) (hgo : t.pump.acts = s.remaining) :
    ∃ current, ActsThinned s.pump.acts current ∧
      s.pump.acts.head?.map Act.bare = current.head?.map Act.bare ∧
      ∀ s' : Session σ, s.bare = s'.bare → s'.pump.acts = current → s'.remaining = q.current ∧
        Brings q s.accepted.length (s'.submission? .pump) (s'.registration? .pump) := by
  have hcurrent := h.current
  rw [hgo] at hcurrent
  cases ha : s.pump.acts with
  | nil =>
    rw [remaining, ha] at hcurrent
    refine ⟨[], .nil, rfl, ?_⟩
    intro s' _ ha'
    obtain ⟨hs, hr⟩ := nothing_brought ha'
    rw [remaining, ha', hs, hr]
    exact ⟨hcurrent.eq_nil.symm, brings_nothing _ _⟩
  | cons act acts =>
    cases hq : s.panic? act with
    | some text =>
      rw [remaining_of_panic ha hq] at hcurrent
      refine ⟨act :: acts, .refl _, rfl, ?_⟩
      intro s' hb ha'
      rw [submission?_pump ha', registration?_pump ha',
        remaining_of_panic ha' ((panic?_of_bare hb rfl).symm.trans hq)]
      refine ⟨hcurrent.eq_nil.symm, ?_⟩
      cases act with
      | panic message inSession =>
        rw [submissionBy?, registrationBy?]
        split <;> exact brings_nothing _ _
      | _ => cases hq
    | none =>
      rw [remaining_of_performed ha hq] at hcurrent
      obtain ⟨act', hact, hbrings⟩ := exists_recoded_act hs h ht hr hst hm ha
      refine ⟨act' :: q.current, .cons hact hcurrent, congrArg some hact.bare, ?_⟩
      intro s' hb ha'
      rw [submission?_pump ha', registration?_pump ha', remaining_of_performed ha'
        ((panic?_of_bare hb hact.bare).symm.trans hq)]
      exact ⟨rfl, hbrings s' (allows_of_bare hb hact.bare).symm⟩

end

/-- A plan for what comes before a step, made from one for what comes after it, and the move with
which a session that keeps to the plan makes the step. -/
structure Planned (V : Vendor σ) (vendor : σ) (s t : Session σ) (m m' : Move) (p q : Plan) :
    Prop where
  thins : p.Thins s
  recoded : m.Recoded ActsThinned m'
  alike : ∀ s' : Session σ, s.bare = s'.bare → s'.Keeps p → m = .pump →
    s.pump.act?.map Act.bare = s'.pump.act?.map Act.bare
  keeps : ∀ s' t' : Session σ, s'.Sound V vendor → s.bare = s'.bare → t.bare = t'.bare →
    s'.Keeps p → s'.step? V m' = some t' → t'.Keeps q

theorem Lapse.thins (h : Lapse s t) {q : Plan} (hq : q.Thins t) : q.Thins s := by
  apply Plan.Thins.mk
  case continuation => exact fun i x hi hx => hq.continuation i x (h.started ▸ hi) (h.accepted ▸ hx)
  case rounds => exact fun kind r hr => hq.rounds kind r (h.listeners ▸ hr)
  case current =>
    rcases h.acts with ha | ⟨request, requestId, acts, ha⟩
    · exact ha ▸ hq.current
    · exact ha ▸ .drop request requestId acts hq.current

theorem next?_of_act? {s s' : Session σ}
    (h : s.pump.act?.map Act.bare = s'.pump.act?.map Act.bare) :
    Act.next? s.pump.acts = Act.next? s'.pump.acts := by
  have hn (acts : List Act) : Act.next? acts = Act.next? (acts.head?.map Act.bare).toList := by
    cases acts with
    | nil => rfl
    | cons act acts =>
      cases act with
      | panic text inSession => cases inSession <;> rfl
      | _ => rfl
  rw [hn, hn s'.pump.acts, ← Pump.act?_eq, ← Pump.act?_eq, h]

theorem Planned.exists_step {V : Vendor σ} {vendor : σ} {m m' : Move} {p q : Plan}
    (h : Planned V vendor s t m m' p q) (hb : s.bare = s'.bare) (hk : s'.Keeps p)
    (ht : s.step? V m = some t) : ∃ t', s'.step? V m' = some t' ∧ t.bare = t'.bare := by
  have hstep := bare_step? V hb h.recoded.bare fun hm => next?_of_act? (h.alike s' hb hk hm)
  rw [ht] at hstep
  obtain ⟨t', ht', hbt⟩ := Option.map_eq_some_iff.1 hstep.symm
  exact ⟨t', ht', hbt.symm⟩

section
variable {V : Vendor σ} {vendor : σ} {q : Plan} (hs : s.Sound V vendor) (h : q.Thins t)
include hs h

theorem exists_planned_outside {m : Move} (hm : m ≠ .pump) (ht : s.step? V m = some t)
    (hr : s.refuses m = false) : ∃ p m', Planned V vendor s t m m' p q := by
  have hgo := goes_of_step? hm ht
  obtain ⟨p, hthin, hlead, hc⟩ := exists_plan_of_goes h ht hgo.started (hgo.acts ▸ h.current)
  obtain ⟨m', hrec, hbrings⟩ := exists_recoded_move hs h ht hr hgo.started hm
  have hm' : m' ≠ .pump := fun hp => hm ((Move.pump_of_bare hrec.bare).2 hp)
  refine ⟨p, m', hthin, hrec, fun _ _ _ hp => absurd hp hm, ?_⟩
  intro s' t' hs' hb hb' hk ht'
  have hgo' := goes_of_step? hm' ht'
  apply hk.of_steps hlead hb' ?_ ?_ ht ht'
  · exact hgo'.started ▸ List.prefix_rfl
  · exact hgo'.drained ▸ List.prefix_rfl
  · rw [hgo'.acts, hk.current, hc]
  · exact registration?_of_bare hb hrec.bare fun hp => absurd hp hm
  · rw [← length_accepted_of_bare hb]
    exact hbrings s'

theorem exists_planned_running (hrun : s.pump.isRunning = true) (ht : s.step? V .pump = some t)
    (hr : s.refuses .pump = false) : ∃ p m', Planned V vendor s t .pump m' p q := by
  have hgo := goes_of_pumpStep? hrun ht
  obtain ⟨current, hthinned, hhead, hcurrent⟩ := exists_current hs h ht hr hgo.started rfl hgo.acts
  obtain ⟨p, hthin, hlead, hc⟩ := exists_plan_of_goes h ht hgo.started hthinned
  have alike (s' : Session σ) (hk : s'.Keeps p) :
      s.pump.act?.map Act.bare = s'.pump.act?.map Act.bare := by
    rw [Pump.act?_eq, Pump.act?_eq, hk.current, hc, hhead]
  refine ⟨p, .pump, hthin, .same _, fun s' _ hk _ => alike s' hk, ?_⟩
  intro s' t' hs' hb hb' hk ht'
  have hgo' := goes_of_pumpStep? ((isRunning_of_bare hb).symm.trans hrun) ht'
  obtain ⟨hrem, hbrings⟩ := hcurrent s' hb (hk.current.trans hc)
  apply hk.of_steps hlead hb' ?_ ?_ ht ht'
  · exact hgo'.started ▸ List.prefix_rfl
  · exact hgo'.drained ▸ List.prefix_rfl
  · rw [hgo'.acts, hrem]
  · exact registration?_of_bare hb rfl fun _ => alike s' hk
  · rw [← length_accepted_of_bare hb]
    exact hbrings

end

theorem Begins.prefix_started (h : Begins s t) : s.started <+: t.started := by
  cases h with
  | nothing hr hs hd => exact hs ▸ List.prefix_rfl
  | continuation sub outcome hp hs hd => exact hs ▸ List.prefix_append _ _
  | listener count n r hp hl hs hd => exact hs ▸ List.prefix_rfl

theorem Begins.prefix_drained (h : Begins s t) : s.drained <+: t.drained := by
  cases h with
  | nothing hr hs hd =>
    rcases hd with hd | ⟨n, hd⟩
    · exact hd ▸ List.prefix_rfl
    · exact hd ▸ List.prefix_append _ _
  | continuation sub outcome hp hs hd => exact hd ▸ List.prefix_rfl
  | listener count n r hp hl hs hd => exact hd ▸ List.prefix_append _ _

theorem keeps_of_begins {V : Vendor σ} {p q : Plan} (hb : s.bare = s'.bare)
    (hb' : t.bare = t'.bare) (hrun : s.pump.isRunning = false) (hlead : p.Leads q s t)
    (hk : s'.Keeps p) (ht : s.step? V .pump = some t) (ht' : s'.step? V .pump = some t')
    (hacts : t'.pump.acts = q.current) : t'.Keeps q := by
  have hrun' := (isRunning_of_bare hb).symm.trans hrun
  have hbegins' := begins_of_pumpStep? hrun' ht'
  obtain ⟨-, hreg⟩ := nothing_brought (Pump.acts_of_not_running hrun)
  obtain ⟨hsub', hreg'⟩ := nothing_brought (Pump.acts_of_not_running hrun')
  apply hk.of_steps hlead hb' ?_ ?_ ht ht' hbegins'.prefix_started hbegins'.prefix_drained hacts
  · rw [hreg, hreg']
  · rw [hsub', hreg']
    exact ⟨nofun, nofun⟩

theorem begun_of_not_running (h : s.pump.isRunning = false) (number : Nat) :
    s.begun number = s.invocations number := by
  have ho : s.pump.openDelivery = [] := by
    cases hp : s.pump with
    | dispatching count n r acts answers =>
      rw [hp] at h
      cases h
    | _ => rfl
  rw [begun, drained, ho, List.append_nil, List.countP_map]
  rfl

theorem leads_beforeInvocation {q : Plan} (hrun : s.pump.isRunning = false) {n : Notification}
    {r : Registration} (hl : s.listeners.find? n.kind = some r)
    (hd : t.drained = s.drained ++ [(n, some r)])
    {rounds : EventKind → List (Nat × List Act)} (hrounds : Rounds s t q rounds) :
    (q.beforeInvocation rounds n.kind (s.invocations r.number)).Leads q s t := by
  apply Plan.Leads.mk
  case continuation => exact fun i hi => rfl
  case rounds =>
    intro kind r' hr' hrt i hi
    by_cases hk : kind = n.kind
    · subst hk
      cases hl.symm.trans hr'
      have hbegun : t.begun r.number = s.invocations r.number + 1 := by
        rw [begun, hd, List.countP_append, ← begun, begun_of_not_running hrun]
        simp
      rw [hbegun] at hi
      rw [Plan.actsAt_beforeInvocation, if_neg (Nat.ne_of_gt hi), hrounds.stay n.kind r hl hrt]
    · rw [Plan.rounds_beforeInvocation q rounds _ hk, hrounds.stay kind r' hr' hrt]

theorem alike_of_not_running (hrun : s.pump.isRunning = false) (hb : s.bare = s'.bare) :
    s.pump.act?.map Act.bare = s'.pump.act?.map Act.bare := by
  rw [Pump.act?_eq, Pump.act?_eq, Pump.acts_of_not_running hrun,
    Pump.acts_of_not_running ((isRunning_of_bare hb).symm.trans hrun)]

section
variable {V : Vendor σ} {vendor : σ} {q : Plan} (h : q.Thins t)
  (hrun : s.pump.isRunning = false) (ht : s.step? V .pump = some t)
include h hrun ht

theorem exists_planned_nothing (hr : t.pump.isRunning = false) (hst : t.started = s.started) :
    ∃ p m', Planned V vendor s t .pump m' p q := by
  have hacts : ActsThinned s.pump.acts [] := Pump.acts_of_not_running hrun ▸ .nil
  obtain ⟨p, hthin, hlead, -⟩ := exists_plan_of_goes h ht hst hacts
  refine ⟨p, .pump, hthin, .same _, fun s' hb _ _ => alike_of_not_running hrun hb, ?_⟩
  intro s' t' hs' hb hb' hk ht'
  apply keeps_of_begins hb hb' hrun hlead hk ht ht'
  have hq := h.current
  rw [Pump.acts_of_not_running hr] at hq
  rw [Pump.acts_of_not_running ((isRunning_of_bare hb').symm.trans hr), hq.eq_nil]

/-- The continuation that is begun was to become what it turns out to be. -/
theorem thins_beforeContinuation (hs : s.Sound V vendor) {sub : Submission Continuation}
    {outcome : Outcome} (hp : t.pump = .completing sub outcome sub.continuation.acts [])
    (hst : t.started = s.started ++ [(sub, outcome)])
    {rounds : EventKind → List (Nat × List Act)} (hrounds : Rounds s t q rounds) :
    (q.beforeContinuation rounds s.started.length).Thins s := by
  apply Plan.Thins.mk ?_ hrounds.thins
  · exact Pump.acts_of_not_running hrun ▸ .nil
  · intro i x hi hx
    have hx := (getElem?_accepted_of_step? ht i x).2 (.inl hx)
    rw [Plan.continuation_beforeContinuation]
    by_cases he : i = s.started.length
    · have hsub := (hs.change (.of_step? ht)).accepted_getElem? hst
      have hcurrent := h.current
      rw [← he, hx] at hsub
      rw [hp] at hcurrent
      cases hsub
      rw [if_pos he]
      exact hcurrent
    · have hl : t.started.length = s.started.length + 1 := by rw [hst, List.length_append]; rfl
      rw [if_neg he]
      exact h.continuation i x (by omega) hx

theorem exists_planned_continuation (hs : s.Sound V vendor) {sub : Submission Continuation}
    {outcome : Outcome} (hp : t.pump = .completing sub outcome sub.continuation.acts [])
    (hst : t.started = s.started ++ [(sub, outcome)]) :
    ∃ p m', Planned V vendor s t .pump m' p q := by
  have hl : t.started.length = s.started.length + 1 := by rw [hst, List.length_append]; rfl
  obtain ⟨rounds, hrounds⟩ := exists_rounds (s := s) h
  have hlead : (q.beforeContinuation rounds s.started.length).Leads q s t := by
    apply Plan.Leads.mk
    case continuation =>
      intro i hi
      exact if_neg (by omega)
    case rounds =>
      intro kind r hr hrt n hn
      exact congrArg (actsAt · n) (hrounds.stay kind r hr hrt)
  refine ⟨q.beforeContinuation rounds s.started.length, .pump,
    thins_beforeContinuation h hrun ht hs hp hst hrounds, .same _,
    fun s' hb _ _ => alike_of_not_running hrun hb, ?_⟩
  intro s' t' hs' hb hb' hk ht'
  apply keeps_of_begins hb hb' hrun hlead hk ht ht'
  have hrun' := (isRunning_of_bare hb).symm.trans hrun
  rcases (begins_of_pumpStep? hrun ht).alike (begins_of_pumpStep? hrun' ht') hb hb' with
    ⟨hr, -⟩ | ⟨sub, sub', outcome, outcome', -, hst', -, ha', -⟩ |
    ⟨n, r, r', -, -, -, -, hst', -⟩
  · rw [hp] at hr
    cases hr
  · have hx := (hs'.change (.of_step? ht')).accepted_getElem? hst'
    rcases (getElem?_accepted_of_step? ht' _ sub').1 hx with hx | ⟨-, hx, -⟩
    · rw [ha', hk.continuation _ sub' (Nat.le_refl _) hx]
      exact if_pos (length_started_of_bare hb).symm
    · rw [(nothing_brought (Pump.acts_of_not_running hrun')).1] at hx
      cases hx
  · rw [hst'] at hl
    omega

theorem thins_beforeInvocation {count : Nat} {n : Notification} {r : Registration}
    (hp : t.pump = .dispatching count n r (r.listener.acts (s.invocations r.number)) [])
    (hl : s.listeners.find? n.kind = some r) (hst : t.started = s.started)
    {rounds : EventKind → List (Nat × List Act)} (hrounds : Rounds s t q rounds) :
    (q.beforeInvocation rounds n.kind (s.invocations r.number)).Thins s := by
  apply Plan.Thins.mk
  case continuation =>
    intro i x hi hx
    exact h.continuation i x (hst ▸ hi) ((getElem?_accepted_of_step? ht i x).2 (.inl hx))
  case current => exact Pump.acts_of_not_running hrun ▸ .nil
  case rounds =>
    intro kind r' hr' i
    by_cases hk : kind = n.kind
    · subst hk
      cases hl.symm.trans hr'
      rw [Plan.actsAt_beforeInvocation]
      split
      · rename_i hi
        have hcurrent := h.current
        rw [hp] at hcurrent
        exact hi ▸ hcurrent
      · exact hrounds.thins n.kind r hl i
    · rw [Plan.rounds_beforeInvocation q rounds _ hk]
      exact hrounds.thins kind r' hr' i

theorem exists_planned_listener {count : Nat} {n : Notification} {r : Registration}
    (hp : t.pump = .dispatching count n r (r.listener.acts (s.invocations r.number)) [])
    (hl : s.listeners.find? n.kind = some r) (hst : t.started = s.started)
    (hd : t.drained = s.drained ++ [(n, some r)]) :
    ∃ p m', Planned V vendor s t .pump m' p q := by
  obtain ⟨rounds, hrounds⟩ := exists_rounds (s := s) h
  refine ⟨q.beforeInvocation rounds n.kind (s.invocations r.number), .pump,
    thins_beforeInvocation h hrun ht hp hl hst hrounds, .same _,
    fun s' hb _ _ => alike_of_not_running hrun hb, ?_⟩
  intro s' t' hs' hb hb' hk ht'
  apply keeps_of_begins hb hb' hrun (leads_beforeInvocation hrun hl hd hrounds) hk ht ht'
  have hrun' := (isRunning_of_bare hb).symm.trans hrun
  rcases (begins_of_pumpStep? hrun ht).alike (begins_of_pumpStep? hrun' ht') hb hb' with
    ⟨hr, -⟩ | ⟨sub, sub', outcome, outcome', hst', -⟩ |
    ⟨n', r₁, r', hl₁, hl', -, ha', -, hd'⟩
  · rw [hp] at hr
    cases hr
  · rw [hst] at hst'
    exact absurd hst' (by simp)
  · rw [hd] at hd'
    cases List.append_cancel_left hd'
    have hf := find?_of_bare hb n.kind
    rw [hl, hl'] at hf
    have hn : r.bare.number = r'.bare.number := congrArg Registration.number (Option.some.inj hf)
    change r.number = r'.number at hn
    rw [ha', hk.rounds n.kind r' hl' (s.invocations r.number)]
    · rw [Plan.actsAt_beforeInvocation]
      exact if_pos rfl
    · apply Nat.le_of_eq
      rw [begun_of_not_running hrun', ← hn, invocations_of_bare hb]

end

/-- A step that refuses nothing can be planned. -/
theorem exists_planned {V : Vendor σ} {vendor : σ} {m : Move} {q : Plan} (hs : s.Sound V vendor)
    (h : q.Thins t) (ht : s.step? V m = some t) (hr : s.refuses m = false) :
    ∃ p m', Planned V vendor s t m m' p q := by
  by_cases hm : m = .pump
  · subst hm
    cases hrun : s.pump.isRunning with
    | true => exact exists_planned_running hs h hrun ht hr
    | false =>
      cases begins_of_pumpStep? hrun ht with
      | nothing hr hst hd => exact exists_planned_nothing h hrun ht hr hst
      | continuation sub outcome hp hst hd => exact exists_planned_continuation h hrun ht hs hp hst
      | listener count n r hp hl hst hd => exact exists_planned_listener h hrun ht hp hl hst hd
  · exact exists_planned_outside hs h hm ht hr

end Session

end MarketFeed
