import MarketFeed.Loopback
import MarketFeed.Proofs.Session.Admission
import MarketFeed.Proofs.Session.Agreement

namespace MarketFeed

theorem Lifecycle.created_of_not_accepts {s : Lifecycle} {op : Operation}
    (hs : s.isTerminal = false) (h : s.accepts op = false) :
    s ≠ .uninitialized ∧ op = .create := by
  rw [accepts, hs, if_neg Bool.false_ne_true, Bool.or_eq_false_iff] at h
  exact ⟨ne_of_beq_false h.1, by simpa using h.2⟩

theorem Worker.getElem?_outcomes {σ κ : Type} (V : Vendor σ) (w : Worker σ)
    (xs : List (Submission κ)) (n : Nat) :
    (w.outcomes V xs)[n]? = xs[n]?.map fun x =>
      ((w.serve V (xs.take n)).execute V x.request x.requestId).result.outcome := by
  induction xs generalizing w n with
  | nil => rfl
  | cons x xs ih =>
    cases n with
    | zero => rfl
    | succ n => exact ih _ n

theorem Lane.phase_of_advance?_eq_none {σ κ : Type} {V : Vendor σ} {l : Lane σ κ}
    (h : l.advance? V = none) : l.phase = .ended ∨ l.phase = .waiting ∧ l.jobs.items = [] := by
  cases hp : l.phase with
  | ended => exact .inl rfl
  | waiting =>
    refine .inr ⟨rfl, ?_⟩
    cases hj : l.jobs.pop? with
    | none => exact Queue.pop?_eq_none_iff.1 hj
    | some r =>
      obtain ⟨job, rest⟩ := r
      cases job <;> simp only [advance?, hp, hj, reduceCtorEq] at h
  | busy sub => simp only [advance?, hp, reduceCtorEq] at h

namespace Session

open Offer (asked workerAfter execution Exits Creates Answered Fair Redundant)

variable {σ : Type}

/-- A session that was asked for some requests, as it has answered them. -/
structure Admits (V : Vendor σ) (vendor : σ) (s : Session σ) (os : List Offer) : Prop where
  accepted : s.accepted = Offer.accepted os
  fair : Fair V vendor os

theorem admits_fresh (V : Vendor σ) (vendor : σ) (settings : Settings) :
    (fresh vendor settings).Admits V vendor [] where
  accepted := rfl
  fair := Offer.fair_nil V vendor

theorem Sound.hasHandle_of_heardOf {V : Vendor σ} {vendor : σ} {s : Session σ}
    (h : s.Sound V vendor) (hx : ¬ s.ExitAccepted)
    (hh : (s.heardOf V vendor).hasHandle = true) :
    ((Worker.fresh vendor).serve V s.accepted).hasHandle = true := by
  have ha := h.flow.accepted_eq h.orderly
  rw [List.append_assoc, List.append_assoc, List.append_assoc] at ha
  rw [ha, Worker.serve_append]
  apply Worker.hasHandle_serve V ?_ hh
  intro x hm ho
  apply hx
  exact ⟨x, by rw [ha]; exact List.mem_append_right _ hm, ho⟩

/-- The state lags behind the worker, but it knows of every exit, and of a handle it knows only if
there is one. -/
theorem Sound.answered {V : Vendor σ} {vendor : σ} {s : Session σ} {os : List Offer}
    (h : s.Sound V vendor) (hf : s.Follows V vendor) (ha : s.accepted = Offer.accepted os)
    (sub : Submission Continuation) : Answered V vendor os ⟨sub, s.takes sub⟩ := by
  have hexit : Exits os ↔ s.ExitAccepted := by rw [Exits, ExitAccepted, ha]
  apply Answered.mk
  case taken =>
    intro ht
    obtain ⟨hcheck, hacc⟩ := takes_iff.1 ht
    refine ⟨hcheck, fun hx => ?_⟩
    have hterm := Lifecycle.not_isTerminal_of_accepts hacc
    rw [h.closing.terminal.2 (hexit.1 hx)] at hterm
    cases hterm
  case refused =>
    intro ht hcheck hx
    have hx' : ¬ s.ExitAccepted := fun he => hx (hexit.2 he)
    have hopen : s.state.isTerminal = false :=
      Bool.eq_false_iff.2 fun he => hx' (h.closing.terminal.1 he)
    have hrefused : s.state.accepts sub.operation = false :=
      Bool.eq_false_iff.2 fun he => Bool.eq_false_iff.1 ht (takes_iff.2 ⟨hcheck, he⟩)
    obtain ⟨hs, ho⟩ := Lifecycle.created_of_not_accepts hopen hrefused
    refine ⟨ho, ?_⟩
    rw [workerAfter, ← ha]
    exact h.hasHandle_of_heardOf hx' ((hf hx').hasHandle hs)

theorem Admits.step {V : Vendor σ} {vendor : σ} {s t : Session σ} {os : List Offer} {m : Move}
    (h : s.Admits V vendor os) (hs : s.Sound V vendor) (hf : s.Follows V vendor)
    (hm : s.step? V m = some t) : t.Admits V vendor (os ++ s.offered (s.submission? m)) where
  accepted := by
    rw [accepted_of_step? hm, h.accepted, Offer.accepted_append]
  fair := by
    cases s.submission? m with
    | none => exact (List.append_nil os).symm ▸ h.fair
    | some sub => exact h.fair.snoc (hs.answered hf h.accepted sub)

theorem Sound.admits {V : Vendor σ} {vendor : σ} {s t : Session σ} {os : List Offer}
    {ms : List Move} (hs : s.Sound V vendor) (hf : s.Follows V vendor) (h : s.Admits V vendor os)
    (hr : s.run V ms = some t) : t.Admits V vendor (os ++ s.offers V ms) := by
  induction ms generalizing s os with
  | nil =>
    cases hr
    rw [offers, List.append_nil]
    exact h
  | cons m ms ih =>
    obtain ⟨u, hm, hr⟩ := step_and_run hr
    have hc := Change.of_step? hm
    have hu := hs.change hc
    have ht := ih hu (hf.change hu hc.stateChange) (h.step hs hf hm) hr
    rw [offers, hm]
    rw [List.append_assoc] at ht
    exact ht

/-- What the host was told of a request that was taken, by its place among those it asked for. -/
def Told (s : Session σ) (os : List Offer) (i : Nat) (outcome : Outcome) : Prop :=
  ∃ o, os[i]? = some o ∧ o.taken = true ∧
    s.started[(Offer.accepted (os.take i)).length]? = some (o.submission, outcome)

theorem Sound.outcome_of_started {V : Vendor σ} {vendor : σ} {s : Session σ}
    (h : s.Sound V vendor) {n : Nat} {x : Submission Continuation × Outcome}
    (hx : s.started[n]? = some x) :
    x.2 = (((Worker.fresh vendor).serve V (s.accepted.take n)).execute V x.1.request
      x.1.requestId).result.outcome := by
  obtain ⟨rest, he⟩ := h.started_prefix
  have hz : (s.accepted.zip ((Worker.fresh vendor).outcomes V s.accepted))[n]? = some x := by
    rw [← he, List.getElem?_append_left (List.getElem?_eq_some_iff.1 hx).1]
    exact hx
  obtain ⟨ha, ho⟩ := List.getElem?_zip_eq_some.1 hz
  rw [Worker.getElem?_outcomes, ha] at ho
  exact (Option.some.inj ho).symm

theorem Told.outcome {V : Vendor σ} {vendor : σ} {s : Session σ} {os : List Offer} {i : Nat}
    {o : Offer} {outcome : Outcome} (ht : s.Told os i outcome) (h : s.Sound V vendor)
    (ha : s.Admits V vendor os) (ho : os[i]? = some o) :
    outcome = (execution V vendor (os.take i) o).result.outcome := by
  obtain ⟨p, hp, -, hs⟩ := ht
  obtain rfl : p = o := Option.some.inj (hp.symm.trans ho)
  have hout := h.outcome_of_started hs
  rw [ha.accepted, ← List.prefix_iff_eq_take.1 (Offer.accepted_take os i)] at hout
  exact hout

theorem Admits.told {V : Vendor σ} {vendor : σ} {s : Session σ} {os : List Offer}
    (ha : s.Admits V vendor os) (h : s.Sound V vendor) (hi : s.inFlight = 0) {i : Nat} {o : Offer}
    (ho : os[i]? = some o) (ht : o.taken = true) : ∃ outcome, s.Told os i outcome := by
  have hacc := Offer.accepted_getElem? ho ht
  rw [← ha.accepted, ← (h.served_of_idle hi).1, List.getElem?_map] at hacc
  obtain ⟨x, hx, hsub⟩ := Option.map_eq_some_iff.1 hacc
  refine ⟨x.2, o, ho, ht, ?_⟩
  rw [hx, ← hsub]

/-- Nothing is left to do for the worker, until more is submitted. -/
def Settled (V : Vendor σ) (s : Session σ) : Prop :=
  s.booked = none ∧ s.lane.advance? V = none

theorem Sound.accepted_eq_served_append {V : Vendor σ} {vendor : σ} {s : Session σ}
    (h : s.Sound V vendor) : ∃ rest, s.accepted = s.lane.served ++ rest := by
  refine ⟨s.lane.executing ++ s.lane.queued ++ s.booked.toList, ?_⟩
  rw [accepted, h.orderly.submitted_eq, List.append_assoc, List.append_assoc, List.append_assoc]

/-- A worker that waits with an empty queue was not told to stop. -/
theorem Sound.held_of_waiting {V : Vendor σ} {vendor : σ} {s : Session σ} (h : s.Sound V vendor)
    (hp : s.lane.phase = .waiting) (hj : s.lane.jobs.items = []) : s.held = true := by
  cases held : s.held with
  | true => rfl
  | false =>
    have hi := h.orderly.issued
    rw [h.flow.issued, held, if_neg Bool.false_ne_true, Lane.current, hp, hj, List.append_nil,
      List.append_nil] at hi
    have hm : Job.stop ∈ s.lane.served.map Job.run := by
      rw [← hi]
      exact List.mem_concat_self
    obtain ⟨_, _, hstop⟩ := List.mem_map.1 hm
    cases hstop

theorem Sound.served_of_exited {V : Vendor σ} {vendor : σ} {s : Session σ} (h : s.Sound V vendor)
    (hx : s.lane.exited = true) : s.lane.served = s.accepted := by
  obtain ⟨rest, ha⟩ := h.accepted_eq_served_append
  obtain ⟨c, hm, ho⟩ := List.any_eq_true.1 hx
  have hserved : c.submission ∈ s.lane.served := List.mem_map_of_mem hm
  obtain ⟨before, after, hs⟩ := List.append_of_mem hserved
  rw [hs, List.append_assoc] at ha
  have hnone := h.closing.nothing_behind_exit ha (of_decide_eq_true ho)
  rw [ha, hs, (List.append_eq_nil_iff.1 hnone).1, (List.append_eq_nil_iff.1 hnone).2]
  rfl

/-- The calls that have been made are the first of those that are made for what was accepted, with
the release at the end. -/
theorem Sound.exchanges_prefix {V : Vendor σ} {vendor : σ} {s : Session σ}
    (h : s.Sound V vendor) : s.lane.worker.exchanges <+:
      (((Worker.fresh vendor).serve V s.accepted).release V).worker.exchanges := by
  by_cases hw : s.lane.phase = .ended → s.lane.exited = true
  · obtain ⟨rest, ha⟩ := h.accepted_eq_served_append
    rw [h.orderly.worker hw, ha, Worker.serve_append]
    exact (Worker.exchanges_serve V _ rest).trans (Worker.exchanges_release V _)
  · obtain ⟨hp, hx⟩ := Classical.not_imp.1 hw
    have hx : s.lane.exited = false := Bool.eq_false_iff.2 hx
    have hw := h.orderly.stopped hp hx
    rw [(h.flow.served_of_stopped h.orderly hp hx).2] at hw
    exact hw ▸ List.prefix_rfl

/-- Where the worker has come to rest it has made all these calls, the release only if it was told
to. -/
theorem Sound.exchanges_of_settled {V : Vendor σ} {vendor : σ} {s : Session σ}
    (h : s.Sound V vendor) (hl : s.lane.Handled) (hs : s.Settled V) :
    s.lane.worker.exchanges =
      (if s.held then (Worker.fresh vendor).serve V s.accepted
        else (((Worker.fresh vendor).serve V s.accepted).release V).worker).exchanges := by
  obtain ⟨hb, ha⟩ := hs
  rcases Lane.phase_of_advance?_eq_none ha with hp | ⟨hp, hj⟩
  · cases hx : s.lane.exited with
    | true =>
      have hw := h.orderly.worker fun _ => hx
      rw [h.served_of_exited hx] at hw
      have hno := (hl.gone hp).hasHandle
      rw [hw] at hno
      rw [hw]
      split
      · rfl
      · exact (Worker.exchanges_release_of_no_handle V hno).symm
    | false =>
      obtain ⟨held, hserved⟩ := h.flow.served_of_stopped h.orderly hp hx
      rw [h.orderly.stopped hp hx, hserved, held, if_neg Bool.false_ne_true]
  · have hserved : s.accepted = s.lane.served := by
      have hq : s.lane.queued = [] := by rw [Lane.queued, hj]; rfl
      have he : s.lane.executing = [] := by rw [Lane.executing, hp]
      rw [accepted, h.orderly.submitted_eq, hb, hq, he, List.append_nil, List.append_nil]
      exact List.append_nil _
    have held : s.held = true := h.held_of_waiting hp hj
    rw [h.orderly.worker fun he => absurd he (Lane.not_ended_of_waiting hp), ← hserved, held,
      if_pos rfl]

/-- What comes of the requests that a session was asked for: it takes some of them, and the host is
told of each of these what it comes to, at the latest when no call is in flight. -/
structure Fulfils (V : Vendor σ) (vendor : σ) (s : Session σ) (os : List Offer) : Prop where
  accepted : s.accepted = Offer.accepted os
  outcome : ∀ i o x, os[i]? = some o → s.Told os i x →
    x = (execution V vendor (os.take i) o).result.outcome
  told : s.inFlight = 0 → ∀ i o, os[i]? = some o → o.taken = true → ∃ x, s.Told os i x

theorem Admits.fulfils {V : Vendor σ} {vendor : σ} {s : Session σ} {os : List Offer}
    (ha : s.Admits V vendor os) (h : s.Sound V vendor) : s.Fulfils V vendor os where
  accepted := ha.accepted
  outcome _ _ _ ho ht := ht.outcome h ha ho
  told hi _ _ ho ht := ha.told h hi ho ht

/-- A request that a session took in vain, and another session refused: a creation behind one that
succeeds. The worker asks nothing of the vendor for it, and its host is told of the failure. -/
structure InVain (V : Vendor σ) (vendor : σ) (s : Session σ) (os others : List Offer) (i : Nat)
    (o : Offer) : Prop where
  redundant : Redundant V vendor (os.take i) o
  created : Creates V vendor (others.take i)
  told : ∀ x, s.Told os i x → x = .error (.callFailed (-1) "native session already created")

/-- What is the same for two sessions of one vendor that are asked for the same, however the worker
and the pump come along. At any time the calls made for the one are the first of those made for the
other, or the other way round; where both workers have come to rest, and both sessions are held or
neither is, they are the same. What both sessions take has the same outcome; what only one of them
takes is taken in vain. -/
structure SameEffects (V : Vendor σ) (vendor : σ) (s₁ s₂ : Session σ)
    (os₁ os₂ : List Offer) : Prop where
  fulfils₁ : s₁.Fulfils V vendor os₁
  fulfils₂ : s₂.Fulfils V vendor os₂
  calls : s₁.lane.worker.exchanges <+: s₂.lane.worker.exchanges ∨
    s₂.lane.worker.exchanges <+: s₁.lane.worker.exchanges
  calls_settled : s₁.Settled V → s₂.Settled V → s₁.held = s₂.held →
    s₁.lane.worker.exchanges = s₂.lane.worker.exchanges
  outcome : ∀ i x y, s₁.Told os₁ i x → s₂.Told os₂ i y → x = y
  inVain₁ : ∀ i o₁ o₂, os₁[i]? = some o₁ → os₂[i]? = some o₂ → o₁.taken = true →
    o₂.taken = false → s₁.InVain V vendor os₁ os₂ i o₁
  inVain₂ : ∀ i o₁ o₂, os₁[i]? = some o₁ → os₂[i]? = some o₂ → o₁.taken = false →
    o₂.taken = true → s₂.InVain V vendor os₂ os₁ i o₂

theorem Fulfils.inVain {V : Vendor σ} {vendor : σ} {s : Session σ} {os others : List Offer}
    (h : s.Fulfils V vendor os) (hf : Fair V vendor os) (hf' : Fair V vendor others)
    (ha : os.map asked = others.map asked) {i : Nat} {o o' : Offer} (ho : os[i]? = some o)
    (ho' : others[i]? = some o') (ht : o.taken = true) (ht' : o'.taken = false) :
    s.InVain V vendor os others i o := by
  obtain ⟨hr, hc⟩ := (hf.alike_take hf' ha i).redundant (Offer.asked_eq_of_getElem? ha ho ho')
    (hf i o ho) (hf' i o' ho') ht ht'
  refine ⟨hr, hc, fun x hx => ?_⟩
  rw [h.outcome i o x ho hx, hr.execution]
  rfl

theorem Fulfils.outcome_eq {V : Vendor σ} {vendor : σ} {s₁ s₂ : Session σ} {os₁ os₂ : List Offer}
    (h₁ : s₁.Fulfils V vendor os₁) (h₂ : s₂.Fulfils V vendor os₂) (hf₁ : Fair V vendor os₁)
    (hf₂ : Fair V vendor os₂) (ha : os₁.map asked = os₂.map asked) {i : Nat} {x y : Outcome}
    (hx : s₁.Told os₁ i x) (hy : s₂.Told os₂ i y) : x = y := by
  obtain ⟨o₁, ho₁, -, -⟩ := id hx
  obtain ⟨o₂, ho₂, -, -⟩ := id hy
  rw [h₁.outcome i o₁ x ho₁ hx, h₂.outcome i o₂ y ho₂ hy,
    Offer.execution_eq_of_asked (hf₁.alike_take hf₂ ha i) (Offer.asked_eq_of_getElem? ha ho₁ ho₂)]

theorem Admits.sameEffects {V : Vendor σ} {vendor : σ} {s₁ s₂ : Session σ} {os₁ os₂ : List Offer}
    (h₁ : s₁.Admits V vendor os₁) (h₂ : s₂.Admits V vendor os₂) (hs₁ : s₁.Sound V vendor)
    (hs₂ : s₂.Sound V vendor) (hl₁ : s₁.lane.Handled) (hl₂ : s₂.lane.Handled)
    (ha : os₁.map asked = os₂.map asked) : SameEffects V vendor s₁ s₂ os₁ os₂ := by
  have hw : (Worker.fresh vendor).serve V s₁.accepted =
      (Worker.fresh vendor).serve V s₂.accepted := by
    rw [h₁.accepted, h₂.accepted]
    exact (h₁.fair.alike h₂.fair ha).worker
  have hf₁ := h₁.fulfils hs₁
  have hf₂ := h₂.fulfils hs₂
  apply SameEffects.mk
  case fulfils₁ => exact hf₁
  case fulfils₂ => exact hf₂
  case calls =>
    have hp₁ := hs₁.exchanges_prefix
    rw [hw] at hp₁
    exact List.prefix_or_prefix_of_prefix hp₁ hs₂.exchanges_prefix
  case calls_settled =>
    intro hq₁ hq₂ held
    rw [hs₁.exchanges_of_settled hl₁ hq₁, hs₂.exchanges_of_settled hl₂ hq₂, hw, held]
  case outcome =>
    intro i x y
    exact hf₁.outcome_eq hf₂ h₁.fair h₂.fair ha
  case inVain₁ =>
    intro i o₁ o₂ ho₁ ho₂ ht₁ ht₂
    exact hf₁.inVain h₁.fair h₂.fair ha ho₁ ho₂ ht₁ ht₂
  case inVain₂ =>
    intro i o₁ o₂ ho₁ ho₂ ht₁ ht₂
    exact hf₂.inVain h₂.fair h₁.fair ha.symm ho₂ ho₁ ht₂ ht₁

theorem admits_of_run {V : Vendor σ} {vendor : σ} {settings : Settings} {s : Session σ}
    {ms : List Move} (hr : (fresh vendor settings).run V ms = some s) :
    s.Admits V vendor ((fresh vendor settings).offers V ms) :=
  (sound_fresh V vendor settings).admits (follows_fresh V vendor settings)
    (admits_fresh V vendor settings) hr

/-- Any two runs in which the same is asked for, one request after the other, have the same effects,
however much of what was asked for is done in between. -/
theorem same_effects_of_same_requests (V : Vendor σ) (vendor : σ)
    {hasScheduler₁ hasScheduler₂ : Bool} {settings₁ settings₂ : Settings}
    {s₁ s₂ t₁ t₂ : Session σ} {ms₁ ms₂ : List Move}
    (hc₁ : create hasScheduler₁ vendor settings₁ = .made s₁) (hr₁ : s₁.run V ms₁ = some t₁)
    (hc₂ : create hasScheduler₂ vendor settings₂ = .made s₂) (hr₂ : s₂.run V ms₂ = some t₂)
    (ha : (s₁.offers V ms₁).map asked = (s₂.offers V ms₂).map asked) :
    SameEffects V vendor t₁ t₂ (s₁.offers V ms₁) (s₂.offers V ms₂) := by
  have hs₁ := sound_of_run hc₁ hr₁
  have hs₂ := sound_of_run hc₂ hr₂
  obtain ⟨-, -, rfl⟩ := create_eq_made_iff.1 hc₁
  obtain ⟨-, -, rfl⟩ := create_eq_made_iff.1 hc₂
  exact (admits_of_run hr₁).sameEffects (admits_of_run hr₂) hs₁ hs₂ (handled_of_run hr₁)
    (handled_of_run hr₂) ha

def pipelined : List Move :=
  [.book (.create "flow") none {}, .enqueue, .book (.create "flow") none {}, .enqueue,
    .work, .work, .work, .work, .pump, .pump, .pump, .pump, .pump]

def awaited : List Move :=
  [.book (.create "flow") none {}, .enqueue, .work, .work, .pump, .pump, .pump,
    .book (.create "flow") none {}]

theorem same_effects_of_two_creations :
    ∃ s t : Session Loopback,
      (fresh {} {}).run Loopback.vendor pipelined = some s ∧
      (fresh {} {}).run Loopback.vendor awaited = some t ∧
      ((fresh {} {}).offers Loopback.vendor pipelined).map (·.taken) = [true, true] ∧
      ((fresh {} {}).offers Loopback.vendor awaited).map (·.taken) = [true, false] ∧
      s.inFlight = 0 ∧ t.inFlight = 0 ∧
      SameEffects Loopback.vendor {} s t ((fresh {} {}).offers Loopback.vendor pipelined)
        ((fresh {} {}).offers Loopback.vendor awaited) := by
  obtain ⟨s, hs, his⟩ := Option.map_eq_some_iff.1
    (rfl : ((fresh {} {}).run Loopback.vendor pipelined).map (·.inFlight) = some 0)
  obtain ⟨t, ht, hit⟩ := Option.map_eq_some_iff.1
    (rfl : ((fresh {} {}).run Loopback.vendor awaited).map (·.inFlight) = some 0)
  exact ⟨s, t, hs, ht, rfl, rfl, his, hit, same_effects_of_same_requests Loopback.vendor {}
    (create_default _) hs (create_default _) ht rfl⟩

end Session

end MarketFeed
