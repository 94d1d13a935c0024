import MarketFeed.Proofs.Lane.Handle
import MarketFeed.Proofs.Session.Completion
import MarketFeed.Proofs.Session.Trace
import MarketFeed.Proofs.Worker.Flags

namespace MarketFeed

/-- What a state says of a worker that has not been told to exit. -/
structure Lifecycle.Fits {σ : Type} (s : Lifecycle) (w : Worker σ) : Prop where
  handle : s = .uninitialized ↔ w.hasHandle = false
  created : s = .created → w.initialized = false
  started : s = .initialized → w.initialized = true
  unstarted : w.hasHandle = false → w.initialized = false
  released : w.released = false

namespace Lifecycle

variable {σ : Type}

theorem fits_fresh (vendor : σ) : Fits .uninitialized (Worker.fresh vendor) where
  handle := ⟨fun _ => rfl, fun _ => rfl⟩
  created h := by cases h
  started h := by cases h
  unstarted _ := rfl
  released := rfl

theorem Fits.hasHandle {s : Lifecycle} {w : Worker σ} (h : s.Fits w)
    (hs : s ≠ .uninitialized) : w.hasHandle = true := by
  cases hw : w.hasHandle with
  | true => rfl
  | false => exact absurd (h.handle.2 hw) hs

theorem Fits.weaken {s s' : Lifecycle} {w : Worker σ} (h : s.Fits w)
    (hu : s' = .uninitialized ↔ s = .uninitialized) (hc : s' = .created → s = .created)
    (hi : s' = .initialized → s = .initialized) : s'.Fits w where
  handle := hu.trans h.handle
  created hs := h.created (hc hs)
  started hs := h.started (hi hs)
  unstarted := h.unstarted
  released := h.released

theorem Fits.afterEvent {s : Lifecycle} {w : Worker σ} (h : s.Fits w) (k : EventKind) :
    (s.afterEvent k).Fits w := by
  cases k with
  | frontConnected => apply h.weaken <;> cases s <;> decide
  | frontDisconnected => apply h.weaken <;> cases s <;> decide
  | _ =>
    rw [s.afterEvent_of_not_connection rfl]
    exact h

theorem Fits.flagChange {s : Lifecycle} {w w' : Worker σ} {op : Operation} {outcome : Outcome}
    (h : s.Fits w) (he : op ≠ .exit) (hc : Worker.FlagChange w op outcome w')
    (hr : w'.released = w.released) : (s.after (.call op outcome)).Fits w' := by
  cases hc with
  | none hh hi hno =>
    have hs : s.after (.call op outcome) = s := by
      rcases hno with ⟨f, rfl⟩ | ⟨hc, hi⟩
      · rfl
      · cases outcome with
        | error f => rfl
        | ok v => exact s.afterCall_of_other hc hi he
    rw [hs]
    exact ⟨hh ▸ h.handle, hi ▸ h.created, hi ▸ h.started, hh ▸ hi ▸ h.unstarted, hr ▸ h.released⟩
  | created ho hv hw hh hi =>
    obtain ⟨v, rfl⟩ := hv
    subst ho
    have hs : s = uninitialized := h.handle.2 hw
    subst hs
    apply Fits.mk
    case handle =>
      rw [hh]
      exact iff_of_false (fun hx => by cases hx) (fun hx => by cases hx)
    case created =>
      intro _
      rw [hi]
      exact h.unstarted hw
    case started =>
      intro hx
      cases hx
    case unstarted =>
      intro hx
      rw [hh] at hx
      cases hx
    case released => exact hr.trans h.released
  | started ho hv hw hh hi =>
    obtain ⟨v, rfl⟩ := hv
    subst ho
    have hs : s ≠ uninitialized := by
      intro hs
      rw [h.handle.1 hs] at hw
      cases hw
    apply Fits.mk
    case handle =>
      have hne : s.afterCall .init ≠ .uninitialized := by
        cases s <;> first | exact absurd rfl hs | decide
      rw [hh, hw]
      exact iff_of_false hne (fun hx => by cases hx)
    case created =>
      intro hx
      cases s <;> first | exact absurd rfl hs | cases hx
    case started => exact fun _ => hi
    case unstarted =>
      intro hx
      rw [hh, hw] at hx
      cases hx
    case released => exact hr.trans h.released

theorem Fits.execute {s : Lifecycle} {w : Worker σ} (h : s.Fits w) (V : Vendor σ) {r : Request}
    (hr : r.operation ≠ .exit) (id : Option Int32) :
    (s.after (.call r.operation (w.execute V r id).result.outcome)).Fits
      (w.execute V r id).worker :=
  h.flagChange hr (w.execute_flagChange V hr id) (w.released_execute V hr id)

end Lifecycle

namespace Session

variable {σ : Type}

/-- The worker as far as the pump has heard of it. -/
def heardOf (V : Vendor σ) (vendor : σ) (s : Session σ) : Worker σ :=
  (Worker.fresh vendor).serve V (s.started.map (·.1))

theorem Sound.started_eq {V : Vendor σ} {vendor : σ} {s : Session σ} (h : s.Sound V vendor) :
    s.started = (s.started.map (·.1)).zip
      ((Worker.fresh vendor).outcomes V (s.started.map (·.1))) := by
  have hs := started_submissions h.flow
  have hh := h.flow.handed
  rw [h.orderly.handed_eq, ← hs, Worker.outcomes_append,
    List.zip_append (Worker.length_outcomes V _ _).symm] at hh
  exact (List.append_inj_left hh (by
    rw [List.length_zip, Worker.length_outcomes, Nat.min_self, List.length_map])).symm

/-- The last outcome that was handed out is that of its request, carried out by the worker that the
pump had heard of before. -/
theorem Sound.outcome_of_last {V : Vendor σ} {vendor : σ} {t : Session σ} (h : t.Sound V vendor)
    {xs : List (Submission Continuation × Outcome)} {x : Submission Continuation × Outcome}
    (ht : t.started = xs ++ [x]) :
    x.2 = (((Worker.fresh vendor).serve V (xs.map (·.1))).execute V x.1.request
      x.1.requestId).result.outcome := by
  have he := h.started_eq
  rw [ht, List.map_append, Worker.outcomes_append,
    List.zip_append (Worker.length_outcomes V _ _).symm] at he
  have hlast := (List.append_inj' he rfl).2
  exact congrArg Prod.snd (List.singleton_inj.1 hlast)

theorem heardOf_of_started {V : Vendor σ} {vendor : σ} {s t : Session σ}
    (h : t.started = s.started) : t.heardOf V vendor = s.heardOf V vendor := by
  rw [heardOf, heardOf, h]

/-- Up to the acceptance of an exit, the state fits what the pump has heard of the worker. -/
def Follows (V : Vendor σ) (vendor : σ) (s : Session σ) : Prop :=
  ¬ s.ExitAccepted → s.state.Fits (s.heardOf V vendor)

theorem Follows.change {V : Vendor σ} {vendor : σ} {s t : Session σ} (h : s.Follows V vendor)
    (ht : t.Sound V vendor) (hc : StateChange s t) : t.Follows V vendor := by
  intro hx
  cases hc with
  | keep hs ha hst hd hp =>
    rw [hs, heardOf_of_started hst]
    exact h (by rw [← exitAccepted_of_eq ha]; exact hx)
  | accept sub hc hs ha hst hd hp =>
    have hno : sub.operation ≠ .exit := by
      intro ho
      exact hx ⟨sub, by rw [ha]; exact List.mem_concat_self, ho⟩
    rw [hs, if_neg hno, heardOf_of_started hst]
    apply h
    rintro ⟨y, hy, ho⟩
    exact hx ⟨y, by rw [ha]; exact List.mem_append_left _ hy, ho⟩
  | answer c hs ha hst hd hp =>
    have hno : c.submission.operation ≠ .exit := by
      intro ho
      exact hx (ht.closing.exitAccepted_of_started
        ⟨c.handed, by rw [hst]; exact List.mem_concat_self, ho⟩)
    have hfits := (h (by rw [← exitAccepted_of_eq ha]; exact hx)).execute V hno
      c.submission.requestId
    have hout : c.result.outcome = _ := ht.outcome_of_last hst
    have hheard : t.heardOf V vendor = ((s.heardOf V vendor).execute V c.submission.request
        c.submission.requestId).worker := by
      rw [heardOf, hst, List.map_append, Worker.serve_append]
      rfl
    rw [hs, s.stateAfter_eq_after hno, hout, hheard]
    exact hfits
  | hear n r hs ha hst hd hp =>
    rw [hs, heardOf_of_started hst]
    exact (h (by rw [← exitAccepted_of_eq ha]; exact hx)).afterEvent n.kind

theorem follows_fresh (V : Vendor σ) (vendor : σ) (settings : Settings) :
    (fresh vendor settings).Follows V vendor :=
  fun _ => Lifecycle.fits_fresh vendor

theorem Sound.follows {V : Vendor σ} {vendor : σ} {s t : Session σ} {ms : List Move}
    (h : s.Sound V vendor) (hf : s.Follows V vendor) (hr : s.run V ms = some t) :
    t.Sound V vendor ∧ t.Follows V vendor := by
  apply run_induction (P := fun u => u.Sound V vendor ∧ u.Follows V vendor) ?_ hr ⟨h, hf⟩
  rintro u v ⟨hu, hfu⟩ hc
  have hv := hu.change hc
  exact ⟨hv, hfu.change hv hc.stateChange⟩

theorem Sound.all_started {V : Vendor σ} {vendor : σ} {s : Session σ} (h : s.Sound V vendor)
    (hl : s.accepted.length ≤ s.started.length) :
    s.started.map (·.1) = s.accepted ∧ s.lane.served = s.accepted ∧ s.booked = none := by
  have ha := h.flow.accepted_eq h.orderly
  have hs := started_submissions h.flow
  have hlen := congrArg List.length ha
  simp only [List.length_append, List.length_map] at hlen
  have hun : s.lane.unreceived = [] := List.length_eq_zero_iff.1 (by omega)
  have he : s.lane.executing = [] := List.length_eq_zero_iff.1 (by omega)
  have hq : s.lane.queued = [] := List.length_eq_zero_iff.1 (by omega)
  have hb : s.booked.toList = [] := List.length_eq_zero_iff.1 (by omega)
  rw [hun, he, hq, hb] at ha
  rw [hun] at hs
  simp only [List.map_nil, List.append_nil] at ha hs
  exact ⟨ha.symm, hs.symm.trans ha.symm, Option.toList_eq_nil_iff.1 hb⟩

/-- With no call in flight everything that was accepted was carried out, and the pump knows it. -/
theorem Sound.served_of_idle {V : Vendor σ} {vendor : σ} {s : Session σ} (h : s.Sound V vendor)
    (hi : s.inFlight = 0) :
    s.started.map (·.1) = s.accepted ∧ s.lane.served = s.accepted := by
  have hf := h.flow.inFlight
  have hl : s.accepted.length ≤ s.started.length := by
    rw [started, List.length_append, List.length_map]
    omega
  obtain ⟨hstarted, hserved, -⟩ := h.all_started hl
  exact ⟨hstarted, hserved⟩

theorem Sound.exited_of_ended {V : Vendor σ} {vendor : σ} {s : Session σ} (h : s.Sound V vendor)
    (held : s.held = true) (hp : s.lane.phase = .ended) : s.lane.exited = true := by
  cases hx : s.lane.exited with
  | true => rfl
  | false =>
    have hh := (h.flow.served_of_stopped h.orderly hp hx).1
    rw [held] at hh
    cases hh

theorem Sound.worker_eq_heardOf {V : Vendor σ} {vendor : σ} {s : Session σ}
    (h : s.Sound V vendor) (held : s.held = true) (hi : s.inFlight = 0) :
    s.lane.worker = s.heardOf V vendor := by
  obtain ⟨hs, hl⟩ := h.served_of_idle hi
  rw [h.orderly.worker (h.exited_of_ended held), heardOf, hs, hl]

structure Agrees (s : Session σ) : Prop where
  uninitialized : s.state = .uninitialized ↔
    s.lane.worker.hasHandle = false ∧ ¬ s.ExitAccepted
  created : s.state = .created →
    s.lane.worker.hasHandle = true ∧ s.lane.worker.initialized = false
  initialized : s.state = .initialized →
    s.lane.worker.hasHandle = true ∧ s.lane.worker.initialized = true
  connected : s.state = .active ∨ s.state = .disconnected → s.lane.worker.hasHandle = true
  closed : s.state = .closed → s.lane.worker.hasHandle = false
  not_exiting : s.state ≠ .exiting

theorem agrees_of_fits {s : Session σ} (h : s.state.Fits s.lane.worker) (hx : ¬ s.ExitAccepted)
    (ht : s.state.isTerminal = false) : s.Agrees where
  uninitialized := h.handle.trans ⟨fun hw => ⟨hw, hx⟩, fun hw => hw.1⟩
  created hs := ⟨h.hasHandle (by rw [hs]; decide), h.created hs⟩
  initialized hs := ⟨h.hasHandle (by rw [hs]; decide), h.started hs⟩
  connected hs := by
    apply h.hasHandle
    rcases hs with hs | hs <;> rw [hs] <;> decide
  closed hs := by
    rw [hs] at ht
    cases ht
  not_exiting hs := by
    rw [hs] at ht
    cases ht

theorem agrees_of_closed {s : Session σ} (hs : s.state = .closed) (hx : s.ExitAccepted)
    (hw : s.lane.worker.hasHandle = false) : s.Agrees where
  uninitialized := by
    rw [hs]
    exact iff_of_false (fun h => by cases h) (fun h => h.2 hx)
  created h := by cases hs.symm.trans h
  initialized h := by cases hs.symm.trans h
  connected h := by rcases h with h | h <;> cases hs.symm.trans h
  closed _ := hw
  not_exiting h := by cases hs.symm.trans h

theorem Sound.closed_of_idle {V : Vendor σ} {vendor : σ} {s : Session σ} (h : s.Sound V vendor)
    (hl : s.lane.Handled) (hi : s.inFlight = 0) (hx : s.ExitAccepted) :
    s.state = .closed ∧ s.lane.worker.hasHandle = false := by
  obtain ⟨hs, hserved⟩ := h.served_of_idle hi
  obtain ⟨sub, hsub, ho⟩ := hx
  apply And.intro
  · rw [← hs] at hsub
    obtain ⟨x, hm, rfl⟩ := List.mem_map.1 hsub
    exact h.closing.closed.2 ⟨x, hm, ho⟩
  · rw [← hserved, Lane.served] at hsub
    obtain ⟨c, hm, rfl⟩ := List.mem_map.1 hsub
    have hexited : s.lane.exited = true := List.any_eq_true.2 ⟨c, hm, decide_eq_true ho⟩
    exact (hl.gone (h.orderly.exited hexited)).hasHandle

theorem handled_of_run {V : Vendor σ} {vendor : σ} {settings : Settings} {s : Session σ}
    {ms : List Move} (hr : (fresh vendor settings).run V ms = some s) : s.lane.Handled :=
  lane_induction (fun _ _ hl hs => hl.step hs) hr (Lane.handled_fresh vendor)

/-- Whenever no call is in flight and the session is held, its state agrees with its worker. -/
theorem agrees_of_idle (V : Vendor σ) (vendor : σ) {hasScheduler : Bool} {settings : Settings}
    {s₀ s : Session σ} {ms : List Move}
    (hc : create hasScheduler vendor settings = .made s₀) (hr : s₀.run V ms = some s)
    (held : s.held = true) (hi : s.inFlight = 0) : s.Agrees := by
  obtain ⟨-, -, rfl⟩ := create_eq_made_iff.1 hc
  obtain ⟨hs, hf⟩ := (sound_fresh V vendor settings).follows (follows_fresh V vendor settings) hr
  by_cases hx : s.ExitAccepted
  · obtain ⟨hclosed, hw⟩ := hs.closed_of_idle (handled_of_run hr) hi hx
    exact agrees_of_closed hclosed hx hw
  · apply agrees_of_fits _ hx
    · exact Bool.eq_false_iff.2 fun ht => hx (hs.closing.terminal.1 ht)
    · rw [hs.worker_eq_heardOf held hi]
      exact hf hx

def connecting : List Move :=
  [.book (.create "flow") none {}, .enqueue, .work, .work, .pump, .pump, .pump,
    .book .init none {}, .enqueue, .post .frontConnected, .ring, .pump, .pump, .pump,
    .work, .work, .pump, .pump]

theorem agrees_of_connecting :
    ∃ s : Session Loopback, (fresh {} {}).run Loopback.vendor connecting = some s ∧
      s.held = true ∧ s.inFlight = 0 ∧ s.state = .active ∧ s.Agrees := by
  obtain ⟨s, hs, he⟩ := Option.map_eq_some_iff.1
    (rfl : ((fresh {} {}).run Loopback.vendor connecting).map
      (fun s => (s.held, s.inFlight, s.state)) = some (true, 0, .active))
  obtain ⟨held, he⟩ := Prod.mk.inj he
  obtain ⟨hi, hstate⟩ := Prod.mk.inj he
  exact ⟨s, hs, held, hi, hstate,
    agrees_of_idle Loopback.vendor {} (create_default _) hs held hi⟩

end Session

end MarketFeed
