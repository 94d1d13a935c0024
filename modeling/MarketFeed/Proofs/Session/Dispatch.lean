import MarketFeed.Loopback
import MarketFeed.Proofs.Session.Progress

namespace MarketFeed.Session

variable {σ : Type}

/-- Only an empty mailbox ends a drain. -/
theorem Sound.drain_step {V : Vendor σ} {vendor : σ} {s t : Session σ} (h : s.Sound V vendor)
    (hp : s.pump.isDraining = true) (hc : MailChange s t) :
    t.pump.isDraining = true ∨ s.mailbox.accepted <+: t.drained.map (·.1) := by
  cases hc with
  | keep hm hd ht => exact .inl (ht.trans hp)
  | publish ns hm hd ht => exact .inl (ht.trans hp)
  | post n hm hd ht => exact .inl (ht.trans hp)
  | ring hm hd ht => exact .inl (ht.trans hp)
  | wake hm hd ht => exact .inl ht
  | take n hm hd ht hr => exact .inl ht
  | emptied hm hd hq =>
    have he : s.mailbox.accepted = t.drained.map (·.1) := by
      rw [h.accepted_eq (h.draining_open hp), hq, List.append_nil, hd]
    exact .inr (he ▸ List.prefix_rfl)
  | close hm hd hx =>
    rcases hx with hx | hx
    · rw [hp] at hx
      cases hx
    · have hopen := h.draining_open hp
      rw [h.closing.mailbox.2 (.inl hx)] at hopen
      cases hopen

/-- By the time a drain ends it has come to everything that was pending in the middle of it, whatever
else has happened meanwhile. -/
theorem Sound.drained_of_run {V : Vendor σ} {vendor : σ} {s t : Session σ} {ms : List Move}
    (h : s.Sound V vendor) (hp : s.pump.isDraining = true) (hr : s.run V ms = some t)
    (ht : t.pump.isDraining = false) : s.mailbox.accepted <+: t.drained.map (·.1) := by
  have hinv : t.Sound V vendor ∧
      ((t.pump.isDraining = true ∧ s.mailbox.accepted <+: t.mailbox.accepted) ∨
        s.mailbox.accepted <+: t.drained.map (·.1)) := by
    refine run_induction (P := fun u => u.Sound V vendor ∧
      ((u.pump.isDraining = true ∧ s.mailbox.accepted <+: u.mailbox.accepted) ∨
        s.mailbox.accepted <+: u.drained.map (·.1))) (fun u v hu hc => ⟨hu.1.change hc, ?_⟩) hr
      ⟨h, .inl ⟨hp, List.prefix_rfl⟩⟩
    have hm := hc.mailChange
    rcases hu.2 with ⟨hd, ha⟩ | ha
    · rcases hu.1.drain_step hd hm with hv | hv
      · exact .inl ⟨hv, ha.trans hm.accepted⟩
      · exact .inr (ha.trans hv)
    · exact .inr (ha.trans (hm.drained_prefix.map _))
  rcases hinv.2 with ⟨hd, -⟩ | hall
  · rw [ht] at hd
    cases hd
  · exact hall

theorem openDelivery_of_isDraining {p : Pump} (h : p.isDraining = false) :
    p.openDelivery = [] := by
  cases p with
  | dispatching count n r acts answers => cases h
  | _ => rfl

theorem Sound.drained_of_closed {V : Vendor σ} {vendor : σ} {s t : Session σ} {ms : List Move}
    (h : s.Sound V vendor) (hcl : s.mailbox.closed = true) (hr : s.run V ms = some t) :
    t.drained = s.drained ∧ t.pump.openDelivery = [] := by
  have hinv : t.Sound V vendor ∧ t.mailbox.closed = true ∧ t.drained = s.drained := by
    refine run_induction
      (P := fun u => u.Sound V vendor ∧ u.mailbox.closed = true ∧ u.drained = s.drained)
      (fun u v hu hc => ?_) hr ⟨h, hcl, rfl⟩
    obtain ⟨hsound, hclosed, hd⟩ := hu
    refine ⟨hsound.change hc, hc.mailChange.closed hclosed, ?_⟩
    rcases hc.mailChange.drained with hv | ⟨n, rest, hq, -⟩
    · exact hv.trans hd
    · rw [hsound.posted.ledger.emptied hclosed] at hq
      cases hq
  obtain ⟨hsound, hclosed, hd⟩ := hinv
  have hidle : t.pump.isDraining = false := by
    apply Bool.eq_false_iff.2
    intro hp
    rw [hsound.draining_open hp] at hclosed
    cases hclosed
  exact ⟨hd, openDelivery_of_isDraining hidle⟩

/-- What the notifications of a session can rely on. What was taken out, what was discarded when the
mailbox was closed and what is still in it are all that was accepted, in this order; each one taken
out is given to the listener of its kind, if there is one then. A drain ends with nothing left of
what it found, and when nothing new is begun the pump comes to everything that is pending unless the
mailbox is closed. Once the continuation of an exit was started, no listener is ever invoked. -/
structure Delivers (V : Vendor σ) (s : Session σ) : Prop where
  accepted : s.mailbox.accepted =
    s.drained.map (·.1) ++ s.mailbox.discarded ++ s.mailbox.queue.items
  kept : s.mailbox.closed = false → s.mailbox.discarded = []
  step : ∀ m t, s.step? V m = some t → t.drained = s.drained ∨
    ∃ n rest, s.mailbox.queue.items = n :: rest ∧ Given s t n
  drain : s.pump.isDraining = true → ∀ ms t, s.run V ms = some t → t.pump.isDraining = false →
    s.mailbox.accepted <+: t.drained.map (·.1)
  drain_ends : s.pump.isDraining = true →
    ∃ t, Reaches V s t ∧ s.mailbox.accepted <+: t.drained.map (·.1)
  no_strand : s.pump.standing ≠ .destroyed →
    ∃ t, Reaches V s t ∧
      (s.mailbox.accepted <+: t.drained.map (·.1) ∨ t.mailbox.closed = true)
  after_exit : s.ExitStarted → ∀ ms t, s.run V ms = some t →
    t.drained = s.drained ∧ t.pump.openDelivery = []

theorem Sound.delivers {V : Vendor σ} {vendor : σ} {s : Session σ} (h : s.Sound V vendor) :
    s.Delivers V where
  accepted := h.posted.ledger.accepted
  kept := h.posted.ledger.kept
  step _ _ hm := (Change.of_step? hm).mailChange.drained
  drain hp _ _ hr ht := h.drained_of_run hp hr ht
  drain_ends hp := reaches_drained_of_isDraining h hp
  no_strand hp := reaches_drained_or_closed h hp
  after_exit hx _ _ hr :=
    h.drained_of_closed (h.closing.mailbox.2 (.inl (h.closing.closed.2 hx))) hr

theorem notifications_in_order (V : Vendor σ) (vendor : σ) {hasScheduler : Bool}
    {settings : Settings} {s₀ s : Session σ} {ms : List Move}
    (hc : create hasScheduler vendor settings = .made s₀) (hr : s₀.run V ms = some s) :
    s.Delivers V :=
  (sound_of_run hc hr).delivers

theorem notifications_in_order_of_life :
    ∃ s : Session Loopback, (fresh {} {}).run Loopback.vendor life = some s ∧
      s.drained.map (·.1) = [.ofCallback .frontConnected] ∧
      s.mailbox.discarded = [.ofCallback (.frontDisconnected 1)] ∧
      s.state = .closed ∧ s.Delivers Loopback.vendor := by
  obtain ⟨s, hs, he⟩ := Option.map_eq_some_iff.1
    (rfl : ((fresh {} {}).run Loopback.vendor life).map
      (fun s => (s.drained.map (·.1), s.mailbox.discarded, s.state)) =
        some ([.ofCallback .frontConnected], [.ofCallback (.frontDisconnected 1)], .closed))
  obtain ⟨hd, he⟩ := Prod.mk.inj he
  obtain ⟨hx, hst⟩ := Prod.mk.inj he
  exact ⟨s, hs, hd, hx, hst, notifications_in_order Loopback.vendor {} (create_default _) hs⟩

end MarketFeed.Session
