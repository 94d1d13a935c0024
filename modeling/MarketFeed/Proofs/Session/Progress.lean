import MarketFeed.Proofs.Session.Invariant

namespace MarketFeed

/-- The moves that begin nothing from outside: those of the pump, and those that bring to an end what
a submission or a callback has begun. -/
def Move.concludes : Move → Bool
  | pump | enqueue | ring => true
  | _ => false

namespace Session

variable {σ : Type}

/-- Moves that begin nothing new lead from one session to another. -/
def Reaches (V : Vendor σ) (s t : Session σ) : Prop :=
  ∃ ms : List Move, (∀ m ∈ ms, m.concludes = true) ∧ s.run V ms = some t

theorem Reaches.refl (V : Vendor σ) (s : Session σ) : Reaches V s s :=
  ⟨[], fun _ h => absurd h List.not_mem_nil, rfl⟩

theorem Reaches.trans {V : Vendor σ} {s t u : Session σ} (h : Reaches V s t)
    (h' : Reaches V t u) : Reaches V s u := by
  obtain ⟨ms, hms, hs⟩ := h
  obtain ⟨ns, hns, ht⟩ := h'
  refine ⟨ms ++ ns, ?_, ?_⟩
  · intro m hm
    rcases List.mem_append.1 hm with hm | hm
    · exact hms m hm
    · exact hns m hm
  · rw [run_append, hs]
    exact ht

theorem Reaches.of_step? {V : Vendor σ} {s t : Session σ} {m : Move} (hm : m.concludes = true)
    (h : s.step? V m = some t) : Reaches V s t := by
  refine ⟨[m], ?_, ?_⟩
  · intro x hx
    rw [List.mem_singleton.1 hx]
    exact hm
  · rw [run, List.foldlM_cons, h]
    rfl

theorem Reaches.step {V : Vendor σ} {s t : Session σ} (h : s.pumpStep? V = some t) :
    Reaches V s t :=
  .of_step? (m := .pump) rfl h

theorem Reaches.sound {V : Vendor σ} {vendor : σ} {s t : Session σ} (h : Reaches V s t)
    (hs : s.Sound V vendor) : t.Sound V vendor := by
  obtain ⟨ms, -, hr⟩ := h
  exact hs.run hr

theorem Reaches.accepted {V : Vendor σ} {s t : Session σ} (h : Reaches V s t) :
    s.mailbox.accepted <+: t.mailbox.accepted := by
  obtain ⟨ms, -, hr⟩ := h
  exact run_induction (P := fun u => s.mailbox.accepted <+: u.mailbox.accepted)
    (fun _ _ hu hc => hu.trans hc.mailChange.accepted) hr List.prefix_rfl

theorem reaches_free (V : Vendor σ) (s : Session σ) :
    ∃ t, Reaches V s t ∧ t.booked = none ∧ t.pump = s.pump ∧ t.mailbox = s.mailbox := by
  cases hb : s.booked with
  | none => exact ⟨s, .refl V s, hb, rfl, rfl⟩
  | some sub =>
    have hs : s.step? V .enqueue =
        some { s with lane := s.lane.submit sub, booked := none } := by
      simp only [step?, hb, Option.isSome_some, if_true, enqueue]
    exact ⟨_, .of_step? rfl hs, rfl, rfl, rfl⟩

theorem HostChange.completions {s u : Session σ} (hu : HostChange s u) :
    u.lane.completions = s.lane.completions := by
  cases hu <;> rfl

theorem TurnEnd.pump {s t : Session σ} (h : TurnEnd s t) :
    t.pump = .waiting ∨ t.pump = .detached := by
  cases h with
  | wait h => exact .inl rfl
  | detach log h => exact .inr rfl

theorem endCompletion_spec (s : Session σ) (sub : Submission Continuation) (outcome : Outcome)
    (answers : List Answer) (panic : Option String) :
    let t := s.endCompletion sub outcome answers panic
    (t.pump = .waiting ∨ t.pump = .detached) ∧
      t.finished = s.finished ++ [⟨sub, outcome, answers⟩] ∧
      t.lane.completions = s.lane.completions ∧ t.booked = s.booked := by
  obtain ⟨log, he⟩ := s.endCompletion_eq sub outcome answers panic
  rw [he]
  have hend := TurnEnd.of_endTurn
    { s with
      finished := s.finished ++ [⟨sub, outcome, answers⟩]
      listeners := if sub.operation = .exit then .empty else s.listeners
      inFlight := s.inFlight - 1
      log := log }
  exact ⟨hend.pump, hend.frame.1, congrArg Lane.completions hend.lane, hend.frame.2.2.2.1⟩

theorem reaches_of_completing (V : Vendor σ) {sub : Submission Continuation} {outcome : Outcome}
    {acts : List Act} {answers : List Answer} {s : Session σ}
    (hp : s.pump = .completing sub outcome acts answers) (free : s.booked = none) :
    ∃ t answers', Reaches V s t ∧ (t.pump = .waiting ∨ t.pump = .detached) ∧
      t.finished = s.finished ++ [⟨sub, outcome, answers'⟩] ∧
      t.lane.completions = s.lane.completions ∧ t.booked = none := by
  induction acts generalizing s answers with
  | nil =>
    rcases pumpStep?_completing V hp (fun _ h => by cases h) with
      ⟨answers', panic, he⟩ | ⟨_, _, _, _, hnil, _⟩
    · exact ⟨_, answers', .step he, free ▸ s.endCompletion_spec sub outcome answers' panic⟩
    · cases hnil
  | cons act acts ih =>
    rcases pumpStep?_completing V hp (fun act _ => mustWait_of_free free act) with
      ⟨answers', panic, he⟩ | ⟨_, _, answers', u, hcons, hu, he⟩
    · exact ⟨_, answers', .step he, free ▸ s.endCompletion_spec sub outcome answers' panic⟩
    · cases hcons
      obtain ⟨-, hfu, -, -, hbu⟩ := hu.frame
      obtain ⟨t, answers'', hr, hpump, hfin, hcomp, hfree⟩ :=
        ih (s := { u with pump := .completing sub outcome acts answers' }) rfl (hbu.trans free)
      refine ⟨t, answers'', (Reaches.step he).trans hr, hpump, ?_, hcomp.trans hu.completions, hfree⟩
      rw [hfin]
      exact congrArg (· ++ _) hfu

theorem endDispatch_spec {s : Session σ} {count : Nat} {n : Notification} {r : Registration}
    {acts : List Act} {answers : List Answer} (hp : s.pump = .dispatching count n r acts answers)
    (answers' : List Answer) (panic : Option String) :
    let t := s.endDispatch count n r answers' panic
    t.pump = .draining (count + 1) ∧ t.drained = s.drained ∧ t.booked = s.booked := by
  obtain ⟨log, he⟩ := s.endDispatch_eq count n r answers' panic
  rw [he]
  refine ⟨rfl, ?_, rfl⟩
  simp only [drained, hp, Pump.openDelivery, List.map_append, List.map_cons, List.map_nil,
    List.append_nil]

theorem reaches_of_dispatching (V : Vendor σ) {count : Nat} {n : Notification} {r : Registration}
    {acts : List Act} {answers : List Answer} {s : Session σ}
    (hp : s.pump = .dispatching count n r acts answers) (free : s.booked = none) :
    ∃ t, Reaches V s t ∧ t.pump = .draining (count + 1) ∧ t.drained = s.drained ∧
      t.booked = none := by
  induction acts generalizing s answers with
  | nil =>
    rcases pumpStep?_dispatching V hp (fun _ h => by cases h) with
      ⟨answers', panic, he⟩ | ⟨_, _, _, _, hnil, _⟩
    · exact ⟨_, .step he, free ▸ endDispatch_spec hp answers' panic⟩
    · cases hnil
  | cons act acts ih =>
    rcases pumpStep?_dispatching V hp (fun act _ => mustWait_of_free free act) with
      ⟨answers', panic, he⟩ | ⟨_, _, answers', u, hcons, hu, he⟩
    · exact ⟨_, .step he, free ▸ endDispatch_spec hp answers' panic⟩
    · cases hcons
      obtain ⟨hpu, -, -, -, hbu⟩ := hu.frame
      obtain ⟨t, hr, hpump, hd, hfree⟩ :=
        ih (s := { u with pump := .dispatching count n r acts answers' }) rfl (hbu.trans free)
      refine ⟨t, (Reaches.step he).trans hr, hpump, hd.trans ?_, hfree⟩
      rw [← hu.drained, drained, drained, hpu, hp]
      rfl

theorem reaches_next (V : Vendor σ) {count : Nat} {s : Session σ} (hp : s.pump = .draining count)
    (free : s.booked = none) (hq : s.mailbox.queue.items ≠ []) :
    ∃ t count', Reaches V s t ∧ t.pump = .draining count' ∧
      t.drained.length = s.drained.length + 1 ∧ t.booked = none := by
  cases hm : s.mailbox.take? with
  | none => exact absurd (Mailbox.take?_eq_none_iff.1 hm) hq
  | some r =>
    obtain ⟨n, m⟩ := r
    have hs : s.drained = s.deliveries.map fun d => (d.notification, d.listener) := by
      rw [drained, hp]
      exact List.append_nil _
    have hstep := Reaches.step (pumpStep?_take V hp hm)
    rcases beginDispatch_eq { s with mailbox := m } count n with ⟨-, log, he⟩ | ⟨r, log, -, he⟩
    · rw [he] at hstep
      refine ⟨_, _, hstep, rfl, ?_, free⟩
      rw [hs]
      simp only [drained, Pump.openDelivery, List.append_nil, List.length_map, List.length_append,
        List.length_singleton]
    · rw [he] at hstep
      obtain ⟨t, hr, hpump, hd, hfree⟩ := reaches_of_dispatching V
        (s := { s with
          mailbox := m
          state := s.state.afterEvent n.kind
          pump := .dispatching count n r (r.listener.acts (s.invocations r.number)) []
          log := log }) rfl free
      refine ⟨t, _, hstep.trans hr, hpump, ?_, hfree⟩
      rw [hd, hs]
      simp only [drained, Pump.openDelivery, List.length_map, List.length_append,
        List.length_singleton]

theorem Sound.draining_open {V : Vendor σ} {vendor : σ} {s : Session σ} (h : s.Sound V vendor)
    (hp : s.pump.isDraining = true) : s.mailbox.closed = false := by
  have hi : s.pump.standing = .idle := by
    cases hx : s.pump with
    | draining count => rfl
    | dispatching count n r acts answers => rfl
    | _ =>
      rw [hx] at hp
      cases hp
  apply Bool.eq_false_iff.2
  intro hc
  rcases h.closing.mailbox.1 hc with hcl | hd
  · exact h.closing.not_closed hi hcl
  · rw [isDetached_of_idle hi] at hd
    cases hd

theorem Sound.accepted_eq {V : Vendor σ} {vendor : σ} {s : Session σ} (h : s.Sound V vendor)
    (ho : s.mailbox.closed = false) :
    s.mailbox.accepted = s.drained.map (·.1) ++ s.mailbox.queue.items := by
  rw [h.posted.ledger.accepted, h.posted.ledger.kept ho, List.append_nil]

theorem reaches_drained {V : Vendor σ} {vendor : σ} {ns : List Notification} {count : Nat}
    {s : Session σ} (h : s.Sound V vendor) (hp : s.pump = .draining count)
    (free : s.booked = none) (hns : ns <+: s.mailbox.accepted) :
    ∃ t, Reaches V s t ∧ ns <+: t.drained.map (·.1) := by
  generalize hk : ns.length - s.drained.length = k
  induction k generalizing s count with
  | zero =>
    have ha := h.accepted_eq (h.draining_open (by rw [hp]; rfl))
    have hle : ns.length ≤ (s.drained.map (·.1)).length := by
      rw [List.length_map]
      omega
    have hd : ns <+: s.drained.map (·.1) :=
      List.prefix_of_prefix_length_le hns (ha ▸ List.prefix_append _ _) hle
    exact ⟨s, .refl V s, hd⟩
  | succ k ih =>
    have ha := congrArg List.length (h.accepted_eq (h.draining_open (by rw [hp]; rfl)))
    have hle := hns.length_le
    rw [List.length_append, List.length_map] at ha
    have hq : s.mailbox.queue.items ≠ [] := by
      intro hq
      rw [hq, List.length_nil] at ha
      omega
    obtain ⟨u, count', hr, hpump, hlen, hfree⟩ := reaches_next V hp free hq
    obtain ⟨t, hr', ht⟩ := ih (hr.sound h) hpump hfree (hns.trans hr.accepted) (by omega)
    exact ⟨t, hr.trans hr', ht⟩

theorem reaches_drained_of_isDraining {V : Vendor σ} {vendor : σ} {s : Session σ}
    (h : s.Sound V vendor) (hp : s.pump.isDraining = true) :
    ∃ t, Reaches V s t ∧ s.mailbox.accepted <+: t.drained.map (·.1) := by
  obtain ⟨f, hr, free, hpf, -⟩ := reaches_free V s
  cases hx : s.pump with
  | draining count =>
    obtain ⟨t, hr', ht⟩ := reaches_drained (hr.sound h) (hpf.trans hx) free hr.accepted
    exact ⟨t, hr.trans hr', ht⟩
  | dispatching count n r acts answers =>
    obtain ⟨u, hru, hpump, -, hfree⟩ := reaches_of_dispatching V (hpf.trans hx) free
    have hrt := hr.trans hru
    obtain ⟨t, hr', ht⟩ := reaches_drained (hrt.sound h) hpump hfree hrt.accepted
    exact ⟨t, hrt.trans hr', ht⟩
  | _ =>
    rw [hx] at hp
    cases hp

theorem Sound.closed_of_detached {V : Vendor σ} {vendor : σ} {s : Session σ} (h : s.Sound V vendor)
    (hp : s.pump = .detached) : s.mailbox.closed = true :=
  h.closing.mailbox.2 (.inr (isDetached_iff.2 (by rw [hp]; rfl)))

theorem reaches_of_woken {V : Vendor σ} {vendor : σ} {ns : List Notification} {s : Session σ}
    (h : s.Sound V vendor) (hp : s.pump = .waiting) (free : s.booked = none)
    (hc : s.lane.receive? = none) (hw : s.mailbox.wakeup = true)
    (hns : ns <+: s.mailbox.accepted) :
    ∃ t, Reaches V s t ∧ (ns <+: t.drained.map (·.1) ∨ t.mailbox.closed = true) := by
  have hturn : s.pumpStep? V = s.beginTurn? := by simp only [pumpStep?, hp]
  have hwake := Mailbox.wake?_eq_some_iff.2 ⟨hw, rfl⟩
  have hdrain (hs : s.pumpStep? V =
      some { s with mailbox := { s.mailbox with wakeup := false }, pump := .draining 0 }) :
      ∃ t, Reaches V s t ∧ (ns <+: t.drained.map (·.1) ∨ t.mailbox.closed = true) := by
    have hr := Reaches.step hs
    obtain ⟨t, hr', ht⟩ := reaches_drained (hr.sound h) rfl free (hns.trans hr.accepted)
    exact ⟨t, hr.trans hr', .inl ht⟩
  cases he : s.lane.phase with
  | ended =>
    have hs : s.pumpStep? V = some s.detach := by
      rw [hturn]
      simp only [beginTurn?, hc, he]
    exact ⟨s.detach, .step hs, .inr rfl⟩
  | waiting =>
    apply hdrain
    rw [hturn]
    simp only [beginTurn?, hc, he, hwake, Option.map_some]
  | busy sub =>
    apply hdrain
    rw [hturn]
    simp only [beginTurn?, hc, he, hwake, Option.map_some]

/-- What is in the mailbox has a wakeup stored or owed, and what is owed comes. -/
theorem reaches_of_idle {V : Vendor σ} {vendor : σ} {ns : List Notification} {s : Session σ}
    (h : s.Sound V vendor) (hp : s.pump = .waiting) (free : s.booked = none)
    (hc : s.lane.receive? = none) (hns : ns <+: s.mailbox.accepted) :
    ∃ t, Reaches V s t ∧ (ns <+: t.drained.map (·.1) ∨ t.mailbox.closed = true) := by
  cases hq : s.mailbox.queue.items with
  | nil =>
    cases hcl : s.mailbox.closed with
    | true => exact ⟨s, .refl V s, .inr hcl⟩
    | false =>
      rw [h.accepted_eq hcl, hq, List.append_nil] at hns
      exact ⟨s, .refl V s, .inl hns⟩
  | cons n rest =>
    have halert := h.posted.alert (by rw [hp]; rfl) (by rw [hq]; exact List.cons_ne_nil n rest)
    rcases halert with hw | howed
    · exact reaches_of_woken h hp free hc hw hns
    · have hring := Mailbox.ring?_eq_some_iff.2 ⟨howed, rfl⟩
      have hstep : s.step? V .ring = some
          { s with
            mailbox :=
              { s.mailbox with
                published := s.mailbox.published + 1, wakeup := true
                owed := s.mailbox.owed - 1 } } := by
        simp only [step?, hring, Option.map_some]
      have hr := Reaches.of_step? (m := .ring) rfl hstep
      obtain ⟨t, hr', ht⟩ := reaches_of_woken (hr.sound h) hp free hc rfl (hns.trans hr.accepted)
      exact ⟨t, hr.trans hr', ht⟩

/-- Between two turns, the completions that wait come first. -/
theorem reaches_of_waiting {V : Vendor σ} {vendor : σ} {ns : List Notification} {s : Session σ}
    (h : s.Sound V vendor) (hp : s.pump = .waiting) (free : s.booked = none)
    (hns : ns <+: s.mailbox.accepted) :
    ∃ t, Reaches V s t ∧ (ns <+: t.drained.map (·.1) ∨ t.mailbox.closed = true) := by
  generalize hk : s.lane.completions.items = cs
  induction cs generalizing s with
  | nil => exact reaches_of_idle h hp free (Lane.receive?_eq_none_iff.2 hk) hns
  | cons c rest ih =>
    have hc := Lane.receive?_eq_some_iff.2 ⟨rest, hk, rfl⟩
    have hs : s.pumpStep? V =
        some (beginCompletion { s with lane := { s.lane with completions := ⟨rest⟩ } } c) := by
      simp only [pumpStep?, hp, beginTurn?, hc]
    obtain ⟨log, hb⟩ := beginCompletion_eq
      { s with lane := { s.lane with completions := ⟨rest⟩ } } c
    have hr := Reaches.step hs
    obtain ⟨t, -, hr', hpump, -, hcomp, hfree⟩ := reaches_of_completing V
      (s := beginCompletion { s with lane := { s.lane with completions := ⟨rest⟩ } } c)
      (by rw [hb]) (by rw [hb]; exact free)
    have hrt := hr.trans hr'
    rcases hpump with hpump | hpump
    · obtain ⟨u, hru, hu⟩ :=
        ih (hrt.sound h) hpump hfree (hns.trans hrt.accepted) (by rw [hcomp, hb])
      exact ⟨u, hrt.trans hru, hu⟩
    · exact ⟨t, hrt, .inr ((hrt.sound h).closed_of_detached hpump)⟩

/-- Whatever is in the mailbox, the pump comes to it or the mailbox is closed. -/
theorem reaches_drained_or_closed {V : Vendor σ} {vendor : σ} {s : Session σ}
    (h : s.Sound V vendor) (hp : s.pump.standing ≠ .destroyed) :
    ∃ t, Reaches V s t ∧
      (s.mailbox.accepted <+: t.drained.map (·.1) ∨ t.mailbox.closed = true) := by
  obtain ⟨f, hr, free, hpf, -⟩ := reaches_free V s
  cases hx : s.pump with
  | unstarted =>
    have hstart : Reaches V f { f.note .pumpStarted with pump := .waiting } :=
      .step (by simp only [pumpStep?, hpf, hx])
    have hrt := hr.trans hstart
    obtain ⟨t, hr', ht⟩ := reaches_of_waiting (hrt.sound h) rfl free hrt.accepted
    exact ⟨t, hrt.trans hr', ht⟩
  | waiting =>
    obtain ⟨t, hr', ht⟩ := reaches_of_waiting (hr.sound h) (hpf.trans hx) free hr.accepted
    exact ⟨t, hr.trans hr', ht⟩
  | completing sub outcome acts answers =>
    obtain ⟨u, -, hru, hpump, -, -, hfree⟩ := reaches_of_completing V (hpf.trans hx) free
    have hrt := hr.trans hru
    rcases hpump with hpump | hpump
    · obtain ⟨t, hr', ht⟩ := reaches_of_waiting (hrt.sound h) hpump hfree hrt.accepted
      exact ⟨t, hrt.trans hr', ht⟩
    · exact ⟨u, hrt, .inr ((hrt.sound h).closed_of_detached hpump)⟩
  | draining count =>
    obtain ⟨t, hr', ht⟩ := reaches_drained_of_isDraining h (by rw [hx]; rfl)
    exact ⟨t, hr', .inl ht⟩
  | dispatching count n r acts answers =>
    obtain ⟨t, hr', ht⟩ := reaches_drained_of_isDraining h (by rw [hx]; rfl)
    exact ⟨t, hr', .inl ht⟩
  | detached => exact ⟨s, .refl V s, .inr (h.closed_of_detached hx)⟩
  | destroyed => exact absurd (by rw [hx]; rfl) hp

end Session

end MarketFeed
