import MarketFeed.Loopback
import MarketFeed.Proofs.Session.Progress

namespace MarketFeed.Session

variable {σ : Type}

def completing (s : Session σ) : List (Submission Continuation) :=
  s.pump.standing.openCall.map (·.1)

/-- The requests that the worker has sent back and nobody has received. -/
def awaiting (s : Session σ) : List (Submission Continuation) :=
  s.lane.unreceived.map (·.submission)

def queued (s : Session σ) : List (Submission Continuation) := s.lane.queued ++ s.booked.toList

theorem started_eq_finished_append (s : Session σ) :
    s.started.map (·.1) = s.finished.map (·.submission) ++ s.completing := by
  rw [started, List.map_append, List.map_map]
  rfl

theorem Sound.accepted_by_place {V : Vendor σ} {vendor : σ} {s : Session σ}
    (h : s.Sound V vendor) :
    s.accepted = s.finished.map (·.submission) ++ s.completing ++ s.awaiting ++
      s.lane.executing ++ s.queued := by
  rw [← started_eq_finished_append, queued, ← List.append_assoc]
  exact h.flow.accepted_eq h.orderly

theorem Sound.inFlight_by_place {V : Vendor σ} {vendor : σ} {s : Session σ}
    (h : s.Sound V vendor) :
    s.inFlight = s.queued.length + s.lane.executing.length + s.awaiting.length +
      s.completing.length := by
  have hl := congrArg List.length h.accepted_by_place
  have hi := h.flow.inFlight
  simp only [List.length_append, List.length_map] at hl
  omega

/-- What was issued to the lane, and is about to be, is what was accepted, but for the stop at the
end. -/
theorem Sound.issued_eq {V : Vendor σ} {vendor : σ} {s : Session σ} (h : s.Sound V vendor) :
    s.lane.issued ++ s.booked.toList.map .run =
      s.accepted.map .run ++ if s.held then [] else [.stop] := by
  rw [h.flow.issued, accepted, List.map_append]
  cases hh : s.held with
  | true => simp only [if_true, List.append_nil]
  | false => simp only [h.flow.booked hh, Option.toList_none, List.map_nil, List.append_nil]

theorem Closing.nothing_behind_exit {s : Session σ} (h : s.Closing)
    {before after : List (Submission Continuation)} {sub : Submission Continuation}
    (ha : s.accepted = before ++ sub :: after) (ho : sub.operation = .exit) : after = [] := by
  cases after with
  | nil => rfl
  | cons x rest =>
    have hlast := h.exit_last sub
    rw [ha, List.dropLast_append_cons, List.dropLast_cons_of_ne_nil (List.cons_ne_nil x rest)]
      at hlast
    exact absurd ho (hlast (List.mem_append_right _ List.mem_cons_self))

/-- With the end of an exit's continuation the pump has detached. -/
theorem Closing.detached_of_finished {s : Session σ} (h : s.Closing) {f : Finished}
    (hf : f ∈ s.finished) (ho : f.operation = .exit) : s.isDetached = true := by
  cases hd : s.isDetached with
  | true => rfl
  | false => exact absurd ho (h.unfinished hd f hf)

theorem Sound.inFlight_of_detached {V : Vendor σ} {vendor : σ} {s : Session σ}
    (h : s.Sound V vendor) (hd : s.isDetached = true) : s.inFlight = 0 := by
  have hall := congrArg List.length (h.closing.detached hd).1
  have hi := h.flow.inFlight
  rw [List.length_map] at hall
  omega

theorem Sound.closed_of_finished {V : Vendor σ} {vendor : σ} {s : Session σ}
    (h : s.Sound V vendor) {f : Finished} (hf : f ∈ s.finished) (ho : f.operation = .exit) :
    s.state = .closed :=
  h.closing.closed.2 ⟨_, List.mem_append_left _ (List.mem_map_of_mem hf), ho⟩

theorem Sound.finished_of_closed {V : Vendor σ} {vendor : σ} {s : Session σ}
    (h : s.Sound V vendor) (hd : s.isDetached = true) (hc : s.state = .closed) :
    ∃ f ∈ s.finished, f.operation = .exit := by
  obtain ⟨x, hx, ho⟩ := h.closing.closed.1 hc
  rw [started, isDetached_iff.1 hd] at hx
  obtain ⟨f, hf, rfl⟩ := List.mem_map.1 ((List.append_nil _) ▸ hx)
  exact ⟨f, hf, ho⟩

/-- How the calls of a session come to an end. The calls in flight are those that were accepted and
whose continuations have not come to their end. Nothing but the worker's stop is issued behind an
exit. When the continuation of an exit has come to its end, which it does, nothing is in flight, the
session is closed, nothing is or will be in the mailbox, and the pump has detached; it detaches
nowhere else, but where nobody holds the session any more and every call has been answered. -/
structure ClosesInOrder (V : Vendor σ) (s : Session σ) : Prop where
  accepted : s.accepted = s.finished.map (·.submission) ++ s.completing ++ s.awaiting ++
    s.lane.executing ++ s.queued
  inFlight : s.inFlight = s.queued.length + s.lane.executing.length + s.awaiting.length +
    s.completing.length
  exit_last : ∀ before sub after, s.accepted = before ++ sub :: after → sub.operation = .exit →
    after = []
  issued : s.lane.issued ++ s.booked.toList.map .run =
    s.accepted.map .run ++ if s.held then [] else [.stop]
  exit_finished : ∀ f ∈ s.finished, f.operation = .exit →
    s.inFlight = 0 ∧ s.state = .closed ∧ s.mailbox.closed = true ∧ s.mailbox.pending = 0 ∧
      s.isDetached = true
  exit_finishes : ∀ sub outcome acts answers, s.pump = .completing sub outcome acts answers →
    sub.operation = .exit → ∃ t, Reaches V s t ∧ t.isDetached = true
  detached : s.isDetached = true →
    (∃ f ∈ s.finished, f.operation = .exit) ∨
      (s.held = false ∧ s.finished.map (·.submission) = s.accepted)

theorem Sound.closesInOrder {V : Vendor σ} {vendor : σ} {s : Session σ} (h : s.Sound V vendor) :
    s.ClosesInOrder V where
  accepted := h.accepted_by_place
  inFlight := h.inFlight_by_place
  exit_last _ _ _ := h.closing.nothing_behind_exit
  issued := h.issued_eq
  exit_finished f hf ho := by
    have hd := h.closing.detached_of_finished hf ho
    have hclosed := h.closing.mailbox.2 (.inr hd)
    refine ⟨h.inFlight_of_detached hd, h.closed_of_finished hf ho, hclosed, ?_, hd⟩
    exact congrArg List.length (h.posted.ledger.emptied hclosed)
  exit_finishes sub outcome acts answers hp ho := by
    obtain ⟨u, hr, free, hpu, -⟩ := reaches_free V s
    obtain ⟨t, answers', hr', -, hfin, -⟩ := reaches_of_completing V (hpu.trans hp) free
    have hrt := hr.trans hr'
    refine ⟨t, hrt, (hrt.sound h).closing.detached_of_finished (f := ⟨sub, outcome, answers'⟩) ?_ ho⟩
    rw [hfin]
    exact List.mem_concat_self
  detached hd := by
    obtain ⟨hall, hc | held⟩ := h.closing.detached hd
    · exact .inl (h.finished_of_closed hd hc)
    · exact .inr ⟨held, hall⟩

theorem closes_in_order (V : Vendor σ) (vendor : σ) {hasScheduler : Bool} {settings : Settings}
    {s₀ s : Session σ} {ms : List Move}
    (hc : create hasScheduler vendor settings = .made s₀) (hr : s₀.run V ms = some s) :
    s.ClosesInOrder V :=
  (sound_of_run hc hr).closesInOrder

theorem closes_in_order_of_life :
    ∃ s t : Session Loopback, (fresh {} {}).run Loopback.vendor life = some s ∧
      s.inFlight = 1 ∧ s.ClosesInOrder Loopback.vendor ∧
      (fresh {} {}).run Loopback.vendor (life ++ [.pump]) = some t ∧
      t.finished.map (·.operation) = [.create, .exit] ∧ t.ClosesInOrder Loopback.vendor := by
  obtain ⟨s, hs, hi⟩ := Option.map_eq_some_iff.1
    (rfl : ((fresh {} {}).run Loopback.vendor life).map (·.inFlight) = some 1)
  obtain ⟨t, ht, hf⟩ := Option.map_eq_some_iff.1
    (rfl : ((fresh {} {}).run Loopback.vendor (life ++ [.pump])).map
      (fun t => t.finished.map (·.operation)) = some [.create, .exit])
  exact ⟨s, t, hs, hi, closes_in_order Loopback.vendor {} (create_default _) hs, ht, hf,
    closes_in_order Loopback.vendor {} (create_default _) ht⟩

end MarketFeed.Session
