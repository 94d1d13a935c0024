import MarketFeed.Loopback
import MarketFeed.Proofs.Session.Invariant
import MarketFeed.Proofs.Session.Offer

namespace MarketFeed

/-- What the hosts of some requests are told when a worker carries them out one after the other. -/
def Worker.outcomes {σ κ : Type} (V : Vendor σ) (w : Worker σ) (ss : List (Submission κ)) :
    List Outcome :=
  (w.results V ss).map (·.outcome)

theorem Worker.outcomes_append {σ κ : Type} (V : Vendor σ) (w : Worker σ)
    (xs ys : List (Submission κ)) :
    w.outcomes V (xs ++ ys) = w.outcomes V xs ++ (w.serve V xs).outcomes V ys := by
  rw [outcomes, results_append, List.map_append]
  rfl

theorem Worker.length_outcomes {σ κ : Type} (V : Vendor σ) (w : Worker σ)
    (ss : List (Submission κ)) : (w.outcomes V ss).length = ss.length := by
  rw [outcomes, List.length_map, length_results]

theorem Worker.zip_outcomes_prefix {σ κ : Type} (V : Vendor σ) (w : Worker σ)
    (xs ys : List (Submission κ)) :
    xs.zip (w.outcomes V xs) <+: (xs ++ ys).zip (w.outcomes V (xs ++ ys)) := by
  rw [outcomes_append, List.zip_append (length_outcomes V w xs).symm]
  exact List.prefix_append _ _

theorem Lane.Orderly.handed_eq {σ κ : Type} {V : Vendor σ} {vendor : σ} {l : Lane σ κ}
    (h : l.Orderly V vendor) : l.executed.map Completion.handed =
      l.served.zip ((Worker.fresh vendor).outcomes V l.served) := by
  rw [Worker.outcomes, ← h.results, List.map_map, Lane.served]
  exact List.zip_map'.symm

namespace Session

variable {σ : Type}

theorem Sound.started_prefix {V : Vendor σ} {vendor : σ} {s : Session σ} (h : s.Sound V vendor) :
    s.started <+: s.accepted.zip ((Worker.fresh vendor).outcomes V s.accepted) := by
  have hp : s.started <+: s.lane.executed.map Completion.handed := by
    rw [h.flow.handed]
    exact List.prefix_append _ _
  have ha : s.accepted =
      s.lane.served ++ (s.lane.executing ++ s.lane.queued ++ s.booked.toList) := by
    rw [accepted, h.orderly.submitted_eq, List.append_assoc, List.append_assoc, List.append_assoc]
  rw [h.orderly.handed_eq] at hp
  rw [ha]
  exact hp.trans (Worker.zip_outcomes_prefix V _ _ _)

theorem Sound.accepted_of_started {V : Vendor σ} {vendor : σ} {s : Session σ}
    (h : s.Sound V vendor) : s.started.map (·.1) <+: s.accepted := by
  have hp := h.started_prefix.map Prod.fst
  rw [List.map_fst_zip (Nat.le_of_eq (Worker.length_outcomes V _ _).symm)] at hp
  exact hp

theorem Sound.finished_of_detached {V : Vendor σ} {vendor : σ} {s : Session σ}
    (h : s.Sound V vendor) (hd : s.isDetached = true) : s.started.length = s.accepted.length := by
  have hall := congrArg List.length (h.closing.detached hd).1
  rw [started, isDetached_iff.1 hd, List.length_append, List.length_map]
  rw [List.length_map] at hall
  exact hall

/-- The requests that a session accepts are those whose submission was answered with success. At
every point the continuations that were started are those of the first of them, in the order of
acceptance and once each, and each was given the outcome of its request. Where the pump has
detached, these are all, and none of them is still running. -/
theorem completions_in_order (V : Vendor σ) (vendor : σ) {hasScheduler : Bool}
    {settings : Settings} {s₀ s : Session σ} {ms : List Move}
    (hc : create hasScheduler vendor settings = .made s₀) (hr : s₀.run V ms = some s) :
    s.accepted = Offer.accepted (s₀.offers V ms) ∧
    ∃ n ≤ s.accepted.length,
      s.started =
        (s.accepted.zip ((Worker.fresh vendor).outcomes V s.accepted)).take n ∧
      (s.isDetached = true → n = s.accepted.length ∧ s.finished.length = n) := by
  have h := sound_of_run hc hr
  have ha : s.accepted = Offer.accepted (s₀.offers V ms) := by
    obtain ⟨-, -, rfl⟩ := create_eq_made_iff.1 hc
    exact accepted_of_run hr
  refine ⟨ha, s.started.length, ?_, List.prefix_iff_eq_take.1 h.started_prefix, fun hd => ?_⟩
  · have hlen := h.started_prefix.length_le
    rw [List.length_zip, Worker.length_outcomes, Nat.min_self] at hlen
    exact hlen
  · have hall := h.finished_of_detached hd
    refine ⟨hall, ?_⟩
    rw [started, isDetached_iff.1 hd, List.length_append, List.length_map]
    rfl

/-- A subscription to nothing is refused. Then the continuation of a creation makes a call, and asks
for another creation, which is refused too; at last there is an exit. -/
def refusals : List Move :=
  [.book (.subscribe .marketData []) none {},
    .book (.create "flow") none ⟨0, [.call .tradingDay none [], .call (.create "flow") none []]⟩,
    .enqueue, .work, .work, .pump, .pump, .pump, .pump, .pump, .book .exit none {}, .enqueue,
    .work, .work, .work, .work, .pump, .pump, .pump, .pump]

theorem completions_in_order_of_refusals :
    ∃ s : Session Loopback, (fresh {} {}).run Loopback.vendor refusals = some s ∧
      s.isDetached = true ∧ s.accepted.length = 3 ∧
      ((fresh {} {}).offers Loopback.vendor refusals).map (·.taken) =
        [false, true, true, false, true] ∧
      s.accepted = Offer.accepted ((fresh {} {}).offers Loopback.vendor refusals) ∧
      ∃ n ≤ s.accepted.length,
        s.started = (s.accepted.zip
          ((Worker.fresh {}).outcomes Loopback.vendor s.accepted)).take n ∧
        (s.isDetached = true → n = s.accepted.length ∧ s.finished.length = n) := by
  obtain ⟨s, hs, he⟩ := Option.map_eq_some_iff.1
    (rfl : ((fresh {} {}).run Loopback.vendor refusals).map
      (fun s => (s.isDetached, s.accepted.length)) = some (true, 3))
  obtain ⟨hd, ha⟩ := Prod.mk.inj he
  exact ⟨s, hs, hd, ha, rfl,
    completions_in_order Loopback.vendor {} (create_default _) hs⟩

end Session

end MarketFeed
