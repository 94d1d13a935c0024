import MarketFeed.Loopback
import MarketFeed.Proofs.Lane.Handle
import MarketFeed.Proofs.Session.Change

namespace MarketFeed

open Vendor

/-- Whatever is asked of a lane or of a session, in whatever order, and whatever the vendor does at
each call: one handle is created at most, it is used between its creation and its release only and
started before it is asked for what needs that, it is released at most once, and once the worker has
ended it is released if it was created. What the protocol forbids is not asked of the vendor. -/
theorem handle_protocol {σ : Type} (V : Vendor σ) (vendor : σ) :
    (∀ (κ : Type) (ms : List (Lane.Move κ)) (l : Lane σ κ),
      (Lane.fresh vendor).run V ms = some l → l.KeepsProtocol V) ∧
    (∀ (hasScheduler : Bool) (settings : Settings) (ms : List Move) (s₀ s : Session σ),
      Session.create hasScheduler vendor settings = .made s₀ → s₀.run V ms = some s →
      s.lane.KeepsProtocol V) := by
  apply And.intro
  · intro κ ms l h
    have hl : l.Handled :=
      Lane.run_induction (fun _ _ hl hs => hl.step hs) h (Lane.handled_fresh vendor)
    exact hl.keepsProtocol V
  · intro hasScheduler settings ms s₀ s hc h
    obtain ⟨-, -, rfl⟩ := Session.create_eq_made_iff.1 hc
    have hl : s.lane.Handled :=
      Session.lane_induction (fun _ _ hl hs => hl.step hs) h (Lane.handled_fresh vendor)
    exact hl.keepsProtocol V

theorem handle_protocol_of_exit :
    (∃ l : Lane Loopback Unit,
      (Lane.fresh {}).run Loopback.vendor
        [.submit ⟨.create "flow", none, ()⟩, .work, .work, .stop, .work] = some l ∧
      l.phase = .ended ∧ l.KeepsProtocol Loopback.vendor) ∧
    (∃ s : Session Loopback,
      (Session.fresh {} {}).run Loopback.vendor
        [.book (.create "flow") none {}, .enqueue, .book .exit none {}, .enqueue,
          .work, .work, .work, .work] = some s ∧
      s.lane.phase = .ended ∧ s.lane.KeepsProtocol Loopback.vendor) := by
  apply And.intro
  · obtain ⟨l, hl, hp⟩ := Option.map_eq_some_iff.1
      (rfl : ((Lane.fresh {}).run Loopback.vendor
        [.submit ⟨.create "flow", none, ()⟩, .work, .work, .stop, .work]).map (·.phase) =
          some .ended)
    exact ⟨l, hl, hp, (handle_protocol Loopback.vendor {}).1 _ _ _ hl⟩
  · obtain ⟨s, hs, hp⟩ := Option.map_eq_some_iff.1
      (rfl : ((Session.fresh {} {}).run Loopback.vendor
        [.book (.create "flow") none {}, .enqueue, .book .exit none {}, .enqueue,
          .work, .work, .work, .work]).map (·.lane.phase) = some .ended)
    exact ⟨s, hs, hp,
      (handle_protocol Loopback.vendor {}).2 _ _ _ _ _ (Session.create_default _) hs⟩

/-- An exit is not refused for want of a handle: it succeeds, though a release would be forbidden. -/
theorem forbidden_exit_not_refused :
    ¬ ∀ (ms : List Move) (s : Session Loopback) (sub : Submission Continuation),
      (Session.fresh {} {}).run Loopback.vendor ms = some s → s.lane.phase = .busy sub →
      Forbidden s.lane.worker.exchanges (sub.request.vendorCall sub.requestId) →
      ∃ detail, s.lane.AnswersAlone Loopback.vendor sub (.notReady detail) := by
  intro h
  have hf : Forbidden [] .release := (forbidden_iff handleProtocol_nil .release).2 rfl
  obtain ⟨detail, l, ha, he, -⟩ := h [.book .exit none {}, .enqueue, .work] _ ⟨.exit, none, {}⟩ rfl rfl hf
  cases ha
  cases he

end MarketFeed
