import MarketFeed.Proofs.Session.Closing
import MarketFeed.Proofs.Session.Delivery

namespace MarketFeed.Session

variable {σ : Type}

/-- A session that a vendor was given to, as it can be found at any time. -/
structure Sound (V : Vendor σ) (vendor : σ) (s : Session σ) : Prop where
  orderly : s.lane.Orderly V vendor
  heard : s.lane.Heard
  flow : s.Flow
  closing : s.Closing
  posted : s.Posted

theorem sound_fresh (V : Vendor σ) (vendor : σ) (settings : Settings) :
    (fresh vendor settings).Sound V vendor where
  orderly := Lane.orderly_fresh V vendor
  heard := Lane.heard_fresh vendor
  flow := flow_fresh vendor settings
  closing := closing_fresh vendor settings
  posted := posted_fresh vendor settings

theorem Sound.change {V : Vendor σ} {vendor : σ} {s t : Session σ} (h : s.Sound V vendor)
    (hc : Change V s t) : t.Sound V vendor where
  orderly := by
    rcases hc.lane with he | hl
    · exact he ▸ h.orderly
    · exact h.orderly.step hl
  heard := by
    rcases hc.lane with he | hl
    · exact he ▸ h.heard
    · exact h.heard.step hl
  flow := h.flow.change h.orderly h.heard hc.callChange
  closing := h.closing.change h.flow h.orderly h.heard hc.callChange
  posted := h.posted.change hc.mailChange

theorem Sound.run {V : Vendor σ} {vendor : σ} {s t : Session σ} {ms : List Move}
    (h : s.Sound V vendor) (hr : s.run V ms = some t) : t.Sound V vendor :=
  run_induction (fun _ _ hs hc => hs.change hc) hr h

theorem sound_of_run {V : Vendor σ} {vendor : σ} {hasScheduler : Bool} {settings : Settings}
    {s₀ s : Session σ} {ms : List Move} (hc : create hasScheduler vendor settings = .made s₀)
    (hr : s₀.run V ms = some s) : s.Sound V vendor := by
  obtain ⟨-, -, rfl⟩ := create_eq_made_iff.1 hc
  exact (sound_fresh V vendor settings).run hr

/-- The life of a session: a notification that its listener fails at, another one that nobody looks
at, and two calls of which the second is an exit, up to the end of the exit's continuation. -/
def life : List Move :=
  [.on .frontConnected ⟨"greeter", [(1, [.panic "lost" false])]⟩, .post .frontConnected, .ring,
    .pump, .pump, .pump, .pump, .pump, .post (.frontDisconnected 1),
    .book (.create "flow") none {}, .enqueue, .book .exit none ⟨0, [.panic "late" false]⟩,
    .work, .work, .enqueue, .work, .work, .pump, .pump, .pump]

end MarketFeed.Session
