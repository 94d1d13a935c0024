import MarketFeed.Lifecycle

namespace MarketFeed.Lifecycle

/-- Two states that a session leaves in the same way, as far as its end goes. -/
structure EndsLike (a b : Lifecycle) : Prop where
  isTerminal : a.isTerminal = b.isTerminal
  closed : a = closed ↔ b = closed

theorem EndsLike.refl (a : Lifecycle) : EndsLike a a := ⟨rfl, Iff.rfl⟩

theorem endsLike_afterEvent (s : Lifecycle) (k : EventKind) : EndsLike (s.afterEvent k) s := by
  cases s with
  | exiting | closed | uninitialized => exact .refl _
  | created | initialized | active | disconnected =>
    cases k with
    | frontConnected | frontDisconnected => exact ⟨rfl, by decide⟩
    | _ => exact .refl _

theorem endsLike_afterCall (s : Lifecycle) {op : Operation} (h : op ≠ .exit) :
    EndsLike (s.afterCall op) s := by
  cases op with
  | exit => exact absurd rfl h
  | create => cases s <;> first | exact .refl _ | exact ⟨rfl, by decide⟩
  | init => cases s <;> first | exact .refl _ | exact ⟨rfl, by decide⟩
  | _ => cases s <;> exact .refl _

theorem not_isTerminal_of_accepts {s : Lifecycle} {op : Operation} (h : s.accepts op = true) :
    s.isTerminal = false := by
  cases ht : s.isTerminal with
  | false => rfl
  | true => simp only [accepts, ht, if_true, Bool.false_eq_true] at h

theorem isTerminal_of_closed {s : Lifecycle} (h : s = closed) : s.isTerminal = true := by
  rw [h]
  rfl

end MarketFeed.Lifecycle
