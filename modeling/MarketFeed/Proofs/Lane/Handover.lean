import MarketFeed.Proofs.Lane.Step

namespace MarketFeed.Lane

variable {σ κ : Type}

/-- The completions that were sent and not received, oldest first. -/
def unreceived (l : Lane σ κ) : List (Completion κ) := l.unheard ++ l.completions.items

/-- Completions wait while somebody receives, and are lost from then on. -/
structure Heard (l : Lane σ κ) : Prop where
  waiting : l.receiving = true → l.unheard = []
  lost : l.receiving = false → l.completions.items = []

theorem heard_fresh (vendor : σ) : (fresh vendor : Lane σ κ).Heard where
  waiting _ := rfl
  lost h := by cases h

theorem Heard.unheard_of_pending {l : Lane σ κ} (h : l.Heard) {c : Completion κ}
    {rest : List (Completion κ)} (hc : l.completions.items = c :: rest) : l.unheard = [] := by
  cases hr : l.receiving with
  | true => exact h.waiting hr
  | false =>
    rw [h.lost hr] at hc
    cases hc

theorem Heard.send {l : Lane σ κ} (h : l.Heard) (c : Completion κ) : (l.send c).Heard := by
  cases hr : l.receiving with
  | true =>
    rw [Lane.send, if_pos hr]
    exact ⟨fun _ => h.waiting hr, fun hf => Bool.noConfusion (hr.symm.trans hf)⟩
  | false =>
    rw [Lane.send, if_neg (Bool.eq_false_iff.1 hr)]
    exact ⟨fun ht => Bool.noConfusion (hr.symm.trans ht), fun _ => h.lost hr⟩

theorem Heard.unreceived_send {l : Lane σ κ} (h : l.Heard) (c : Completion κ) :
    (l.send c).unreceived = l.unreceived ++ [c] := by
  cases hr : l.receiving with
  | true =>
    simp only [Lane.send, hr, if_true]
    exact (List.append_assoc l.unheard l.completions.items [c]).symm
  | false =>
    simp only [Lane.send, hr, Bool.false_eq_true, if_false, unreceived, h.lost hr, List.append_nil]

theorem Heard.advance {V : Vendor σ} {l l' : Lane σ κ} (h : l.Heard) (ha : Advance V l l') :
    l'.Heard := by
  cases ha with
  | take s rest hp hj => exact ⟨h.waiting, h.lost⟩
  | finish rest hp hj => exact ⟨h.waiting, h.lost⟩
  | execute s e hp he =>
    have hl : (l.carryOut s e).Heard := ⟨h.waiting, h.lost⟩
    exact hl.send _

theorem Heard.step {V : Vendor σ} {l l' : Lane σ κ} (h : l.Heard) (hs : Step V l l') :
    l'.Heard := by
  cases hs with
  | submit s => exact ⟨h.waiting, h.lost⟩
  | stop => exact ⟨h.waiting, h.lost⟩
  | stopAgain => exact h
  | work l' ha => exact h.advance ha
  | receive c rest hc =>
    constructor
    · exact h.waiting
    · intro hr
      have hl := h.lost hr
      rw [hc] at hl
      cases hl
  | stopReceiving => exact ⟨fun hr => Bool.noConfusion hr, fun _ => rfl⟩

theorem Heard.unreceived_advance {V : Vendor σ} {l l' : Lane σ κ} (h : l.Heard)
    (ha : Advance V l l') :
    ∃ cs, l'.executed = l.executed ++ cs ∧ l'.unreceived = l.unreceived ++ cs := by
  cases ha with
  | take s rest hp hj => exact ⟨[], (List.append_nil _).symm, (List.append_nil _).symm⟩
  | finish rest hp hj => exact ⟨[], (List.append_nil _).symm, (List.append_nil _).symm⟩
  | execute s e hp he =>
    have hl : (l.carryOut s e).Heard := ⟨h.waiting, h.lost⟩
    exact ⟨[⟨s, e.result⟩], executed_send _ _, hl.unreceived_send _⟩

theorem Advance.frame {V : Vendor σ} {l l' : Lane σ κ} (ha : Advance V l l') :
    l'.issued = l.issued ∧ l'.stopped = l.stopped ∧ l'.receiving = l.receiving := by
  cases ha with
  | take s rest hp hj => exact ⟨rfl, rfl, rfl⟩
  | finish rest hp hj => exact ⟨rfl, rfl, rfl⟩
  | execute s e hp he =>
    obtain ⟨cs, us, hsend⟩ := (l.carryOut s e).send_eq ⟨s, e.result⟩
    rw [hsend]
    exact ⟨rfl, rfl, rfl⟩

theorem Heard.unreceived_receive {l l' : Lane σ κ} {c : Completion κ} (h : l.Heard)
    (hc : l.receive? = some (c, l')) : l.unreceived = c :: l'.unreceived := by
  obtain ⟨rest, hi, rfl⟩ := receive?_eq_some_iff.1 hc
  have hu : l.unheard = [] := h.unheard_of_pending hi
  simp only [unreceived, hi, hu, List.nil_append]

end MarketFeed.Lane
