import MarketFeed.Proofs.Lane.Step
import MarketFeed.Proofs.Worker.Handle

namespace MarketFeed.Lane

open Vendor

variable {σ κ : Type}

/-- The worker of a lane keeps a true account of its handle until the lane ends, and has then given
the handle up. -/
structure Handled (l : Lane σ κ) : Prop where
  tracks : l.phase ≠ .ended → l.worker.Tracks
  gone : l.phase = .ended → l.worker.GaveUp

theorem handled_fresh (vendor : σ) : (fresh vendor : Lane σ κ).Handled where
  tracks _ := Worker.tracks_fresh vendor
  gone h := by cases h

theorem Handled.of_eq {l l' : Lane σ κ} (h : l.Handled) (hw : l'.worker = l.worker)
    (hp : l'.phase = l.phase) : l'.Handled := by
  apply Handled.mk
  · rw [hw, hp]
    exact h.tracks
  · rw [hw, hp]
    exact h.gone

theorem Handled.finish {l l' : Lane σ κ} (h : l.Handled) (V : Vendor σ) (hp : l.phase = .waiting)
    (hw : l'.worker = (l.worker.release V).worker) (he : l'.phase = .ended) : l'.Handled where
  tracks hn := absurd he hn
  gone _ := by
    rw [hw]
    exact (h.tracks (not_ended_of_waiting hp)).release V

theorem Handled.execute {l l' : Lane σ κ} (h : l.Handled) (V : Vendor σ) {s : Submission κ}
    (hp : l.phase = .busy s)
    (hw : l'.worker = (l.worker.execute V s.request s.requestId).worker)
    (hp' : l'.phase = if s.operation = .exit then .ended else .waiting) : l'.Handled := by
  have ht : l.worker.Tracks := h.tracks (not_ended_of_busy hp)
  by_cases ho : s.operation = .exit
  · rw [if_pos ho] at hp'
    apply Handled.mk
    · intro hn
      exact absurd hp' hn
    · intro _
      rw [hw]
      exact ht.exit V ho _
  · rw [if_neg ho] at hp'
    apply Handled.mk
    · intro _
      rw [hw]
      exact ht.execute V ho _
    · intro he
      rw [hp'] at he
      cases he

theorem Handled.advance {V : Vendor σ} {l l' : Lane σ κ} (h : l.Handled) (ha : Advance V l l') :
    l'.Handled := by
  cases ha with
  | take s rest hp hj =>
    apply Handled.mk
    · intro _
      exact h.tracks (not_ended_of_waiting hp)
    · intro he
      cases he
  | finish rest hp hj => exact h.finish V hp rfl rfl
  | execute s e hp he =>
    obtain ⟨cs, us, hsend⟩ := (l.carryOut s e).send_eq ⟨s, e.result⟩
    rw [hsend]
    exact h.execute V hp (by rw [he]; rfl) rfl

theorem Handled.step {V : Vendor σ} {l l' : Lane σ κ} (h : l.Handled) (hs : Step V l l') :
    l'.Handled := by
  cases hs with
  | submit s => exact h.of_eq rfl rfl
  | stop => exact h.of_eq rfl rfl
  | stopAgain => exact h
  | work l' ha => exact h.advance ha
  | receive c rest hc => exact h.of_eq rfl rfl
  | stopReceiving => exact h.of_eq rfl rfl

/-- The worker's next step carries a request out with a result, and makes no call. -/
def AnswersAlone (V : Vendor σ) (l : Lane σ κ) (s : Submission κ) (r : CallResult) : Prop :=
  ∃ l', l.advance? V = some ([], l') ∧ l'.executed = l.executed ++ [⟨s, r⟩] ∧
    l'.worker.exchanges = l.worker.exchanges

theorem answersAlone_of_execute {V : Vendor σ} {l : Lane σ κ} {s : Submission κ} {r : CallResult}
    {w : Worker σ} (hp : l.phase = .busy s)
    (he : l.worker.execute V s.request s.requestId = ⟨r, [], w⟩)
    (hw : w.exchanges = l.worker.exchanges) : l.AnswersAlone V s r := by
  have ha : l.advance? V = some ([], (l.carryOut s ⟨r, [], w⟩).send ⟨s, r⟩) := by
    simp only [advance?, hp, he]
    rfl
  refine ⟨_, ha, ?_, ?_⟩
  · rw [executed_send]
    rfl
  · rw [worker_send]
    exact hw

/-- What a lane owes to the protocol of its handle. A request that the protocol forbids now fails,
but for an exit, which has nothing to release then. -/
structure KeepsProtocol (V : Vendor σ) (l : Lane σ κ) : Prop where
  protocol : HandleProtocol l.worker.exchanges
  released : l.phase = .ended →
    l.worker.exchanges.countP Exchange.closes = l.worker.exchanges.countP Exchange.opens
  refused : ∀ s, l.phase = .busy s → s.operation ≠ .exit →
    Forbidden l.worker.exchanges (s.request.vendorCall s.requestId) →
    ∃ detail, l.AnswersAlone V s (.notReady detail)
  nothing_to_release : ∀ s, l.phase = .busy s → s.operation = .exit →
    Forbidden l.worker.exchanges (s.request.vendorCall s.requestId) →
    l.AnswersAlone V s (.ok .none)

theorem Handled.keepsProtocol {l : Lane σ κ} (h : l.Handled) (V : Vendor σ) :
    l.KeepsProtocol V where
  protocol := by
    by_cases hp : l.phase = .ended
    · exact (h.gone hp).protocol
    · exact (h.tracks hp).protocol
  released hp := (h.gone hp).closed
  refused s hp ho hf := by
    have ht : l.worker.Tracks := h.tracks (not_ended_of_busy hp)
    obtain ⟨detail, he⟩ := ht.execute_forbidden V ho hf
    exact ⟨detail, answersAlone_of_execute hp he rfl⟩
  nothing_to_release s hp ho hf := by
    have ht : l.worker.Tracks := h.tracks (not_ended_of_busy hp)
    obtain ⟨request, id, k⟩ := s
    have hr : request = .exit := by cases request <;> first | rfl | cases ho
    subst hr
    exact answersAlone_of_execute hp (ht.execute_exit_forbidden V hf) rfl

end MarketFeed.Lane
