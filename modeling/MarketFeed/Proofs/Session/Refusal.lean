import MarketFeed.Proofs.Request.Validity
import MarketFeed.Proofs.Session.Recoding

namespace MarketFeed

def Offer.verdict (o : Offer) : (Request × Option Int32) × Bool := (o.asked, o.taken)

namespace Session

variable {σ : Type}

/-- How a request is to be answered: its arguments come first, then the state. -/
structure Judges (s : Session σ) (request : Request) (r : Except Failure Unit) : Prop where
  invalidArgument : (∃ text, r = .error (.invalidArgument text)) ↔ request.check ≠ .ok ()
  invalidState : ∀ op state, r = .error (.invalidState op state) ↔ request.check = .ok () ∧
    s.state.accepts request.operation = false ∧ op = request.operation ∧ state = s.state
  ok : r = .ok () ↔ request.check = .ok () ∧ s.state.accepts request.operation = true

theorem judges_book (s : Session σ) (request : Request) (requestId : Option Int32)
    (k : Continuation) : s.Judges request (s.book request requestId k).1 := by
  rw [book_fst]
  cases hc : request.check with
  | error f =>
    obtain ⟨text, rfl⟩ := ArgumentCheck.request request f hc
    apply Judges.mk
    case invalidArgument => exact ⟨fun _ => hc ▸ nofun, fun _ => ⟨text, rfl⟩⟩
    case invalidState => exact fun op state => ⟨nofun, fun h => nomatch hc.symm.trans h.1⟩
    case ok => exact ⟨nofun, fun h => nomatch hc.symm.trans h.1⟩
  | ok u =>
    simp only [Except.bind]
    cases ha : s.state.accepts request.operation with
    | false =>
      apply Judges.mk
      case invalidArgument => exact ⟨nofun, fun h => absurd hc h⟩
      case invalidState =>
        intro op state
        constructor
        · intro h
          cases h
          exact ⟨hc, ha, rfl, rfl⟩
        · rintro ⟨-, -, rfl, rfl⟩
          rfl
      case ok => exact ⟨nofun, fun h => nomatch ha.symm.trans h.2⟩
    | true =>
      apply Judges.mk
      case invalidArgument => exact ⟨nofun, fun h => absurd hc h⟩
      case invalidState => exact fun op state => ⟨nofun, fun h => nomatch ha.symm.trans h.2.1⟩
      case ok => exact ⟨fun _ => ⟨hc, ha⟩, fun _ => rfl⟩

def refuses (s : Session σ) (m : Move) : Bool := (s.submission? m).any fun sub => !s.takes sub

/-- A step in which nothing is done but to answer. -/
structure Lapse (s t : Session σ) : Prop where
  bare : t.bare = s.bare
  accepted : t.accepted = s.accepted
  started : t.started = s.started
  listeners : t.listeners = s.listeners
  acts : t.pump.acts = s.pump.acts ∨
    ∃ request requestId acts, s.pump.acts = .call request requestId acts :: t.pump.acts

theorem refuses_iff {s : Session σ} {m : Move} :
    s.refuses m = true ↔ ∃ sub, s.submission? m = some sub ∧ s.takes sub = false := by
  rw [refuses]
  cases s.submission? m with
  | none => exact ⟨nofun, nofun⟩
  | some sub => simp

theorem eq_call_of_submissionBy? {s : Session σ} {act : Act} {sub : Submission Continuation}
    (h : s.submissionBy? act = some sub) :
    s.allows act = true ∧
      act = .call sub.request sub.requestId sub.continuation.acts ∧ sub.continuation.tag = 0 := by
  obtain ⟨ha, h⟩ := Option.ite_none_right_eq_some.1 h
  cases act with
  | call request requestId acts =>
    cases h
    exact ⟨ha, rfl, rfl⟩
  | _ => cases h

theorem perform_of_refused (V : Vendor σ) {s : Session σ} {act : Act}
    {sub : Submission Continuation} (hw : s.mustWait act = false)
    (hs : s.submissionBy? act = some sub) (ht : s.takes sub = false) :
    (s.perform V act).2 = s := by
  obtain ⟨request, requestId, tag, acts⟩ := sub
  obtain ⟨ha, rfl, rfl⟩ := eq_call_of_submissionBy? hs
  rw [perform, ha]
  change (s.book request requestId ⟨0, acts⟩).2.enqueue = s
  rcases s.book_eq request requestId ⟨0, acts⟩ with ⟨-, he⟩ | ⟨ho, -⟩
  · rw [he]
    exact enqueue_of_free (free_of_not_mustWait hw rfl)
  · exact nomatch ho.symm.trans ht

/-- A refused submission leaves no trace in the session. -/
theorem lapse_of_refused {V : Vendor σ} {s t : Session σ} {m : Move} (hr : s.refuses m = true)
    (h : s.step? V m = some t) : Lapse s t := by
  obtain ⟨sub, hs, ht⟩ := refuses_iff.1 hr
  cases m with
  | book request requestId k =>
    obtain ⟨-, h⟩ := Option.ite_none_right_eq_some.1 h
    cases h
    cases hs
    rcases s.book_eq request requestId k with ⟨-, he⟩ | ⟨ho, -⟩
    · rw [he]
      exact ⟨rfl, rfl, rfl, rfl, .inl rfl⟩
    · exact nomatch ho.symm.trans ht
  | pump =>
    change s.pumpStep? V = some t at h
    obtain ⟨act, acts, ha, hs⟩ := exists_act_of_bind hs
    obtain ⟨stop, pump, he, hp, hst, hacts⟩ := exists_pumpStep?_eq V ha
    obtain ⟨-, hcall, -⟩ := eq_call_of_submissionBy? hs
    rw [he] at h
    apply of_performed h
    · intro text hq
      rw [hcall] at hq
      cases hq
    · intro hw _
      rw [perform_of_refused V hw hs ht]
      apply Lapse.mk
      case bare => exact bare_of_pump hp
      case accepted => rfl
      case started => rw [started, started, hst]
      case listeners => rfl
      case acts => exact .inr ⟨_, _, _, by rw [ha, hacts, hcall]⟩
  | _ => cases hs

end Session

end MarketFeed
