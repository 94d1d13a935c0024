import MarketFeed.Proofs.Session.Flow

namespace MarketFeed

/-- A submission, and whether it was accepted. -/
structure Offer where
  submission : Submission Continuation
  taken : Bool

namespace Offer

def asked (o : Offer) : Request × Option Int32 :=
  (o.submission.request, o.submission.requestId)

def accepted (os : List Offer) : List (Submission Continuation) :=
  (os.filter (·.taken)).map (·.submission)

theorem accepted_append (os ps : List Offer) : accepted (os ++ ps) = accepted os ++ accepted ps := by
  rw [accepted, List.filter_append, List.map_append]
  rfl

theorem accepted_of_taken {o : Offer} (h : o.taken = true) : accepted [o] = [o.submission] := by
  rw [accepted, List.filter_cons_of_pos h]
  rfl

theorem accepted_of_not_taken {o : Offer} (h : o.taken = false) : accepted [o] = [] := by
  rw [accepted, List.filter_cons_of_neg (Bool.eq_false_iff.1 h)]
  rfl

end Offer

def Act.submission? : Act → Option (Submission Continuation)
  | call request requestId acts => some ⟨request, requestId, ⟨0, acts⟩⟩
  | _ => none

def Pump.act? : Pump → Option Act
  | completing _ _ (act :: _) _ => some act
  | dispatching _ _ _ (act :: _) _ => some act
  | _ => none

namespace Session

variable {σ : Type}

/-- What an act submits. Nothing can be submitted to a session that is gone. -/
def submissionBy? (s : Session σ) (act : Act) : Option (Submission Continuation) :=
  if s.allows act then act.submission? else none

def submission? (s : Session σ) : Move → Option (Submission Continuation)
  | .book request requestId k => some ⟨request, requestId, k⟩
  | .pump => s.pump.act?.bind s.submissionBy?
  | _ => none

def takes (s : Session σ) (sub : Submission Continuation) : Bool :=
  (s.book sub.request sub.requestId sub.continuation).1.isOk

/-- The submission of a move, as it is answered. -/
def offered (s : Session σ) (sub? : Option (Submission Continuation)) : List Offer :=
  sub?.toList.map fun sub => ⟨sub, s.takes sub⟩

/-- What is submitted in the course of a run, by the holders of the session or in host code on its
pump. -/
def offers (V : Vendor σ) (s : Session σ) : List Move → List Offer
  | [] => []
  | m :: ms =>
    match s.step? V m with
    | none => []
    | some t => s.offered (s.submission? m) ++ offers V t ms

theorem takes_iff {s : Session σ} {sub : Submission Continuation} :
    s.takes sub = true ↔
      sub.request.check = .ok () ∧ s.state.accepts sub.operation = true := by
  rw [takes, book]
  cases hc : sub.request.check with
  | error f => simp [Except.isOk, Except.toBool]
  | ok u =>
    cases ha : s.state.accepts sub.operation with
    | false =>
      have ha' : s.state.accepts sub.request.operation = false := ha
      simp [ha', Except.isOk, Except.toBool]
    | true =>
      have ha' : s.state.accepts sub.request.operation = true := ha
      simp [ha', Except.isOk, Except.toBool]

theorem accepted_book {s : Session σ} (free : s.booked = none)
    (sub : Submission Continuation) :
    (s.book sub.request sub.requestId sub.continuation).2.accepted =
      s.accepted ++ Offer.accepted (s.offered (some sub)) := by
  change _ = s.accepted ++ Offer.accepted [⟨sub, s.takes sub⟩]
  rcases s.book_eq sub.request sub.requestId sub.continuation with
    ⟨ht, he⟩ | ⟨ht, -, -, log, he⟩
  · rw [he, Offer.accepted_of_not_taken ht, List.append_nil]
  · rw [he, Offer.accepted_of_taken ht]
    exact accepted_of_accept free (.inl ⟨rfl, rfl⟩)

theorem accepted_enqueue (s : Session σ) : s.enqueue.accepted = s.accepted := by
  cases hb : s.booked with
  | none => rw [enqueue_of_free hb]
  | some sub =>
    rw [enqueue, hb]
    exact accepted_of_enqueue hb rfl rfl

theorem accepted_perform (V : Vendor σ) {s : Session σ} {act : Act}
    (hw : s.mustWait act = false) :
    (s.perform V act).2.accepted =
      s.accepted ++ Offer.accepted (s.offered (s.submissionBy? act)) := by
  unfold Session.perform submissionBy?
  cases ha : s.allows act with
  | false => exact (List.append_nil _).symm
  | true =>
    cases act with
    | call request requestId acts =>
      have free := free_of_not_mustWait hw rfl
      exact (accepted_enqueue _).trans (accepted_book free ⟨request, requestId, ⟨0, acts⟩⟩)
    | on event label rounds =>
      simp only [Bool.not_true, Bool.false_eq_true, if_false, onNamed]
      cases EventKind.named event with
      | error f => exact (List.append_nil _).symm
      | ok kind => exact (List.append_nil _).symm
    | emit callbacks =>
      simp only [Bool.not_true, Bool.false_eq_true, if_false, Session.emit]
      cases V.isListening s.lane.worker.vendor with
      | true => exact (List.append_nil _).symm
      | false => exact (List.append_nil _).symm
    | _ => exact (List.append_nil _).symm

theorem accepted_endTurn (s : Session σ) : s.endTurn.accepted = s.accepted := by
  have he := TurnEnd.of_endTurn s
  exact accepted_of_issued (congrArg Lane.issued he.lane) he.frame.2.2.2.1

theorem accepted_endCompletion (s : Session σ) (sub : Submission Continuation)
    (outcome : Outcome) (answers : List Answer) (panic : Option String) :
    (s.endCompletion sub outcome answers panic).accepted = s.accepted := by
  obtain ⟨log, he⟩ := s.endCompletion_eq sub outcome answers panic
  rw [he, accepted_endTurn]
  rfl

theorem accepted_endDispatch (s : Session σ) (count : Nat) (n : Notification) (r : Registration)
    (answers : List Answer) (panic : Option String) :
    (s.endDispatch count n r answers panic).accepted = s.accepted := by
  obtain ⟨log, he⟩ := s.endDispatch_eq count n r answers panic
  rw [he]
  rfl

theorem accepted_beginDispatch (s : Session σ) (count : Nat) (n : Notification) :
    (s.beginDispatch count n).accepted = s.accepted := by
  rcases s.beginDispatch_eq count n with ⟨-, log, he⟩ | ⟨r, log, -, he⟩ <;> rw [he] <;> rfl

theorem accepted_endDrain (s : Session σ) (count : Nat) :
    (s.endDrain count).accepted = s.accepted := by
  obtain ⟨log, he⟩ := s.endDrain_eq count
  rw [he]
  exact accepted_endTurn _

/-- At its end host code brings nothing in: at most it panics. -/
theorem EndsWith.nothing {s : Session σ} {acts : List Act} (h : s.EndsWith acts) {α : Type}
    {f : Act → Option α} (hf : ∀ text inSession, f (.panic text inSession) = none) :
    acts.head?.bind f = none := by
  rcases h with rfl | ⟨act, later, text, rfl, hq⟩
  · rfl
  · cases act with
    | panic text inSession => exact hf text inSession
    | _ => cases hq

theorem submissionBy?_panic (s : Session σ) (text : String) (inSession : Bool) :
    s.submissionBy? (.panic text inSession) = none := by
  rw [submissionBy?]
  split <;> rfl

theorem accepted_pumpStep? {V : Vendor σ} {s t : Session σ} (h : s.pumpStep? V = some t) :
    t.accepted = s.accepted ++ Offer.accepted (s.offered (s.submission? .pump)) := by
  have hnone (hn : s.submission? .pump = none) (ha : t.accepted = s.accepted) :
      t.accepted = s.accepted ++ Offer.accepted (s.offered (s.submission? .pump)) := by
    rw [hn, ha]
    exact (List.append_nil _).symm
  rw [submission?] at hnone ⊢
  cases PumpStep.of_pumpStep? h with
  | start hp => exact hnone (by rw [hp]; rfl) rfl
  | receive c lane hp hc =>
    obtain ⟨rest, -, rfl⟩ := Lane.receive?_eq_some_iff.1 hc
    obtain ⟨log, he⟩ :=
      beginCompletion_eq { s with lane := { s.lane with completions := ⟨rest⟩ } } c
    exact hnone (by rw [hp]; rfl) (by rw [he]; rfl)
  | quit hp hc he => exact hnone (by rw [hp]; rfl) rfl
  | wake m hp hc hm => exact hnone (by rw [hp]; rfl) rfl
  | endCompletion sub outcome acts answers answers' panic hp hend =>
    have hn := hend.nothing s.submissionBy?_panic
    refine hnone ?_ (accepted_endCompletion s sub outcome answers' panic)
    rw [hp]
    cases acts <;> exact hn
  | continueCompletion sub outcome act acts answers answers' hp hw hq =>
    rw [hp]
    exact accepted_perform V hw
  | take count n m hp hm =>
    exact hnone (by rw [hp]; rfl) (accepted_beginDispatch { s with mailbox := m } count n)
  | endDrain count hp hm => exact hnone (by rw [hp]; rfl) (accepted_endDrain s count)
  | endDispatch count n r acts answers answers' panic hp hend =>
    have hn := hend.nothing s.submissionBy?_panic
    refine hnone ?_ (accepted_endDispatch s count n r answers' panic)
    rw [hp]
    cases acts <;> exact hn
  | continueDispatch count n r act acts answers answers' hp hw hq =>
    rw [hp]
    exact accepted_perform V hw

theorem accepted_of_step? {V : Vendor σ} {s t : Session σ} {m : Move}
    (h : s.step? V m = some t) :
    t.accepted = s.accepted ++ Offer.accepted (s.offered (s.submission? m)) := by
  cases m with
  | book request requestId k =>
    obtain ⟨⟨held, free⟩, h⟩ := Option.ite_none_right_eq_some.1 h
    cases h
    exact accepted_book free ⟨request, requestId, k⟩
  | enqueue =>
    obtain ⟨hb, h⟩ := Option.ite_none_right_eq_some.1 h
    cases h
    exact (accepted_enqueue s).trans (List.append_nil _).symm
  | on kind l =>
    obtain ⟨held, h⟩ := Option.ite_none_right_eq_some.1 h
    cases h
    exact (List.append_nil _).symm
  | off kind =>
    obtain ⟨held, h⟩ := Option.ite_none_right_eq_some.1 h
    cases h
    exact (List.append_nil _).symm
  | post callback =>
    cases h
    exact (List.append_nil _).symm
  | ring =>
    obtain ⟨m, -, rfl⟩ := Option.map_eq_some_iff.1 h
    exact (List.append_nil _).symm
  | work =>
    obtain ⟨⟨raised, lane⟩, ha, rfl⟩ := Option.map_eq_some_iff.1 h
    have hl : lane.issued = s.lane.issued := (Lane.Advance.of_advance? ha).frame.1
    have hb : ({ s with lane := lane }.publish raised).accepted = s.accepted :=
      accepted_of_issued hl rfl
    exact hb.trans (List.append_nil _).symm
  | pump => exact accepted_pumpStep? h
  | letGo =>
    obtain ⟨-, h⟩ := Option.ite_none_right_eq_some.1 h
    cases h
    have hl : s.letGo.accepted = s.accepted :=
      congrArg (· ++ s.booked.toList) s.lane.submitted_stop
    exact hl.trans (List.append_nil _).symm
  | destroyPump =>
    obtain ⟨-, h⟩ := Option.ite_none_right_eq_some.1 h
    cases h
    rw [destroyPump]
    split <;> exact (List.append_nil _).symm

theorem accepted_of_run {V : Vendor σ} {s t : Session σ} {ms : List Move}
    (hr : s.run V ms = some t) :
    t.accepted = s.accepted ++ Offer.accepted (s.offers V ms) := by
  induction ms generalizing s with
  | nil =>
    cases hr
    exact (List.append_nil _).symm
  | cons m ms ih =>
    obtain ⟨u, hm, hr⟩ := step_and_run hr
    rw [ih hr, accepted_of_step? hm, List.append_assoc, ← Offer.accepted_append, offers, hm]

end Session

end MarketFeed
