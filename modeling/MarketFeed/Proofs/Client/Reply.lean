import MarketFeed.Client.Reply
import MarketFeed.Proofs.Client.Course
import MarketFeed.Proofs.Worker.Result
import MarketFeed.Proofs.Worker.Steady

namespace MarketFeed

/-- The status that a call was answered with, of the calls that are answered with one. -/
def Vendor.Exchange.status? : Vendor.Exchange → Option Int32
  | ⟨.subscribe .., .returned n⟩ => some n
  | ⟨.unsubscribe .., .returned n⟩ => some n
  | ⟨.login .., .returned n⟩ => some n
  | ⟨.logout .., .returned n⟩ => some n
  | _ => none

theorem CallResult.ofAnswer_of_status? {c : Vendor.Call} {a : c.Answer} {n : Int32}
    (h : Vendor.Exchange.status? ⟨c, .returned a⟩ = some n) : ofAnswer c a = ofStatus n := by
  cases c <;> first | (cases h; rfl) | cases h

theorem Vendor.Exchange.returns_of_status? {e : Vendor.Exchange} {n : Int32}
    (h : e.status? = some n) : e.call.operation.returns = .status := by
  obtain ⟨c, r⟩ := e
  cases c <;> first | rfl | (cases r <;> cases h)

theorem CallResult.outcome_eq_ok {r : CallResult} {v : CallValue} (h : r.outcome = .ok v) :
    r.error = none ∧ r.value = v := by
  cases he : r.error with
  | some f =>
    rw [outcome, he] at h
    cases h
  | none =>
    rw [outcome, he] at h
    exact ⟨rfl, Except.ok.inj h⟩

namespace Worker

variable {σ : Type}

theorem call_of_exchanges (V : Vendor σ) {w : Worker σ} {r : Request} {id : Option Int32}
    {e : Vendor.Exchange}
    (he : (w.execute V r id).worker.exchanges = w.exchanges ++ [e]) :
    w.refusal? r.operation = none ∧
      e = ⟨r.vendorCall id, (V.call (r.vendorCall id) w.vendor).reply⟩ := by
  have hne : w.exchanges ≠ w.exchanges ++ [e] := fun h =>
    absurd (List.append_cancel_left ((List.append_nil _).trans h)) nofun
  cases hw : w.refusal? r.operation with
  | some detail =>
    rw [execute_of_refused V hw] at he
    exact absurd he hne
  | none =>
    refine ⟨rfl, ?_⟩
    by_cases hx : r.operation = .exit
    · obtain rfl := eq_exit_of_operation hx
      rw [execute, hw] at he
      change (w.release V).worker.exchanges = _ at he
      cases hh : w.hasHandle with
      | false => exact absurd ((exchanges_release_of_no_handle V hh).symm.trans he) hne
      | true =>
        rw [(release_of_handle V hh).2] at he
        exact (List.singleton_inj.1 (List.append_cancel_left he)).symm
    · rw [exchanges_of_not_refused V hx hw id] at he
      exact (List.singleton_inj.1 (List.append_cancel_left he)).symm

theorem result_of_status? (V : Vendor σ) {w : Worker σ} {r : Request} {id : Option Int32}
    {e : Vendor.Exchange} {n : Int32}
    (he : (w.execute V r id).worker.exchanges = w.exchanges ++ [e]) (hn : e.status? = some n) :
    r.operation.returns = .status ∧ (w.execute V r id).result = .ofStatus n := by
  obtain ⟨hw, rfl⟩ := call_of_exchanges V he
  have hret := Vendor.Exchange.returns_of_status? hn
  rw [operation_vendorCall] at hret
  have hx : r.operation ≠ .exit := by
    intro hx
    rw [hx] at hret
    cases hret
  refine ⟨hret, ?_⟩
  rw [execute_of_not_refused V hx hw]
  change (w.invoke V (r.vendorCall id)).result.checked r.operation = _
  rw [(w.wellFormed_vendorCall V r id).checked, invoke]
  cases hr : (V.call (r.vendorCall id) w.vendor).reply with
  | returned a =>
    rw [hr] at hn
    exact CallResult.ofAnswer_of_status? hn
  | panicked p =>
    rw [hr] at hn
    cases r <;> cases hn

end Worker

namespace Client

variable {σ κ : Type} {op : Operation}

theorem reply_error (op : Operation) (f : Failure) : reply op (.error f) = .error f := by
  cases op <;> rfl

theorem exists_reply {v : CallValue} (h : op.returns.fits v = true) :
    ∃ a, reply op (.ok v) = .ok a := by
  cases op <;> cases v <;> first | exact ⟨_, rfl⟩ | cases h

theorem reply_status (h : op.returns = .status) (n : Int32) :
    reply op (.ok (.status n)) = .ok (.status n) := by
  cases op <;> first | rfl | cases h

theorem eq_of_reply_status {outcome : Outcome} {n : Int32}
    (h : reply op outcome = .ok (.status n)) : outcome = .ok (.status n) := by
  cases outcome with
  | error f =>
    rw [reply_error] at h
    cases h
  | ok v => cases op <;> cases v <;> cases h <;> rfl

theorem reply_ofStatus (h : op.returns = .status) (n : Int32) :
    reply op (CallResult.ofStatus n).outcome =
      if n = 0 then .ok (.status 0) else .error (.callFailed n (statusMessage n)) := by
  rw [CallResult.ofStatus]
  split
  · exact reply_status h 0
  · exact reply_error op _

/-- What the method that made a request makes of its outcome, where the request is the next one of a
worker. -/
structure Unsurprised (V : Vendor σ) (w : Worker σ) (x : Submission κ) (outcome : Outcome) :
    Prop where
  expected : ∀ v, outcome = .ok v → ∃ a, reply x.operation outcome = .ok a
  failed : ∀ f, outcome = .error f → reply x.operation outcome = .error f
  zero : ∀ n, reply x.operation outcome = .ok (.status n) → n = 0
  native : ∀ e n, (w.execute V x.request x.requestId).worker.exchanges = w.exchanges ++ [e] →
    e.status? = some n → reply x.operation outcome =
      if n = 0 then .ok (.status 0) else .error (.callFailed n (statusMessage n))

theorem unsurprised (V : Vendor σ) (w : Worker σ) (x : Submission κ) :
    Unsurprised V w x (w.execute V x.request x.requestId).result.outcome := by
  have hwf := w.wellFormed_execute V x.request x.requestId
  apply Unsurprised.mk
  case expected =>
    intro v hv
    obtain ⟨he, rfl⟩ := CallResult.outcome_eq_ok hv
    rw [hv]
    exact exists_reply (hwf.value he).1
  case failed =>
    intro f hf
    rw [hf]
    exact reply_error _ f
  case zero =>
    intro n hn
    obtain ⟨he, hv⟩ := CallResult.outcome_eq_ok (eq_of_reply_status hn)
    exact (hwf.value he).2 n hv
  case native =>
    intro e n he hn
    obtain ⟨hret, hres⟩ := Worker.result_of_status? V he hn
    rw [hres]
    exact reply_ofStatus hret n

end Client

namespace Session

variable {σ : Type} {V : Vendor σ} {vendor : σ} {s : Session σ}

theorem Sound.served_of_started (h : s.Sound V vendor) {i : Nat}
    {x : Submission Continuation × Outcome} (hx : s.started[i]? = some x) :
    ∃ later, s.lane.served = s.accepted.take i ++ x.1 :: later := by
  have hp : s.started.map (·.1) <+: s.lane.served := by
    have hh := congrArg (List.map Prod.fst) h.flow.handed
    rw [List.map_append, List.map_map] at hh
    exact ⟨_, hh.symm⟩
  have hs : s.lane.served[i]? = some x.1 := by
    apply getElem?_mono hp
    rw [List.getElem?_map, hx]
    rfl
  obtain ⟨hi, hs⟩ := List.getElem?_eq_some_iff.1 hs
  obtain ⟨rest, ha⟩ := h.accepted_eq_served_append
  refine ⟨s.lane.served.drop (i + 1), ?_⟩
  rw [ha, List.take_append_of_le_length (Nat.le_of_lt hi), ← hs, ← List.drop_eq_getElem_cons hi,
    List.take_append_drop]

theorem Sound.exchanges_served (h : s.Sound V vendor) :
    ((Worker.fresh vendor).serve V s.lane.served).exchanges <+: s.lane.worker.exchanges := by
  by_cases hw : s.lane.phase = .ended → s.lane.exited = true
  · exact h.orderly.worker hw ▸ List.prefix_rfl
  · obtain ⟨hp, hx⟩ := Classical.not_imp.1 hw
    rw [h.orderly.stopped hp (Bool.eq_false_iff.2 hx)]
    exact Worker.exchanges_release V _

end Session

namespace Client

variable {σ : Type}

/-- What the hosts of a session get to hear. Each continuation is that of a request which the worker
has carried out behind the ones before it, with the calls made for it among those of the session;
the method that waits for it is not surprised. What a client hears of a call was given to its
continuation. -/
structure Replies (V : Vendor σ) (vendor : σ) (s : Session σ) : Prop where
  made : ∀ i x outcome, s.started[i]? = some (x, outcome) →
    (((Worker.fresh vendor).serve V (s.accepted.take i)).execute V x.request
      x.requestId).worker.exchanges <+: s.lane.worker.exchanges
  unsurprised : ∀ i x outcome, s.started[i]? = some (x, outcome) →
    Unsurprised V ((Worker.fresh vendor).serve V (s.accepted.take i)) x outcome
  heard : ∀ (c : Client σ) t outcome, c.session = s → c.heard? t = some outcome →
    ∃ (i : Nat) (x : Submission Continuation),
      s.started[i]? = some (x, outcome) ∧ x.continuation.tag = t.tag

theorem replies_of_sound {V : Vendor σ} {vendor : σ} {s : Session σ} (h : s.Sound V vendor) :
    Replies V vendor s where
  made i x outcome hx := by
    obtain ⟨later, hserved⟩ := h.served_of_started hx
    have hp := h.exchanges_served
    rw [hserved, Worker.serve_append] at hp
    exact (Worker.exchanges_serve V _ later).trans hp
  unsurprised i x outcome hx := by
    rw [show outcome = _ from h.outcome_of_started hx]
    exact Client.unsurprised V _ x
  heard c t outcome hc hh := by
    obtain ⟨x, hm, ht⟩ := started_of_heard? hh
    obtain ⟨i, hi⟩ := List.mem_iff_getElem?.1 hm
    exact ⟨i, x, hc ▸ hi, ht⟩

/-- Whatever the vendor answers, a worker's results are well formed and the methods of a client of
any session are not surprised by them. -/
theorem never_surprised (V : Vendor σ) (vendor : σ) {hasScheduler : Bool} {settings : Settings}
    {s₀ s : Session σ} {ms : List MarketFeed.Move}
    (hc : Session.create hasScheduler vendor settings = .made s₀) (hr : s₀.run V ms = some s) :
    (∀ (w : Worker σ) (r : Request) (id : Option Int32), w.EndsWell V r id) ∧
      Replies V vendor s :=
  ⟨fun w r id => w.endsWell V r id, replies_of_sound (Session.sound_of_run hc hr)⟩

def loginAttempt : List MarketFeed.Move :=
  [.book (.create "flow") none {}, .enqueue, .work, .work, .pump, .pump, .pump,
    .book (.registerFront "tcp://127.0.0.1:1") none {}, .enqueue, .book .init none {}, .enqueue,
    .book (.subscribe .marketData ["IF2401"]) none {}, .enqueue,
    .book (.login {}) (some 1) {}, .enqueue,
    .work, .work, .work, .work, .work, .work, .work, .work,
    .pump, .pump, .pump, .pump, .pump, .pump, .pump, .pump]

theorem never_surprised_of_login :
    ∃ s : Session Loopback,
      (Session.fresh { options := { loginStatus := -3 } } {}).run Loopback.vendor
        loginAttempt = some s ∧
      s.started.map (·.2) = [.ok .none, .ok .none, .ok .none, .ok (.status 0),
        .error (.callFailed (-3) "request rate limit exceeded")] ∧
      (∀ w r id, Worker.EndsWell Loopback.vendor w r id) ∧
      Replies Loopback.vendor { options := { loginStatus := -3 } } s := by
  obtain ⟨s, hs, ho⟩ := Option.map_eq_some_iff.1
    (rfl : ((Session.fresh { options := { loginStatus := -3 } } {}).run Loopback.vendor
        loginAttempt).map (fun s => s.started.map (·.2)) =
      some [.ok .none, .ok .none, .ok .none, .ok (.status 0),
        .error (.callFailed (-3) "request rate limit exceeded")])
  obtain ⟨hw, hr⟩ := never_surprised Loopback.vendor { options := { loginStatus := -3 } }
    (Session.create_default _) hs
  exact ⟨s, hs, ho, hw, hr⟩

end Client

end MarketFeed
