import MarketFeed.Proofs.Worker.Flags

namespace MarketFeed

namespace CallResult

/-- A result that an operation may end with: a value of the shape that it declares, with status
zero, or a failure with its status, which is not zero. -/
structure WellFormed (op : Operation) (r : CallResult) : Prop where
  error_iff : r.error = none ↔ r.status = 0
  value : r.error = none →
    op.returns.fits r.value = true ∧ ∀ n, r.value = .status n → n = 0
  failure : ∀ f, r.error = some f →
    r.status = f.status ∧ f.status ≠ 0 ∧ r.outcome = .error f

variable {op : Operation}

theorem wellFormed_ok {v : CallValue} (hf : op.returns.fits v = true)
    (hz : ∀ n, v = .status n → n = 0) : WellFormed op (.ok v) where
  error_iff := iff_of_true rfl rfl
  value _ := ⟨hf, hz⟩
  failure _ h := by cases h

theorem wellFormed_error {r : CallResult} {f : Failure} (he : r.error = some f)
    (hs : r.status = f.status) (hz : f.status ≠ 0) : WellFormed op r where
  error_iff := by
    rw [he, hs]
    exact iff_of_false nofun hz
  value h := by
    rw [he] at h
    cases h
  failure g hg := by
    obtain rfl : f = g := Option.some.inj (he.symm.trans hg)
    exact ⟨hs, hz, by rw [outcome, he]⟩

theorem wellFormed_failed {f : Failure} (hz : f.status ≠ 0) : WellFormed op (.failed f) :=
  wellFormed_error rfl rfl hz

theorem wellFormed_callFailed (detail : String) :
    WellFormed op (.failed (.callFailed (-1) detail)) :=
  wellFormed_failed (show (-1 : Int32) ≠ 0 by decide)

theorem wellFormed_notReady (detail : String) : WellFormed op (.notReady detail) :=
  wellFormed_callFailed detail

theorem wellFormed_ofPanic (p : Panic) : WellFormed op (.ofPanic p) :=
  wellFormed_failed (show (-1 : Int32) ≠ 0 by decide)

theorem wellFormed_ofStatus (h : op.returns = .status) (n : Int32) :
    WellFormed op (.ofStatus n) := by
  rw [ofStatus]
  by_cases hn : n = 0
  · rw [if_pos hn]
    apply wellFormed_ok
    · rw [h]
      rfl
    · intro m hm
      cases hm
      rfl
  · rw [if_neg hn]
    exact wellFormed_error rfl rfl hn

theorem wellFormed_ofRelease (panic : Option Panic) : WellFormed .exit (.ofRelease panic) := by
  cases panic with
  | none => exact wellFormed_ok rfl nofun
  | some p => exact wellFormed_ofPanic p

theorem wellFormed_ofAnswer (c : Vendor.Call) (a : c.Answer) :
    WellFormed c.operation (.ofAnswer c a) := by
  cases c with
  | create flowDir =>
    cases a with
    | ok u => exact wellFormed_ok rfl nofun
    | error reason => exact wellFormed_callFailed _
  | subscribe feed ids => exact wellFormed_ofStatus rfl a
  | unsubscribe feed ids => exact wellFormed_ofStatus rfl a
  | login request id => exact wellFormed_ofStatus rfl a
  | logout user id => exact wellFormed_ofStatus rfl a
  | _ => exact wellFormed_ok rfl nofun

theorem WellFormed.not_misshapen {r : CallResult} (h : WellFormed op r) :
    ¬ (r.error = none ∧ op.returns.fits r.value = false) := by
  rintro ⟨he, hf⟩
  rw [(h.value he).1] at hf
  cases hf

theorem WellFormed.checked {r : CallResult} (h : WellFormed op r) : r.checked op = r :=
  if_neg h.not_misshapen

end CallResult

def Request.handleCall? (requestId : Option Int32) : Request → Option Vendor.Call
  | create _ | exit => none
  | r => some (r.vendorCall requestId)

namespace Worker

open CallResult

variable {σ : Type}

/-- A request carried out case by case: a creation, an exit, a request without a handle, and a call
on the handle; `none` for a creation or an exit that has come as far as the last case. -/
def attempt? (V : Vendor σ) (w : Worker σ) (r : Request) (requestId : Option Int32) :
    Option (Execution σ) :=
  match r with
  | .create flowDir => some (w.invoke V (.create flowDir))
  | .exit =>
    let e := w.release V
    some ⟨.ofRelease e.panic, e.raised, e.worker⟩
  | r =>
    if w.hasHandle then (r.handleCall? requestId).map (w.invoke V)
    else some ⟨.notReady "native session not created", [], w⟩

theorem wellFormed_invoke (V : Vendor σ) (w : Worker σ) (c : Vendor.Call) :
    (w.invoke V c).result.WellFormed c.operation := by
  rw [invoke]
  cases (V.call c w.vendor).reply with
  | returned a => exact wellFormed_ofAnswer c a
  | panicked p => exact wellFormed_ofPanic p

theorem wellFormed_vendorCall (V : Vendor σ) (w : Worker σ) (r : Request) (id : Option Int32) :
    (w.invoke V (r.vendorCall id)).result.WellFormed r.operation := by
  have h := w.wellFormed_invoke V (r.vendorCall id)
  rwa [operation_vendorCall] at h

theorem attempt?_of_handle (V : Vendor σ) {w : Worker σ} {r : Request}
    (hr : r.operation ≠ .exit) (hw : r.operation = .create ∨ w.hasHandle = true)
    (id : Option Int32) : w.attempt? V r id = some (w.invoke V (r.vendorCall id)) := by
  cases r with
  | create flowDir => rfl
  | exit => exact absurd rfl hr
  | _ => exact if_pos (hw.resolve_left nofun)

theorem attempt?_of_no_handle (V : Vendor σ) {w : Worker σ} {r : Request}
    (hr : r.operation ≠ .exit) (hc : r.operation ≠ .create) (hw : w.hasHandle = false)
    (id : Option Int32) :
    w.attempt? V r id = some ⟨.notReady "native session not created", [], w⟩ := by
  cases r with
  | create flowDir => exact absurd rfl hc
  | exit => exact absurd rfl hr
  | _ => exact if_neg (Bool.eq_false_iff.1 hw)

theorem exists_attempt (V : Vendor σ) (w : Worker σ) (r : Request) (id : Option Int32) :
    ∃ e, w.attempt? V r id = some e ∧ e.result.WellFormed r.operation := by
  by_cases hx : r.operation = .exit
  · obtain rfl := eq_exit_of_operation hx
    exact ⟨_, rfl, wellFormed_ofRelease _⟩
  by_cases hw : r.operation = .create ∨ w.hasHandle = true
  · exact ⟨_, attempt?_of_handle V hx hw id, w.wellFormed_vendorCall V r id⟩
  · obtain ⟨hc, hh⟩ := not_or.1 hw
    exact ⟨_, attempt?_of_no_handle V hx hc (Bool.eq_false_iff.2 hh) id, wellFormed_notReady _⟩

theorem hasHandle_of_not_refused {w : Worker σ} {op : Operation} (h : w.refusal? op = none)
    (hx : op ≠ .exit) : op = .create ∨ w.hasHandle = true := by
  cases hh : w.hasHandle with
  | true => exact .inr rfl
  | false =>
    left
    cases op with
    | create => rfl
    | exit => exact absurd rfl hx
    | _ => cases hr : w.released <;> simp [refusal?, hh, hr] at h

/-- A request that is not refused is carried out as it is attempted: the check of its shape does not
touch its result. -/
theorem attempt?_eq_of_not_refused (V : Vendor σ) {w : Worker σ} {r : Request}
    (hw : w.refusal? r.operation = none) (id : Option Int32) :
    w.attempt? V r id = some (w.execute V r id) := by
  by_cases hx : r.operation = .exit
  · obtain rfl := eq_exit_of_operation hx
    unfold execute
    rw [hw]
    rfl
  · have hwf := w.wellFormed_vendorCall V r id
    rw [attempt?_of_handle V hx (hasHandle_of_not_refused hw hx), execute_of_not_refused V hx hw,
      hwf.checked]

theorem wellFormed_execute (V : Vendor σ) (w : Worker σ) (r : Request) (id : Option Int32) :
    (w.execute V r id).result.WellFormed r.operation := by
  cases hw : w.refusal? r.operation with
  | some detail =>
    rw [execute_of_refused V hw]
    exact wellFormed_notReady detail
  | none =>
    obtain ⟨e, he, hwf⟩ := w.exists_attempt V r id
    rw [attempt?_eq_of_not_refused V hw] at he
    exact Option.some.inj he ▸ hwf

/-- The ways in which a request ends, and the two in which it never does: with a value that its
operation does not declare, and as a creation or an exit among the calls on the handle. -/
structure EndsWell (V : Vendor σ) (w : Worker σ) (r : Request) (id : Option Int32) : Prop where
  wellFormed : (w.execute V r id).result.WellFormed r.operation
  attempted : w.refusal? r.operation = none → w.attempt? V r id = some (w.execute V r id)
  not_astray : w.attempt? V r id ≠ none
  not_misshapen : ∀ e, w.attempt? V r id = some e →
    ¬ (e.result.error = none ∧ r.operation.returns.fits e.result.value = false)

theorem endsWell (V : Vendor σ) (w : Worker σ) (r : Request) (id : Option Int32) :
    w.EndsWell V r id := by
  obtain ⟨e, he, hwf⟩ := w.exists_attempt V r id
  apply EndsWell.mk
  case wellFormed => exact w.wellFormed_execute V r id
  case attempted => exact fun hw => attempt?_eq_of_not_refused V hw id
  case not_astray =>
    rw [he]
    nofun
  case not_misshapen =>
    intro e' he'
    obtain rfl : e = e' := Option.some.inj (he.symm.trans he')
    exact hwf.not_misshapen

end Worker

end MarketFeed
