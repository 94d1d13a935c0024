import MarketFeed.Proofs.Lane.Order
import MarketFeed.Proofs.Worker.Course

namespace MarketFeed

def Request.isSteady : Request → Bool
  | create _ | exit => false
  | r => !r.operation.requiresInit

theorem Request.not_exit_of_isSteady {r : Request} (h : r.isSteady = true) :
    r.operation ≠ .exit := by
  intro he
  cases r with
  | exit => cases h
  | _ => cases he

def Submission.call {κ : Type} (x : Submission κ) : Vendor.Call := x.request.vendorCall x.requestId

namespace Worker

open Vendor

variable {σ κ : Type}

theorem exchanges_of_not_refused (V : Vendor σ) {w : Worker σ} {r : Request}
    (hr : r.operation ≠ .exit) (hw : w.refusal? r.operation = none) (id : Option Int32) :
    (w.execute V r id).worker.exchanges =
      w.exchanges ++ [⟨r.vendorCall id, (V.call (r.vendorCall id) w.vendor).reply⟩] := by
  rw [execute_of_not_refused V hr hw]
  change (w.invoke V (r.vendorCall id)).worker.exchanges = _
  rw [invoke_worker]

theorem refusal?_of_isSteady {w : Worker σ} {r : Request} (hr : r.isSteady = true)
    (hh : w.hasHandle = true) (hw : w.released = false) : w.refusal? r.operation = none := by
  cases r with
  | create flowDir => cases hr
  | tradingDay => cases hr
  | subscribe feed ids => cases hr
  | unsubscribe feed ids => cases hr
  | login request => cases hr
  | logout user => cases hr
  | exit => cases hr
  | _ => simp [refusal?, hh, hw, Request.operation, Operation.requiresInit]

theorem calls_serve_of_isSteady (V : Vendor σ) {w : Worker σ} {xs : List (Submission κ)}
    (hx : ∀ x ∈ xs, x.request.isSteady = true) (hh : w.hasHandle = true)
    (hw : w.released = false) : (w.serve V xs).calls = w.calls ++ xs.map Submission.call := by
  induction xs generalizing w with
  | nil => exact (List.append_nil _).symm
  | cons x xs ih =>
    have hr := hx x List.mem_cons_self
    have hno := Request.not_exit_of_isSteady hr
    have hlater := ih (fun y hy => hx y (List.mem_cons_of_mem _ hy))
      (hasHandle_execute V hno x.requestId hh) ((w.released_execute V hno x.requestId).trans hw)
    have hcalls : (w.execute V x.request x.requestId).worker.calls = w.calls ++ [x.call] := by
      rw [calls, exchanges_of_not_refused V hno (refusal?_of_isSteady hr hh hw), List.map_append]
      rfl
    rw [serve, hlater, hcalls, List.append_assoc]
    rfl

theorem panicked_of_error (V : Vendor σ) {w : Worker σ} {r : Request} {id : Option Int32}
    {f : Failure} (hr : r.isSteady = true) (hh : w.hasHandle = true) (hw : w.released = false)
    (he : (w.execute V r id).result.outcome = .error f) :
    ∃ p, (V.call (r.vendorCall id) w.vendor).reply = .panicked p := by
  rw [execute_of_not_refused V (Request.not_exit_of_isSteady hr)
    (refusal?_of_isSteady hr hh hw)] at he
  change ((w.invoke V (r.vendorCall id)).result.checked r.operation).outcome = .error f at he
  rw [invoke] at he
  cases hreply : (V.call (r.vendorCall id) w.vendor).reply with
  | panicked p => exact ⟨p, rfl⟩
  | returned a =>
    rw [hreply] at he
    cases r <;> first | (cases hr; done) | cases he

/-- Requests for a worker that has no handle yet: a creation, then such as need the handle. -/
def InTurn : List Request → Prop
  | [] => True
  | r :: later => r.operation = .create ∧ ∀ r' ∈ later, r'.isSteady = true

theorem InTurn.of_append {xs ys : List Request} (h : InTurn (xs ++ ys)) : InTurn xs := by
  cases xs with
  | nil => trivial
  | cons x xs => exact ⟨h.1, fun r hr => h.2 r (List.mem_append_left _ hr)⟩

theorem InTurn.not_exit {rs : List Request} (h : InTurn rs) : ∀ r ∈ rs, r.operation ≠ .exit := by
  intro r hr
  cases rs with
  | nil => cases hr
  | cons first later =>
    rcases List.mem_cons.1 hr with rfl | hr
    · rw [h.1]
      decide
    · exact Request.not_exit_of_isSteady (h.2 r hr)

theorem refusal?_create {w : Worker σ} (hh : w.hasHandle = false) (hw : w.released = false) :
    w.refusal? .create = none := by
  simp only [refusal?, hh, hw, Bool.false_eq_true, if_false]

theorem hasHandle_of_creation (V : Vendor σ) {w : Worker σ} {r : Request}
    (hr : r.operation = .create) (hw : w.hasHandle = false) (id : Option Int32) :
    (w.execute V r id).worker.hasHandle = true ↔
      ∃ v, (w.execute V r id).result.outcome = .ok v := by
  have hno : r.operation ≠ .exit := by
    rw [hr]
    decide
  cases w.execute_flagChange V hno id with
  | none hh hi h =>
    obtain ⟨f, hf⟩ := h.resolve_right fun h => h.1 hr
    rw [hh, hw, hf]
    simp
  | created ho hv hw' hh hi => exact iff_of_true hh hv
  | started ho hv hw' hh hi => cases hr.symm.trans ho

/-- If the creation succeeds, or is the only one, all calls are made. -/
theorem calls_serve_fresh (V : Vendor σ) (vendor : σ) {xs : List (Submission κ)}
    (hx : InTurn (xs.map (·.request)))
    (hok : ∀ x y later, xs = x :: y :: later → ∃ v,
      ((fresh vendor).execute V x.request x.requestId).result.outcome = .ok v) :
    ((fresh vendor).serve V xs).calls = xs.map Submission.call := by
  cases xs with
  | nil => rfl
  | cons x later =>
    obtain ⟨hc, hs⟩ := hx
    have hno : x.request.operation ≠ .exit := by
      rw [hc]
      decide
    have hfirst : ((fresh vendor).execute V x.request x.requestId).worker.calls = [x.call] := by
      rw [calls, exchanges_of_not_refused V hno (by rw [hc]; exact refusal?_create rfl rfl)]
      rfl
    cases later with
    | nil => exact hfirst
    | cons y later =>
      have hh := (hasHandle_of_creation V (w := fresh vendor) hc rfl x.requestId).2
        (hok x y later rfl)
      have hlater : ∀ z ∈ y :: later, z.request.isSteady = true :=
        fun z hz => hs z.request (List.mem_map_of_mem hz)
      rw [serve, calls_serve_of_isSteady V hlater hh ((fresh vendor).released_execute V hno _),
        hfirst]
      rfl

theorem Tracks.serve {w : Worker σ} (h : w.Tracks) (V : Vendor σ) {xs : List (Submission κ)}
    (hx : ∀ x ∈ xs, x.operation ≠ .exit) : (w.serve V xs).Tracks := by
  induction xs generalizing w with
  | nil => exact h
  | cons x xs ih =>
    exact ih (h.execute V (hx x List.mem_cons_self) x.requestId)
      fun y hy => hx y (List.mem_cons_of_mem _ hy)

/-- What the vendor was asked for, but for a release. -/
def asked (w : Worker σ) : List Exchange := w.exchanges.filter fun e => !e.closes

theorem Tracks.asked_eq {w : Worker σ} (h : w.Tracks) : w.asked = w.exchanges := by
  apply List.filter_eq_self.2
  intro e he
  rw [Bool.eq_false_iff.2 (List.any_eq_false.1 h.unclosed e he)]
  rfl

theorem Tracks.asked_release {w : Worker σ} (h : w.Tracks) (V : Vendor σ) :
    (w.release V).worker.asked = w.exchanges := by
  cases hh : w.hasHandle with
  | false =>
    rw [asked, exchanges_release_of_no_handle V hh]
    exact h.asked_eq
  | true =>
    rw [asked, (release_of_handle V hh).2, List.filter_append]
    exact (List.append_nil _).trans h.asked_eq

end Worker

end MarketFeed
