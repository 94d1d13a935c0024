import MarketFeed.Proofs.Worker.Flags
import MarketFeed.Proofs.Worker.Sequence

namespace MarketFeed.Worker

open Vendor

variable {σ κ : Type}

theorem exchanges_invoke (V : Vendor σ) (w : Worker σ) (c : Call) :
    w.exchanges <+: (w.invoke V c).worker.exchanges := by
  rw [invoke_worker]
  exact List.prefix_append _ _

theorem exchanges_release_of_no_handle (V : Vendor σ) {w : Worker σ} (h : w.hasHandle = false) :
    (w.release V).worker.exchanges = w.exchanges := by
  rw [release_of_no_handle V h]

theorem exchanges_release (V : Vendor σ) (w : Worker σ) :
    w.exchanges <+: (w.release V).worker.exchanges := by
  cases hh : w.hasHandle with
  | false => exact exchanges_release_of_no_handle V hh ▸ List.prefix_rfl
  | true =>
    rw [(release_of_handle V hh).2]
    exact List.prefix_append _ _

theorem execute_exit (V : Vendor σ) (w : Worker σ) (id : Option Int32) :
    (∃ detail, w.execute V .exit id = ⟨.notReady detail, [], w⟩) ∨
      (w.execute V .exit id).worker = (w.release V).worker := by
  cases hw : w.refusal? Request.exit.operation with
  | some detail => exact .inl ⟨detail, execute_of_refused V hw id⟩
  | none =>
    apply Or.inr
    unfold execute
    rw [hw]

theorem exchanges_execute (V : Vendor σ) (w : Worker σ) (r : Request) (id : Option Int32) :
    w.exchanges <+: (w.execute V r id).worker.exchanges := by
  by_cases hr : r.operation = .exit
  · obtain rfl := eq_exit_of_operation hr
    rcases w.execute_exit V id with ⟨detail, he⟩ | he
    · exact congrArg (·.worker.exchanges) he ▸ List.prefix_rfl
    · exact he ▸ w.exchanges_release V
  · rcases w.execute_eq V hr id with ⟨detail, -, he⟩ | ⟨-, he⟩
    · exact congrArg (·.worker.exchanges) he ▸ List.prefix_rfl
    · exact he ▸ w.exchanges_invoke V _

theorem exchanges_serve (V : Vendor σ) (w : Worker σ) (xs : List (Submission κ)) :
    w.exchanges <+: (w.serve V xs).exchanges := by
  induction xs generalizing w with
  | nil => exact List.prefix_rfl
  | cons x xs ih => exact (w.exchanges_execute V x.request x.requestId).trans (ih _)

theorem serve_concat (V : Vendor σ) (w : Worker σ) (xs : List (Submission κ))
    (x : Submission κ) :
    w.serve V (xs ++ [x]) = ((w.serve V xs).execute V x.request x.requestId).worker := by
  rw [serve_append]
  rfl

theorem released_serve (V : Vendor σ) (w : Worker σ) {xs : List (Submission κ)}
    (hx : ∀ x ∈ xs, x.operation ≠ .exit) : (w.serve V xs).released = w.released := by
  induction xs generalizing w with
  | nil => rfl
  | cons x xs ih =>
    have hlater := ih (w.execute V x.request x.requestId).worker
      fun y hy => hx y (List.mem_cons_of_mem _ hy)
    exact hlater.trans (w.released_execute V (hx x List.mem_cons_self) x.requestId)

theorem hasHandle_execute (V : Vendor σ) {w : Worker σ} {r : Request} (hr : r.operation ≠ .exit)
    (id : Option Int32) (h : w.hasHandle = true) : (w.execute V r id).worker.hasHandle = true := by
  cases w.execute_flagChange V hr id with
  | none hh hi hno => exact hh.trans h
  | created ho hv hw hh hi => exact hh
  | started ho hv hw hh hi => exact hh.trans h

theorem hasHandle_serve (V : Vendor σ) {w : Worker σ} {xs : List (Submission κ)}
    (hx : ∀ x ∈ xs, x.operation ≠ .exit) (h : w.hasHandle = true) :
    (w.serve V xs).hasHandle = true := by
  induction xs generalizing w with
  | nil => exact h
  | cons x xs ih =>
    exact ih (fun y hy => hx y (List.mem_cons_of_mem _ hy))
      (hasHandle_execute V (hx x List.mem_cons_self) x.requestId h)

/-- A worker that has come to a handle had carried out a creation that succeeded. -/
theorem created_of_hasHandle (V : Vendor σ) {w : Worker σ} {xs : List (Submission κ)}
    (hx : ∀ x ∈ xs, x.operation ≠ .exit) (hw : w.hasHandle = false)
    (h : (w.serve V xs).hasHandle = true) :
    ∃ before x after, xs = before ++ x :: after ∧ x.operation = .create ∧
      ∃ v, ((w.serve V before).execute V x.request x.requestId).result.outcome = .ok v := by
  induction xs generalizing w with
  | nil =>
    rw [serve, hw] at h
    cases h
  | cons x xs ih =>
    have hlater (y) (hy : y ∈ xs) := hx y (List.mem_cons_of_mem _ hy)
    have hrest (hh : (w.execute V x.request x.requestId).worker.hasHandle = w.hasHandle) :
        ∃ before y after, x :: xs = before ++ y :: after ∧ y.operation = .create ∧
          ∃ v, ((w.serve V before).execute V y.request y.requestId).result.outcome = .ok v := by
      obtain ⟨before, y, after, rfl, ho, hv⟩ := ih hlater (hh.trans hw) h
      exact ⟨x :: before, y, after, rfl, ho, hv⟩
    cases w.execute_flagChange V (hx x List.mem_cons_self) x.requestId with
    | none hh hi hno => exact hrest hh
    | created ho hv hw' hh hi => exact ⟨[], x, xs, rfl, ho, hv⟩
    | started ho hv hw' hh hi => exact hrest hh

/-- A second creation is refused. -/
theorem execute_create_of_hasHandle (V : Vendor σ) {w : Worker σ} {r : Request}
    (hr : r.operation = .create) (id : Option Int32) (h : w.hasHandle = true)
    (hw : w.released = false) :
    w.execute V r id = ⟨.notReady "native session already created", [], w⟩ := by
  apply execute_of_refused
  simp only [refusal?, hr, hw, h, Bool.false_eq_true, if_false, if_true]

end MarketFeed.Worker
