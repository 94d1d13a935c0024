import MarketFeed.Proofs.Worker.Handle

namespace MarketFeed.Worker

open Vendor

variable {σ : Type}

/-- How the flags of a worker can move when it carries a request out. -/
inductive FlagChange (w : Worker σ) (op : Operation) (outcome : Outcome) (w' : Worker σ) : Prop
  | none (hh : w'.hasHandle = w.hasHandle) (hi : w'.initialized = w.initialized)
      (h : (∃ f, outcome = .error f) ∨ op ≠ .create ∧ op ≠ .init)
  | created (ho : op = .create) (hv : ∃ v, outcome = .ok v) (hw : w.hasHandle = false)
      (hh : w'.hasHandle = true) (hi : w'.initialized = w.initialized)
  | started (ho : op = .init) (hv : ∃ v, outcome = .ok v) (hw : w.hasHandle = true)
      (hh : w'.hasHandle = w.hasHandle) (hi : w'.initialized = true)

theorem execute_of_not_refused (V : Vendor σ) {w : Worker σ} {r : Request}
    (hr : r.operation ≠ .exit) (hw : w.refusal? r.operation = none) (id : Option Int32) :
    w.execute V r id =
      { w.invoke V (r.vendorCall id) with
        result := (w.invoke V (r.vendorCall id)).result.checked r.operation } := by
  unfold execute
  rw [hw]
  cases r with
  | exit => exact absurd rfl hr
  | _ => rfl

theorem execute_of_refused (V : Vendor σ) {w : Worker σ} {r : Request} {detail : String}
    (hw : w.refusal? r.operation = some detail) (id : Option Int32) :
    w.execute V r id = ⟨.notReady detail, [], w⟩ := by
  unfold execute
  rw [hw]

theorem hasHandle_of_create {w : Worker σ} (h : w.refusal? .create = none) :
    w.hasHandle = false := by
  cases hh : w.hasHandle with
  | false => rfl
  | true => cases hr : w.released <;> simp [refusal?, hh, hr] at h

theorem hasHandle_of_init {w : Worker σ} (h : w.refusal? .init = none) : w.hasHandle = true := by
  cases hh : w.hasHandle with
  | true => rfl
  | false => cases hr : w.released <;> simp [refusal?, hh, hr] at h

theorem flagChange_create (V : Vendor σ) {w : Worker σ} {flowDir : String}
    (hw : w.refusal? .create = none) (id : Option Int32) :
    FlagChange w .create (w.execute V (.create flowDir) id).result.outcome
      (w.execute V (.create flowDir) id).worker := by
  have hno := hasHandle_of_create hw
  rw [execute_of_not_refused V (r := .create flowDir) (fun he => by cases he) hw]
  change FlagChange w .create
    ((w.invoke V (.create flowDir)).result.checked .create).outcome
    (w.invoke V (.create flowDir)).worker
  rw [invoke]
  cases (V.call (.create flowDir) w.vendor).reply with
  | returned a =>
    cases a with
    | ok u => exact .created rfl ⟨_, rfl⟩ hno rfl rfl
    | error reason => exact .none rfl rfl (.inl ⟨_, rfl⟩)
  | panicked p => exact .none rfl rfl (.inl ⟨_, rfl⟩)

theorem flagChange_init (V : Vendor σ) {w : Worker σ} (hw : w.refusal? .init = none)
    (id : Option Int32) :
    FlagChange w .init (w.execute V .init id).result.outcome (w.execute V .init id).worker := by
  have hhas := hasHandle_of_init hw
  rw [execute_of_not_refused V (r := .init) (by decide) hw]
  change FlagChange w .init ((w.invoke V .init).result.checked .init).outcome
    (w.invoke V .init).worker
  rw [invoke]
  cases (V.call .init w.vendor).reply with
  | returned a => exact .started rfl ⟨_, rfl⟩ hhas rfl rfl
  | panicked p => exact .none rfl rfl (.inl ⟨_, rfl⟩)

theorem flags_invoke (V : Vendor σ) (w : Worker σ) {c : Call} (hc : c.operation ≠ .create)
    (hi : c.operation ≠ .init) :
    (w.invoke V c).worker.hasHandle = w.hasHandle ∧
      (w.invoke V c).worker.initialized = w.initialized := by
  rw [invoke_worker]
  cases c with
  | create flowDir => exact absurd rfl hc
  | init => exact absurd rfl hi
  | _ => exact ⟨Bool.or_false _, Bool.or_false _⟩

theorem execute_flagChange (V : Vendor σ) (w : Worker σ) {r : Request}
    (hr : r.operation ≠ .exit) (id : Option Int32) :
    FlagChange w r.operation (w.execute V r id).result.outcome (w.execute V r id).worker := by
  cases hw : w.refusal? r.operation with
  | some detail =>
    rw [execute_of_refused V hw]
    exact .none rfl rfl (.inl ⟨_, rfl⟩)
  | none =>
    by_cases hc : r.operation = .create
    · cases r <;> first | exact flagChange_create V hw id | cases hc
    by_cases hi : r.operation = .init
    · cases r <;> first | exact flagChange_init V hw id | cases hi
    · have hop := operation_vendorCall r id
      obtain ⟨hh, hs⟩ := w.flags_invoke V (c := r.vendorCall id) (by rw [hop]; exact hc)
        (by rw [hop]; exact hi)
      rw [execute_of_not_refused V hr hw]
      exact .none hh hs (.inr ⟨hc, hi⟩)

theorem released_execute (V : Vendor σ) (w : Worker σ) {r : Request} (hr : r.operation ≠ .exit)
    (id : Option Int32) : (w.execute V r id).worker.released = w.released := by
  rcases w.execute_eq V hr id with ⟨detail, -, he⟩ | ⟨-, he⟩
  · rw [he]
  · rw [he, invoke_worker]

end MarketFeed.Worker
