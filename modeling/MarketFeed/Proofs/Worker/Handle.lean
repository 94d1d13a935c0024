import MarketFeed.Worker
import MarketFeed.Proofs.Vendor.Protocol

namespace MarketFeed.Worker

open Vendor

variable {σ : Type}

/-- The flags of a worker agree with the calls it has made, of which none is a release. -/
structure Tracks (w : Worker σ) : Prop where
  protocol : HandleProtocol w.exchanges
  hasHandle : w.hasHandle = w.exchanges.any Exchange.opens
  initialized : w.initialized = w.exchanges.any Exchange.starts
  released : w.released = false
  unclosed : w.exchanges.any Exchange.closes = false

/-- A worker that has given up its handle, if it ever had one. -/
structure GaveUp (w : Worker σ) : Prop where
  protocol : HandleProtocol w.exchanges
  hasHandle : w.hasHandle = false
  closed : w.exchanges.countP Exchange.closes = w.exchanges.countP Exchange.opens

theorem operation_vendorCall (r : Request) (id : Option Int32) :
    (r.vendorCall id).operation = r.operation := by
  cases r <;> rfl

theorem eq_exit_of_operation {r : Request} (h : r.operation = .exit) : r = .exit := by
  cases r <;> first | rfl | cases h

/-- A worker with true flags refuses a request exactly if the protocol forbids its call. -/
theorem Tracks.refusal?_eq_none_iff {w : Worker σ} (h : w.Tracks) {r : Request}
    (hr : r.operation ≠ .exit) (id : Option Int32) :
    w.refusal? r.operation = none ↔ permits w.exchanges (r.vendorCall id) = true := by
  have hh := h.hasHandle
  have hi := h.initialized
  cases r <;>
    simp only [Request.operation, Request.vendorCall, refusal?, permits, h.released, h.unclosed,
      Call.isCreate, Call.needsStart, Operation.requiresInit, ← hh, ← hi] <;>
    cases w.hasHandle <;> cases w.initialized <;> simp_all [Request.operation]

theorem afterReturn_eq (w : Worker σ) (c : Call) (a : c.Answer) :
    w.afterReturn c a = { w with
      hasHandle := w.hasHandle || Exchange.opens ⟨c, .returned a⟩
      initialized := w.initialized || Exchange.starts ⟨c, .returned a⟩ } := by
  cases c with
  | create flowDir =>
    cases a with
    | ok u => simp only [afterReturn, Exchange.opens, Exchange.starts, Bool.or_true, Bool.or_false]
    | error reason => simp only [afterReturn, Exchange.opens, Exchange.starts, Bool.or_false]
  | init => simp only [afterReturn, Exchange.opens, Exchange.starts, Bool.or_true, Bool.or_false]
  | _ => simp only [afterReturn, Exchange.opens, Exchange.starts, Bool.or_false]

theorem invoke_worker (V : Vendor σ) (w : Worker σ) (c : Call) :
    (w.invoke V c).worker = { w with
      vendor := (V.call c w.vendor).state
      exchanges := w.exchanges ++ [⟨c, (V.call c w.vendor).reply⟩]
      hasHandle := w.hasHandle || Exchange.opens ⟨c, (V.call c w.vendor).reply⟩
      initialized := w.initialized || Exchange.starts ⟨c, (V.call c w.vendor).reply⟩ } := by
  rw [invoke]
  cases hr : (V.call c w.vendor).reply with
  | returned a => simp only [afterReturn_eq]
  | panicked p =>
    have ho : Exchange.opens ⟨c, .panicked p⟩ = false := by cases c <;> rfl
    have hs : Exchange.starts ⟨c, .panicked p⟩ = false := by cases c <;> rfl
    simp only [ho, hs, Bool.or_false]

theorem any_concat (p : Exchange → Bool) (es : List Exchange) (e : Exchange) :
    (es ++ [e]).any p = (es.any p || p e) := by
  simp only [List.any_append, List.any_cons, List.any_nil, Bool.or_false]

theorem Tracks.invoke {w : Worker σ} (h : w.Tracks) (V : Vendor σ) {c : Call}
    (hp : permits w.exchanges c = true) (hc : c.operation ≠ .exit) :
    (w.invoke V c).worker.Tracks := by
  rw [invoke_worker]
  refine ⟨h.protocol.snoc hp, ?_, ?_, h.released, ?_⟩
  · rw [any_concat, h.hasHandle]
  · rw [any_concat, h.initialized]
  · rw [any_concat, h.unclosed, Bool.false_or]
    cases c <;> first | rfl | exact absurd rfl hc

theorem countP_opens {w : Worker σ} (h : w.Tracks) :
    w.exchanges.countP Exchange.opens = if w.hasHandle then 1 else 0 := by
  have hle := h.protocol.opened_once
  cases ho : w.hasHandle with
  | false =>
    rw [h.hasHandle] at ho
    exact countP_eq_zero fun x hx => Bool.eq_false_iff.2 (List.any_eq_false.1 ho x hx)
  | true =>
    rw [h.hasHandle] at ho
    obtain ⟨x, hx, hxo⟩ := List.any_eq_true.1 ho
    have hpos := List.countP_pos_iff.2 ⟨x, hx, hxo⟩
    simp only [if_true]
    omega

theorem countP_closes {w : Worker σ} (h : w.Tracks) :
    w.exchanges.countP Exchange.closes = 0 :=
  countP_eq_zero fun x hx => Bool.eq_false_iff.2 (List.any_eq_false.1 h.unclosed x hx)

theorem permits_release {w : Worker σ} (h : w.Tracks) :
    permits w.exchanges .release = w.hasHandle := by
  simp only [permits, Call.isCreate, Call.needsStart, h.unclosed, h.hasHandle]
  cases w.exchanges.any Exchange.opens <;> rfl

theorem release_of_no_handle (V : Vendor σ) {w : Worker σ} (h : w.hasHandle = false) :
    w.release V = ⟨none, [], { w with initialized := false, released := true }⟩ := by
  simp only [release, h, Bool.false_eq_true, if_false]

theorem release_of_handle (V : Vendor σ) {w : Worker σ} (h : w.hasHandle = true) :
    (w.release V).worker.hasHandle = false ∧ (w.release V).worker.exchanges =
      w.exchanges ++ [⟨.release, (V.call .release w.vendor).reply⟩] := by
  rw [release]
  cases hr : (V.call .release w.vendor).reply <;> simp only [h, hr, if_true, and_self]

theorem Tracks.release {w : Worker σ} (h : w.Tracks) (V : Vendor σ) :
    (w.release V).worker.GaveUp := by
  have hopens := countP_opens h
  have hcloses := countP_closes h
  cases hh : w.hasHandle with
  | false =>
    rw [hh] at hopens
    rw [release_of_no_handle V hh]
    exact ⟨h.protocol, hh, hcloses.trans hopens.symm⟩
  | true =>
    rw [hh] at hopens
    obtain ⟨hgone, hex⟩ := release_of_handle V hh
    refine ⟨?_, hgone, ?_⟩
    · rw [hex]
      exact h.protocol.snoc ((permits_release h).trans hh)
    · rw [hex, List.countP_append, List.countP_append, hcloses, hopens]
      rfl

/-- A request other than an exit is refused, or carried out by its call. -/
theorem execute_eq (V : Vendor σ) (w : Worker σ) {r : Request} (hr : r.operation ≠ .exit)
    (id : Option Int32) :
    (∃ detail, w.refusal? r.operation = some detail ∧
      w.execute V r id = ⟨.notReady detail, [], w⟩) ∨
    (w.refusal? r.operation = none ∧
      (w.execute V r id).worker = (w.invoke V (r.vendorCall id)).worker) := by
  unfold execute
  cases hw : w.refusal? r.operation with
  | some detail => exact .inl ⟨detail, rfl, rfl⟩
  | none =>
    refine .inr ⟨rfl, ?_⟩
    cases r <;> first | rfl | exact absurd rfl hr

theorem Tracks.execute_exit {w : Worker σ} (h : w.Tracks) (V : Vendor σ) (id : Option Int32) :
    w.execute V .exit id =
      ⟨.ofRelease (w.release V).panic, (w.release V).raised, (w.release V).worker⟩ := by
  have hw : w.refusal? Request.exit.operation = none := by
    simp only [refusal?, h.released, Bool.false_eq_true, if_false, Request.operation]
  simp only [execute, hw]

theorem Tracks.execute_forbidden {w : Worker σ} (h : w.Tracks) (V : Vendor σ) {r : Request}
    (hr : r.operation ≠ .exit) {id : Option Int32}
    (hf : Forbidden w.exchanges (r.vendorCall id)) :
    ∃ detail, w.execute V r id = ⟨.notReady detail, [], w⟩ := by
  rw [forbidden_iff h.protocol] at hf
  rcases w.execute_eq V hr id with ⟨detail, -, he⟩ | ⟨hn, -⟩
  · exact ⟨detail, he⟩
  · rw [(h.refusal?_eq_none_iff hr id).1 hn] at hf
    cases hf

/-- An exit that has nothing to release succeeds, and asks nothing of the vendor. -/
theorem Tracks.execute_exit_forbidden {w : Worker σ} (h : w.Tracks) (V : Vendor σ)
    {id : Option Int32} (hf : Forbidden w.exchanges .release) :
    w.execute V .exit id =
      ⟨.ok .none, [], { w with initialized := false, released := true }⟩ := by
  rw [forbidden_iff h.protocol, permits_release h] at hf
  rw [h.execute_exit V id, release_of_no_handle V hf, CallResult.ofRelease]

theorem Tracks.execute {w : Worker σ} (h : w.Tracks) (V : Vendor σ) {r : Request}
    (hr : r.operation ≠ .exit) (id : Option Int32) : (w.execute V r id).worker.Tracks := by
  rcases w.execute_eq V hr id with ⟨detail, -, he⟩ | ⟨hn, he⟩
  · rw [he]
    exact h
  · have hp := (h.refusal?_eq_none_iff hr id).1 hn
    rw [he]
    refine h.invoke V hp ?_
    rw [operation_vendorCall]
    exact hr

theorem Tracks.exit {w : Worker σ} (h : w.Tracks) (V : Vendor σ) {r : Request}
    (hr : r.operation = .exit) (id : Option Int32) : (w.execute V r id).worker.GaveUp := by
  have he := eq_exit_of_operation hr
  rw [he, h.execute_exit V id]
  exact h.release V

theorem tracks_fresh (vendor : σ) : ({ vendor := vendor } : Worker σ).Tracks where
  protocol := handleProtocol_nil
  hasHandle := rfl
  initialized := rfl
  released := rfl
  unclosed := rfl

end MarketFeed.Worker
