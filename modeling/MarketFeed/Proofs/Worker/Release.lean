import MarketFeed.Loopback
import MarketFeed.Worker.Run
import MarketFeed.Proofs.Lane.Order
import MarketFeed.Proofs.Worker.Course

namespace MarketFeed

def Vendor.Exchange.fails : Vendor.Exchange → Bool
  | ⟨.release, .panicked _⟩ => true
  | _ => false

namespace Worker

open Vendor

variable {σ : Type}

/-- A worker that refuses whatever comes, and leaves the vendor alone. -/
structure Dead (V : Vendor σ) (w : Worker σ) : Prop where
  refuses : ∀ (ms : List Move) (request : Request) (requestId : Option Int32),
    (w.run V ms).execute V request requestId =
      ⟨.notReady "native session already released", [], w.run V ms⟩
  silent : ∀ ms : List Move,
    (w.run V ms).exchanges = w.exchanges ∧ (w.run V ms).vendor = w.vendor

/-- A worker that is marked as released, and has no handle. -/
structure Retired (w : Worker σ) : Prop where
  released : w.released = true
  no_handle : w.hasHandle = false

theorem execute_of_released (V : Vendor σ) {w : Worker σ} (h : w.released = true) (r : Request)
    (id : Option Int32) :
    w.execute V r id = ⟨.notReady "native session already released", [], w⟩ :=
  execute_of_refused V (if_pos h) id

theorem Retired.step {w : Worker σ} (h : w.Retired) (V : Vendor σ) (m : Move) :
    (w.step V m).Retired ∧ (w.step V m).exchanges = w.exchanges ∧
      (w.step V m).vendor = w.vendor := by
  cases m with
  | execute r id =>
    rw [Worker.step, execute_of_released V h.released]
    exact ⟨h, rfl, rfl⟩
  | release =>
    rw [Worker.step, release_of_no_handle V h.no_handle]
    exact ⟨⟨rfl, h.no_handle⟩, rfl, rfl⟩

theorem Retired.run {w : Worker σ} (h : w.Retired) (V : Vendor σ) (ms : List Move) :
    (w.run V ms).Retired ∧ (w.run V ms).exchanges = w.exchanges ∧
      (w.run V ms).vendor = w.vendor := by
  induction ms generalizing w with
  | nil => exact ⟨h, rfl, rfl⟩
  | cons m ms ih =>
    obtain ⟨hm, he, hv⟩ := h.step V m
    obtain ⟨hr, he', hv'⟩ := ih hm
    exact ⟨hr, he'.trans he, hv'.trans hv⟩

theorem Retired.dead {w : Worker σ} (h : w.Retired) (V : Vendor σ) : w.Dead V where
  refuses ms r id := execute_of_released V (h.run V ms).1.released r id
  silent ms := (h.run V ms).2

inductive Released (V : Vendor σ) (w : Worker σ) : Prop
  | retired (hp : (w.release V).panic = none) (hw : (w.release V).worker.Retired)
  | broken (p : Panic) (hp : (w.release V).panic = some p)
      (hn : (w.release V).worker.hasHandle = false)
      (hr : (w.release V).worker.released = w.released)
      (he : (w.release V).worker.exchanges = w.exchanges ++ [⟨.release, .panicked p⟩])

theorem released_of_release (V : Vendor σ) (w : Worker σ) : Released V w := by
  cases hh : w.hasHandle with
  | false =>
    have he := release_of_no_handle V hh
    exact .retired (by rw [he]) (by rw [he]; exact ⟨rfl, hh⟩)
  | true =>
    cases hr : (V.call .release w.vendor).reply with
    | returned a => apply Released.retired <;> simp only [release, hh, hr, if_true, Retired.mk]
    | panicked p => apply Released.broken p <;> simp only [release, hh, hr, if_true]

/-- A worker of its own. It is released only without a handle; up to the first release that a panic
cut short, its calls keep the protocol of the handle, and its flags are true to them. -/
structure Kept (w : Worker σ) : Prop where
  released : w.released = true → w.hasHandle = false
  tracks : w.released = false → (∀ e ∈ w.exchanges, e.fails = false) → w.Tracks
  protocol : ∀ before e after, w.exchanges = before ++ e :: after →
    (∀ x ∈ before, x.fails = false) → HandleProtocol (before ++ [e])

theorem kept_fresh (vendor : σ) : (fresh vendor).Kept where
  released h := by cases h
  tracks _ _ := tracks_fresh vendor
  protocol before e after h := by
    cases before <;> cases h

theorem Kept.protocol_of_call {w w' : Worker σ} (h : w.Kept) (hw : w.released = false)
    (he : w'.exchanges = w.exchanges ∨ ∃ e, w'.exchanges = w.exchanges ++ [e])
    (hp : w.Tracks → HandleProtocol w'.exchanges) :
    ∀ before e after, w'.exchanges = before ++ e :: after →
      (∀ x ∈ before, x.fails = false) → HandleProtocol (before ++ [e]) := by
  intro before e after hs hf
  rcases he with he | ⟨e', he⟩
  · exact h.protocol before e after (he ▸ hs) hf
  · rcases snoc_eq_append_cons (he ▸ hs) with ⟨rfl, rfl⟩ | ⟨rest, hs'⟩
    · exact he ▸ hp (h.tracks hw hf)
    · exact h.protocol before e rest hs' hf

theorem Kept.of_retired {w w' : Worker σ} (h : w.Kept) (hw : w'.Retired)
    (he : w'.exchanges = w.exchanges) : w'.Kept where
  released _ := hw.no_handle
  tracks hr := by
    rw [hw.released] at hr
    cases hr
  protocol := he ▸ h.protocol

theorem exchanges_release_eq (V : Vendor σ) (w : Worker σ) :
    (w.release V).worker.exchanges = w.exchanges ∨
      ∃ e, (w.release V).worker.exchanges = w.exchanges ++ [e] := by
  cases hh : w.hasHandle with
  | false => exact .inl (exchanges_release_of_no_handle V hh)
  | true => exact .inr ⟨_, (release_of_handle V hh).2⟩

theorem Kept.release {w : Worker σ} (h : w.Kept) (V : Vendor σ) : (w.release V).worker.Kept := by
  cases hw : w.released with
  | true =>
    have hn := h.released hw
    rw [release_of_no_handle V hn]
    exact h.of_retired ⟨rfl, hn⟩ rfl
  | false =>
    have hprotocol := h.protocol_of_call hw (w.exchanges_release_eq V)
      fun ht => (ht.release V).protocol
    cases released_of_release V w with
    | retired hp hr =>
      refine ⟨fun _ => hr.no_handle, fun hf => ?_, hprotocol⟩
      rw [hr.released] at hf
      cases hf
    | broken p hp hn hr he =>
      refine ⟨fun _ => hn, fun _ hf => ?_, hprotocol⟩
      have hlast := hf ⟨.release, .panicked p⟩ (he ▸ List.mem_concat_self)
      cases hlast

theorem exchanges_execute_eq (V : Vendor σ) (w : Worker σ) {r : Request}
    (hr : r.operation ≠ .exit) (id : Option Int32) :
    (w.execute V r id).worker.exchanges = w.exchanges ∨
      ∃ e, (w.execute V r id).worker.exchanges = w.exchanges ++ [e] := by
  rcases w.execute_eq V hr id with ⟨detail, -, he⟩ | ⟨-, he⟩
  · exact .inl (congrArg (·.worker.exchanges) he)
  · rw [he, invoke_worker]
    exact .inr ⟨_, rfl⟩

theorem Kept.execute {w : Worker σ} (h : w.Kept) (V : Vendor σ) {r : Request}
    (hr : r.operation ≠ .exit) (id : Option Int32) : (w.execute V r id).worker.Kept := by
  cases hw : w.released with
  | true =>
    rw [execute_of_released V hw]
    exact h
  | false =>
    have hw' : (w.execute V r id).worker.released = false := (w.released_execute V hr id).trans hw
    refine ⟨fun ht => ?_, fun _ hf => ?_, ?_⟩
    · rw [hw'] at ht
      cases ht
    · have hpre := (w.exchanges_execute V r id).subset
      exact (h.tracks hw fun e he => hf e (hpre he)).execute V hr id
    · exact h.protocol_of_call hw (w.exchanges_execute_eq V hr id)
        fun ht => (ht.execute V hr id).protocol

theorem Kept.step_givesUp {w : Worker σ} (h : w.Kept) (V : Vendor σ) {m : Move}
    (hm : m.givesUp = true) :
    (w.Retired ∧ (w.release V).panic = none ∧ w.step V m = w) ∨
      w.step V m = (w.release V).worker := by
  cases m with
  | release => exact .inr rfl
  | execute r id =>
    obtain rfl := eq_exit_of_operation (of_decide_eq_true hm)
    cases hw : w.released with
    | true =>
      have hn := h.released hw
      refine .inl ⟨⟨hw, hn⟩, ?_, ?_⟩
      · rw [release_of_no_handle V hn]
      · rw [Worker.step, execute_of_released V hw]
    | false =>
      apply Or.inr
      have hn : w.refusal? Request.exit.operation = none := by
        simp only [refusal?, hw, Request.operation, Bool.false_eq_true, if_false]
      rw [Worker.step]
      unfold Worker.execute
      rw [hn]

theorem Kept.step {w : Worker σ} (h : w.Kept) (V : Vendor σ) (m : Move) : (w.step V m).Kept := by
  cases hm : m.givesUp with
  | true =>
    rcases h.step_givesUp V hm with ⟨-, -, he⟩ | he <;> rw [he]
    · exact h
    · exact h.release V
  | false =>
    cases m with
    | release => cases hm
    | execute r id => exact h.execute V (of_decide_eq_false hm) id

theorem kept_of_run (V : Vendor σ) (vendor : σ) (ms : List Move) :
    ((fresh vendor).run V ms).Kept := by
  induction ms using List.reverseRecOn with
  | nil => exact kept_fresh vendor
  | append_singleton ms m ih =>
    rw [run_append]
    exact ih.step V m

/-- What a worker is left as when it has given its handle up. -/
structure GivenUp (V : Vendor σ) (w w' : Worker σ) : Prop where
  dead_iff : w'.Dead V ↔ (w.release V).panic = none
  no_handle : w'.hasHandle = false
  needs_creation : (w.release V).panic ≠ none → ∀ (r : Request) (id : Option Int32),
    r.operation ≠ .create → r.operation ≠ .exit →
    w'.execute V r id = ⟨.notReady "native session not created", [], w'⟩
  dead_next : ∀ m : Move, m.givesUp = true → (w'.step V m).Dead V

theorem givenUp_of_retired {w w' : Worker σ} (V : Vendor σ) (hp : (w.release V).panic = none)
    (hw : w'.Retired) : GivenUp V w w' where
  dead_iff := iff_of_true (hw.dead V) hp
  no_handle := hw.no_handle
  needs_creation hn := absurd hp hn
  dead_next m _ := (hw.step V m).1.dead V

/-- Without a handle, there is nothing a release can panic in. -/
theorem retired_of_release (V : Vendor σ) {w : Worker σ} (h : w.hasHandle = false) :
    (w.release V).worker.Retired := by
  rw [release_of_no_handle V h]
  exact ⟨rfl, h⟩

theorem Kept.retired_of_givesUp {w : Worker σ} (h : w.Kept) (V : Vendor σ) {m : Move}
    (hm : m.givesUp = true) (hn : w.hasHandle = false) : (w.step V m).Retired := by
  rcases h.step_givesUp V hm with ⟨hr, -, he⟩ | he <;> rw [he]
  · exact hr
  · exact retired_of_release V hn

/-- A worker without a handle that is not released carries a creation out. -/
theorem not_dead_of_adrift (V : Vendor σ) {w : Worker σ} (hn : w.hasHandle = false)
    (hr : w.released = false) : ¬ w.Dead V := by
  intro hd
  have hc : w.refusal? (Request.create "").operation = none := by
    simp only [refusal?, Request.operation, hr, hn, Bool.false_eq_true, if_false]
  have hx : (Request.create "").operation ≠ .exit := by
    intro hx
    cases hx
  rcases w.execute_eq V hx none with ⟨detail, hw, -⟩ | ⟨-, he⟩
  · rw [hc] at hw
    cases hw
  · have hs := (hd.silent [.execute (.create "") none]).1
    change (w.execute V (.create "") none).worker.exchanges = w.exchanges at hs
    rw [he, invoke_worker] at hs
    exact absurd (congrArg List.length hs) (by simp)

theorem refusal?_of_adrift {w : Worker σ} (hn : w.hasHandle = false) (hr : w.released = false)
    {op : Operation} (hc : op ≠ .create) (hx : op ≠ .exit) :
    w.refusal? op = some "native session not created" := by
  cases op <;> first | exact absurd rfl hc | exact absurd rfl hx | simp [refusal?, hn, hr]

theorem Kept.givenUp {w : Worker σ} (h : w.Kept) (V : Vendor σ) {m : Move}
    (hm : m.givesUp = true) : GivenUp V w (w.step V m) := by
  rcases h.step_givesUp V hm with ⟨hr, hp, he⟩ | he <;> rw [he]
  · exact givenUp_of_retired V hp hr
  · cases released_of_release V w with
    | retired hp hr => exact givenUp_of_retired V hp hr
    | broken p hp hn hr hex =>
      have hw : w.released = false := by
        cases hw : w.released with
        | false => rfl
        | true =>
          rw [release_of_no_handle V (h.released hw)] at hp
          cases hp
      have hadrift := hr.trans hw
      have hpanic : (w.release V).panic ≠ none := by simp [hp]
      refine ⟨iff_of_false (not_dead_of_adrift V hn hadrift) hpanic, hn, fun _ r id hc hx => ?_,
        fun m' hm' => ((h.release V).retired_of_givesUp V hm' hn).dead V⟩
      exact execute_of_refused V (refusal?_of_adrift hn hadrift hc hx) id

/-- Whatever a worker did before, and whatever its vendor does: once an exit was carried out or a
release was called, the worker is dead exactly if that was not cut short by a panic. In either case
the handle is gone; after a panic, nothing but a creation asks anything of the vendor, and giving up
once more makes the worker dead. Up to the first release that a panic cut short, the calls keep the
protocol of the handle. -/
theorem dead_iff_released (V : Vendor σ) (vendor : σ) (before : List Move) :
    (∀ m : Move, m.givesUp = true →
      GivenUp V ((fresh vendor).run V before) ((fresh vendor).run V (before ++ [m]))) ∧
    ∀ past e later, ((fresh vendor).run V before).exchanges = past ++ e :: later →
      (∀ x ∈ past, x.fails = false) → HandleProtocol (past ++ [e]) := by
  have h := kept_of_run V vendor before
  apply And.intro
  · intro m hm
    rw [run_append]
    exact h.givenUp V hm
  · exact h.protocol

def clinging : Loopback := { options := { panicOn := some (method .exit) } }

theorem dead_iff_released_of_exit :
    (GivenUp Loopback.vendor
      ((fresh {}).run Loopback.vendor [.execute (.create "flow") none, .execute .init none])
      ((fresh {}).run Loopback.vendor
        [.execute (.create "flow") none, .execute .init none, .execute .exit none]) ∧
      (((fresh {}).run Loopback.vendor
        [.execute (.create "flow") none, .execute .init none]).release
          Loopback.vendor).panic = none) ∧
    GivenUp Loopback.vendor
      ((fresh clinging).run Loopback.vendor [.execute (.create "flow") none])
      ((fresh clinging).run Loopback.vendor
        [.execute (.create "flow") none, .release]) ∧
      (((fresh clinging).run Loopback.vendor [.execute (.create "flow") none]).release
          Loopback.vendor).panic = some (.text "simulated fault in release") := by
  refine ⟨⟨?_, rfl⟩, ?_, by decide⟩
  · exact (dead_iff_released Loopback.vendor {}
      [.execute (.create "flow") none, .execute .init none]).1 (.execute .exit none) rfl
  · exact (dead_iff_released Loopback.vendor clinging
      [.execute (.create "flow") none]).1 .release rfl

/-- After an exit that was cut short a second handle is created, and is asked for the trading day
though it was never started. -/
theorem alive_after_broken_exit :
    (¬ ∀ (σ : Type) (V : Vendor σ) (vendor : σ) (before : List Move) (m : Move),
      m.givesUp = true → ((fresh vendor).run V (before ++ [m])).Dead V) ∧
    ((fresh clinging).run Loopback.vendor
      [.execute (.create "flow") none, .execute .init none, .execute .exit none,
        .execute (.create "flow") none, .execute .tradingDay none]).calls =
      [.create "flow", .init, .release, .create "flow", .tradingDay] := by
  refine ⟨fun h => ?_, by decide⟩
  have hd := h Loopback Loopback.vendor clinging
    [.execute (.create "flow") none, .execute .init none] (.execute .exit none) rfl
  have hs := (hd.silent [.execute (.create "flow") none]).1
  exact absurd (congrArg List.length hs) (by decide)

end Worker

end MarketFeed
