import MarketFeed.Loopback
import MarketFeed.Proofs.Client.Calls

namespace MarketFeed

namespace Connection

open Vendor (Call Exchange)

/-- A connection makes all of its calls or leaves no handle behind. It is connected once its calls
have been made in their order, without a failure. Where it has failed, some calls of the sequence
have not been made, or the last of them panicked; when the worker has then come to its end, the
handle has been released once if there ever was one. The address of a front is not used while there
is one of a name server, whatever becomes of that. With no address at all the gateway is not
started, and that there is none is what the connection fails with, unless the creation itself has
failed. -/
structure AllOrNothing {σ : Type} (settings : Settings) (x : Connection σ) : Prop where
  connected : x.progress = .connected →
    x.client.session.lane.worker.calls = sequence settings ∧
      (x.client.session.state = .initialized ∨ x.client.session.state = .active ∨
        x.client.session.state = .disconnected)
  in_order : x.client.session.lane.worker.asked.map (·.call) <+: sequence settings
  failed : ∀ f, x.progress = .failed f →
    x.client.session.lane.worker.asked.map (·.call) ≠ sequence settings ∨
      x.client.session.lane.worker.asked.map (·.call) = sequence settings ∧
        ∃ before call p, x.client.session.lane.worker.asked = before ++ [⟨call, .panicked p⟩]
  released : ∀ f, x.progress = .failed f → x.client.session.lane.phase = .ended →
    x.client.session.lane.worker.exchanges.countP Exchange.closes =
      if x.client.session.lane.worker.exchanges.any Exchange.opens then 1 else 0
  name_server : ∀ address, settings.nameServerAddress? = some address →
    ∀ front, .registerFront front ∉ x.client.session.lane.worker.calls
  no_address : settings.nameServerAddress? = none → settings.frontAddress? = none →
    x.progress ≠ .connected ∧ .init ∉ x.client.session.lane.worker.calls ∧
      ∀ f, x.progress = .failed f →
        f = .configuration "either frontAddress or nameServerAddress is required" ∨
          ∃ reply, x.client.session.lane.worker.asked = [⟨.create settings.flowDir, reply⟩] ∧
            Exchange.opens ⟨.create settings.flowDir, reply⟩ = false

theorem mem_asked {σ : Type} {w : Worker σ} {call : Call} (h : call ∈ w.calls)
    (hc : call ≠ .release) : call ∈ w.asked.map (·.call) := by
  obtain ⟨e, he, rfl⟩ := List.mem_map.1 h
  apply List.mem_map_of_mem
  apply List.mem_filter.2 ⟨he, _⟩
  obtain ⟨call, reply⟩ := e
  cases call <;> first | rfl | exact absurd rfl hc

section
variable {σ : Type} {V : Vendor σ} {vendor : σ} {settings : Settings} {c : Client σ}

theorem Stands.made {p : Progress} (h : Stands V vendor settings c p) :
    ∃ rs later, Made V vendor settings rs later c ∧ Succeeded c.session (rs.length - 1) := by
  cases h with
  | ready plan made held => exact ⟨_, _, made, nofun⟩
  | waiting rs r later made ok held =>
    refine ⟨_, _, made, ?_⟩
    rw [List.length_append]
    exact ok
  | connected rs made ok held => exact ⟨_, _, made, ok.of_le (Nat.sub_le _ _)⟩
  | refused rs next later f made ok begun hf gone => exact ⟨_, _, made, ok.of_le (Nat.sub_le _ _)⟩
  | failed rs r later f sub made ok last gone =>
    refine ⟨_, _, made, ?_⟩
    rw [List.length_append]
    exact ok

theorem Stands.all_called (h : Stands V vendor settings c .connected) :
    c.session.lane.worker.calls = sequence settings ∧
      (c.session.state = .initialized ∨ c.session.state = .active ∨
        c.session.state = .disconnected) := by
  cases h with
  | connected rs made ok held =>
    obtain ⟨hall, first, between, rfl⟩ := made.drawn.all rfl
    refine ⟨?_, made.state ok⟩
    rw [made.sound.orderly.worker (made.sound.exited_of_ended held),
      (made.answered ok.length_le).2.1, made.calls (ok.of_le (Nat.sub_le _ _)), hall]

theorem Stands.not_all_succeeded {f : Failure} (h : Stands V vendor settings c (.failed f)) :
    c.session.lane.worker.asked.map (·.call) ≠ sequence settings ∨
      c.session.lane.worker.asked.map (·.call) = sequence settings ∧
        ∃ before call p, c.session.lane.worker.asked = before ++ [⟨call, .panicked p⟩] := by
  cases h with
  | refused rs next later f made ok begun hf gone =>
    exact .inl (made.short (ok.of_le (Nat.sub_le _ _)) (List.cons_ne_nil next later))
  | failed rs r later f sub made ok last gone =>
    have ok' : Succeeded c.session ((rs ++ [r]).length - 1) := by
      rw [List.length_append]
      exact ok
    by_cases hl : later = []
    · obtain ⟨hcalls, first, between, hall⟩ := made.drawn.all hl
      obtain ⟨rfl, -⟩ := List.append_inj' hall rfl
      have hstarted := (List.getElem?_eq_some_iff.1 last).1
      rw [made.asked_eq (by rw [List.length_append]; exact hstarted)]
      refine .inr ⟨(made.calls ok').trans hcalls, ?_⟩
      exact made.panicked (ok.of_le (Nat.succ_pos _)) last
    · exact .inl (made.short ok' hl)

theorem Stands.released {p : Progress} (h : Stands V vendor settings c p)
    (hp : c.session.lane.phase = .ended) :
    c.session.lane.worker.exchanges.countP Exchange.closes =
      if c.session.lane.worker.exchanges.any Exchange.opens then 1 else 0 := by
  obtain ⟨rs, later, made, -⟩ := h.made
  have hk := made.handled.keepsProtocol V
  have hone := hk.protocol.opened_once
  rw [hk.released hp]
  split
  · have hpos := List.countP_pos_iff.2 (List.any_eq_true.1 ‹_›)
    omega
  · apply List.countP_eq_zero.2
    intro e he
    exact List.any_eq_false.1 (Bool.eq_false_iff.2 ‹_›) e he

theorem Stands.in_order {p : Progress} (h : Stands V vendor settings c p) :
    c.session.lane.worker.asked.map (·.call) <+: sequence settings := by
  obtain ⟨rs, later, made, ok⟩ := h.made
  exact made.in_order ok

theorem Stands.no_front {p : Progress} (h : Stands V vendor settings c p) {address : String}
    (ha : settings.nameServerAddress? = some address) (front : String) :
    .registerFront front ∉ c.session.lane.worker.calls := by
  intro hm
  have hs := h.in_order.subset (mem_asked hm nofun)
  rw [sequence, addressCall?, ha] at hs
  simp at hs

theorem Stands.no_start {p : Progress} (h : Stands V vendor settings c p)
    (hn : settings.nameServerAddress? = none) (hf : settings.frontAddress? = none) :
    .init ∉ c.session.lane.worker.calls := by
  obtain ⟨rs, later, made, ok⟩ := h.made
  intro hm
  have hs := (made.asked_prefix.map Exchange.call).subset (mem_asked hm nofun)
  change _ ∈ ((Worker.fresh vendor).serve V c.session.accepted).calls at hs
  rw [made.calls ok] at hs
  rcases (made.drawn.addressless hn hf).2 with rfl | ⟨rfl, -⟩
  · cases hs
  · cases List.mem_singleton.1 hs

theorem Stands.no_address {f : Failure} (h : Stands V vendor settings c (.failed f))
    (hn : settings.nameServerAddress? = none) (hf : settings.frontAddress? = none) :
    f = noAddress ∨
      ∃ reply, c.session.lane.worker.asked = [⟨.create settings.flowDir, reply⟩] ∧
        Exchange.opens ⟨.create settings.flowDir, reply⟩ = false := by
  cases h with
  | refused rs next later f made ok begun he gone =>
    rcases (made.drawn.addressless hn hf).2 with hnil | ⟨-, hnext⟩
    · exact absurd hnil begun
    · exact .inl (he _ (Option.some.inj hnext)).symm
  | failed rs r later f sub made ok last gone =>
    rcases (made.drawn.addressless hn hf).2 with hnil | ⟨hone, -⟩
    · exact absurd hnil (List.concat_ne_nil r rs)
    · cases rs with
      | nil =>
        obtain ⟨rfl, -⟩ := List.cons.inj hone
        exact .inr (made.asked_creation last)
      | cons first rs => exact absurd (List.cons.inj hone).2 (List.concat_ne_nil r rs)

end

theorem Stands.allOrNothing {σ : Type} {V : Vendor σ} {vendor : σ} {settings : Settings}
    {x : Connection σ} (h : Stands V vendor settings x.client x.progress) :
    AllOrNothing settings x where
  connected hp := by
    rw [hp] at h
    exact h.all_called
  in_order := h.in_order
  failed f hp := by
    rw [hp] at h
    exact h.not_all_succeeded
  released _ _ := h.released
  name_server _ ha := h.no_front ha
  no_address hn hf := by
    refine ⟨?_, h.no_start hn hf, ?_⟩
    · intro hp
      rw [hp] at h
      cases h with
      | connected rs made ok held => exact (made.drawn.addressless hn hf).1 rfl
    · intro f hp
      rw [hp] at h
      exact h.no_address hn hf

/-- Whatever the vendor does, and in whatever order the pump and the worker move, a connection is all
or nothing. A session that cannot be made is a fault of the configuration, and has no vendor. -/
theorem connect_all_or_nothing {σ : Type} (V : Vendor σ) (vendor : σ) (hasScheduler : Bool)
    (settings : Settings) :
    (∀ f, Session.create hasScheduler vendor settings = .refused f →
      ∃ detail, f = .configuration detail) ∧
    ∀ s₀, Session.create hasScheduler vendor settings = .made s₀ →
      ∀ (ms : List Move) (x : Connection σ), (start { session := s₀ }).run V ms = some x →
        x.AllOrNothing settings := by
  apply And.intro
  · intro f hc
    cases hasScheduler with
    | false =>
      cases hc
      exact ⟨_, rfl⟩
    | true =>
      rw [Session.create, if_pos rfl] at hc
      cases hw : settings.workerNameFault? <;> rw [hw] at hc <;> cases hc
  · intro s₀ hc ms x hr
    obtain ⟨-, -, rfl⟩ := Session.create_eq_made_iff.1 hc
    exact ((stands_start V vendor settings).run hr).allOrNothing

/-- A call from its submission to the point where the connection hears of it, which is before its
continuation has come to the end. -/
def untilHeard : List Move :=
  [.around .enqueue, .around .work, .around .work, .around .pump, .around .pump, .resume]

def reachable : Settings := { frontAddress? := some "tcp://127.0.0.1:41213" }

def misdirected : Settings := { reachable with nameServerAddress? := some "nowhere" }

theorem connect_all_or_nothing_of_front :
    (∃ x : Connection Loopback,
      (start { session := .fresh {} reachable }).run Loopback.vendor
        (.resume :: untilHeard ++ untilHeard ++ untilHeard) = some x ∧
      x.progress = .connected ∧ x.AllOrNothing reachable) ∧
    ∃ x : Connection Loopback,
      (start { session := .fresh {} misdirected }).run Loopback.vendor
        (.resume :: untilHeard ++ [.around .work]) = some x ∧
      x.client.session.lane.phase = .ended ∧
      x.client.session.lane.worker.calls = [.create "./flow", .release] ∧
      x.AllOrNothing misdirected := by
  apply And.intro
  · obtain ⟨x, hx, hp⟩ := Option.map_eq_some_iff.1
      (rfl : ((start { session := .fresh {} reachable }).run Loopback.vendor
        (.resume :: untilHeard ++ untilHeard ++ untilHeard)).map (·.progress) = some .connected)
    have hc : Session.create true ({} : Loopback) reachable = .made (.fresh {} reachable) :=
      Session.create_eq_made_iff.2 ⟨rfl, by decide +kernel, rfl⟩
    exact ⟨x, hx, hp, (connect_all_or_nothing Loopback.vendor {} true reachable).2 _ hc _ x hx⟩
  · obtain ⟨x, hx, hp⟩ := Option.map_eq_some_iff.1
      (rfl : ((start { session := .fresh {} misdirected }).run Loopback.vendor
        (.resume :: untilHeard ++ [.around .work])).map
          (fun x => (x.client.session.lane.phase, x.client.session.lane.worker.calls)) =
            some (.ended, [.create "./flow", .release]))
    have hc : Session.create true ({} : Loopback) misdirected = .made (.fresh {} misdirected) :=
      Session.create_eq_made_iff.2 ⟨rfl, by decide +kernel, rfl⟩
    obtain ⟨hphase, hcalls⟩ := Prod.mk.inj hp
    exact ⟨x, hx, hphase, hcalls,
      (connect_all_or_nothing Loopback.vendor {} true misdirected).2 _ hc _ x hx⟩

end Connection

end MarketFeed
