import MarketFeed.Client.Connect
import MarketFeed.Proofs.Worker.Steady

namespace MarketFeed.Connection

open Vendor (Call)

/-- The address that is told to the vendor: that of a name server, if there is one. -/
def addressCall? (settings : Settings) : Option Call :=
  match settings.nameServerAddress?, settings.frontAddress? with
  | some address, _ => some (.registerNameServer address)
  | none, some address => some (.registerFront address)
  | none, none => none

def sequence (settings : Settings) : List Call :=
  .create settings.flowDir :: (addressCall? settings).toList ++ [.init]

def noAddress : Failure := .configuration "either frontAddress or nameServerAddress is required"

/-- What the requests that were taken from the plan, and what is left of it, say about the calls. -/
structure Drawn (settings : Settings) (rs : List Request) (later : List (Except Failure Request)) :
    Prop where
  inTurn : Worker.InTurn rs
  calls : rs.map (·.vendorCall none) <+: sequence settings
  all : later = [] → rs.map (·.vendorCall none) = sequence settings ∧
    ∃ first between, rs = first :: between ++ [.init]
  short : later ≠ [] → rs.length < (sequence settings).length
  addressless : settings.nameServerAddress? = none → settings.frontAddress? = none →
    later ≠ [] ∧ (rs = [] ∨ rs = [.create settings.flowDir] ∧ later.head? = some (.error noAddress))

theorem drawn_of_address {settings : Settings} {rs : List Request}
    {later : List (Except Failure Request)} (address : Request)
    (ha : Client.registration settings = .ok address) (hsteady : address.isSteady = true)
    (hc : addressCall? settings = some (address.vendorCall none))
    (hno : ¬ (settings.nameServerAddress? = none ∧ settings.frontAddress? = none))
    (h : Client.plan settings = rs.map .ok ++ later) : Drawn settings rs later := by
  let all : List Request := [.create settings.flowDir, address, .init]
  have hall : sequence settings = all.map (·.vendorCall none) := by
    rw [sequence, hc]
    rfl
  have hp : all.map Except.ok = rs.map Except.ok ++ later := by
    rw [← h, Client.plan, ha]
    rfl
  obtain ⟨taken, rest, hsplit, ht, rfl⟩ := List.map_eq_append_iff.1 hp
  obtain rfl : taken = rs := (List.map_inj_right fun _ _ => Except.ok.inj).1 ht
  apply Drawn.mk
  case inTurn =>
    have hturn : Worker.InTurn (taken ++ rest) := by
      rw [← hsplit]
      refine ⟨rfl, ?_⟩
      intro r hr
      rcases List.mem_cons.1 hr with rfl | hr
      · exact hsteady
      · rw [List.mem_singleton.1 hr]
        rfl
    exact hturn.of_append
  case calls =>
    rw [hall, hsplit, List.map_append]
    exact List.prefix_append _ _
  case all =>
    intro hl
    rw [List.map_eq_nil_iff.1 hl, List.append_nil] at hsplit
    refine ⟨by rw [hall, hsplit], .create settings.flowDir, [address], ?_⟩
    rw [← hsplit]
    rfl
  case short =>
    intro hl
    have hpos := List.length_pos_iff.2 hl
    rw [hall, hsplit, List.length_map, List.length_append]
    rw [List.length_map] at hpos
    omega
  case addressless => exact fun hn hf => absurd ⟨hn, hf⟩ hno

theorem drawn_of_no_address {settings : Settings} {rs : List Request}
    {later : List (Except Failure Request)} (hn : settings.nameServerAddress? = none)
    (hf : settings.frontAddress? = none)
    (h : Client.plan settings = rs.map .ok ++ later) : Drawn settings rs later := by
  have hs : sequence settings = [.create settings.flowDir, .init] := by
    rw [sequence, addressCall?, hn, hf]
    rfl
  rw [Client.plan, Client.registration, hn, hf] at h
  change ([.ok (.create settings.flowDir), .error noAddress, .ok .init] :
    List (Except Failure Request)) = _ at h
  cases rs with
  | nil =>
    change _ = later at h
    subst h
    refine ⟨trivial, List.nil_prefix, nofun, fun _ => ?_, fun _ _ => ⟨nofun, .inl rfl⟩⟩
    rw [hs]
    exact Nat.zero_lt_two
  | cons r rs =>
    simp only [List.map_cons, List.cons_append, List.cons.injEq, Except.ok.injEq] at h
    obtain ⟨rfl, h⟩ := h
    cases rs with
    | cons r rs => cases (List.cons.inj h).1
    | nil =>
      change _ = later at h
      subst h
      refine ⟨⟨rfl, nofun⟩, ?_, nofun, fun _ => ?_, fun _ _ => ⟨nofun, .inr ⟨rfl, rfl⟩⟩⟩
      · rw [hs]
        exact List.prefix_append _ _
      · rw [hs]
        exact Nat.one_lt_two

theorem drawn_of_plan {settings : Settings} {rs : List Request}
    {later : List (Except Failure Request)}
    (h : Client.plan settings = rs.map .ok ++ later) : Drawn settings rs later := by
  cases hn : settings.nameServerAddress? with
  | some address =>
    apply drawn_of_address (.registerNameServer address) ?_ rfl ?_ ?_ h
    · rw [Client.registration, hn]
    · rw [addressCall?, hn]
      rfl
    · exact fun hno => nomatch hn.symm.trans hno.1
  | none =>
    cases hf : settings.frontAddress? with
    | some address =>
      apply drawn_of_address (.registerFront address) ?_ rfl ?_ ?_ h
      · rw [Client.registration, hn, hf]
      · rw [addressCall?, hn, hf]
        rfl
      · exact fun hno => nomatch hf.symm.trans hno.2
    | none => exact drawn_of_no_address hn hf h

end MarketFeed.Connection
