import MarketFeed.Client.Connect
import MarketFeed.Proofs.Session.Code
import MarketFeed.Proofs.Session.Trace

namespace MarketFeed.Session

variable {σ : Type} {s t : Session σ}

theorem StateChange.started_prefix (h : StateChange s t) : s.started <+: t.started := by
  cases h with
  | keep hs ha hst => exact hst ▸ List.prefix_rfl
  | accept sub hc hs ha hst => exact hst ▸ List.prefix_rfl
  | answer c hs ha hst => exact hst ▸ List.prefix_append _ _
  | hear n r hs ha hst => exact hst ▸ List.prefix_rfl

/-- The session is held as it was, and its pump has not been destroyed. -/
structure Stays (s t : Session σ) : Prop where
  held : t.held = s.held
  pump : s.pump.standing ≠ .destroyed → t.pump.standing ≠ .destroyed

theorem Stays.of_eq (hh : t.held = s.held) (hp : t.pump = s.pump) : Stays s t :=
  ⟨hh, fun h => hp ▸ h⟩

theorem stays_endTurn (s : Session σ) : Stays s s.endTurn where
  held := (TurnEnd.of_endTurn s).frame.2.2.1
  pump _ := by
    rcases (TurnEnd.of_endTurn s).pump with hp | hp <;> rw [hp] <;> nofun

theorem stays_pumpStep? {V : Vendor σ} (h : s.pumpStep? V = some t) : Stays s t := by
  cases PumpStep.of_pumpStep? h with
  | start hp => exact ⟨rfl, fun _ => nofun⟩
  | receive c lane hp hc =>
    obtain ⟨log, he⟩ := beginCompletion_eq { s with lane := lane } c
    rw [he]
    exact ⟨rfl, fun _ => nofun⟩
  | quit hp hc he => exact ⟨rfl, fun _ => nofun⟩
  | wake m hp hc hm => exact ⟨rfl, fun _ => nofun⟩
  | endCompletion sub outcome acts answers answers' panic hp hend =>
    obtain ⟨log, he⟩ := s.endCompletion_eq sub outcome answers' panic
    have hs := stays_endTurn { s with
      finished := s.finished ++ [⟨sub, outcome, answers'⟩]
      listeners := if sub.operation = .exit then .empty else s.listeners
      inFlight := s.inFlight - 1
      log := log }
    rw [he]
    exact ⟨hs.held, hs.pump⟩
  | continueCompletion sub outcome act acts answers answers' hp hw hq =>
    exact ⟨(HostChange.of_perform V hw).frame.2.2.2.1, fun _ => nofun⟩
  | take count n m hp hm =>
    rcases beginDispatch_eq { s with mailbox := m } count n with
      ⟨-, log, he⟩ | ⟨r, log, -, he⟩ <;> rw [he] <;> exact ⟨rfl, fun _ => nofun⟩
  | endDrain count hp hm =>
    obtain ⟨log, he⟩ := s.endDrain_eq count
    have hs := stays_endTurn { s with log := log }
    rw [he]
    exact ⟨hs.held, hs.pump⟩
  | endDispatch count n r acts answers answers' panic hp hend =>
    obtain ⟨log, he⟩ := s.endDispatch_eq count n r answers' panic
    rw [he]
    exact ⟨rfl, fun _ => nofun⟩
  | continueDispatch count n r act acts answers answers' hp hw hq =>
    exact ⟨(HostChange.of_perform V hw).frame.2.2.2.1, fun _ => nofun⟩

theorem stays_of_unattended {V : Vendor σ} {m : Move} (hm : m.isUnattended = true)
    (h : s.step? V m = some t) : Stays s t := by
  cases m with
  | enqueue =>
    obtain ⟨-, h⟩ := Option.ite_none_right_eq_some.1 h
    cases h
    rw [enqueue]
    cases s.booked <;> exact .of_eq rfl rfl
  | post callback =>
    cases h
    exact .of_eq rfl rfl
  | ring =>
    obtain ⟨m, -, rfl⟩ := Option.map_eq_some_iff.1 h
    exact .of_eq rfl rfl
  | work =>
    obtain ⟨⟨raised, lane⟩, -, rfl⟩ := Option.map_eq_some_iff.1 h
    exact .of_eq rfl rfl
  | pump => exact stays_pumpStep? h
  | _ => cases hm

/-- There is nothing to be done on the pump of a session but to hand out outcomes. -/
structure Quiet (s : Session σ) : Prop where
  continuations : ∀ sub ∈ s.accepted, sub.continuation.acts = []
  listeners : ∀ kind, s.listeners.find? kind = none
  current : s.pump.acts = []

theorem quiet_fresh (vendor : σ) (settings : Settings) : (fresh vendor settings).Quiet where
  continuations _ h := by cases h
  listeners := Listeners.find?_empty
  current := rfl

/-- A move that submits nothing. -/
theorem accepted_eq_of_step? {V : Vendor σ} {m : Move} (hs : s.step? V m = some t)
    (hn : s.submission? m = none) : t.accepted = s.accepted := by
  rw [accepted_of_step? hs, hn]
  exact List.append_nil _

theorem Quiet.brings_nothing (h : s.Quiet) {m : Move} (hm : m.isUnattended = true) :
    s.submission? m = none ∧ s.registration? m = none := by
  cases m with
  | pump => exact nothing_brought h.current
  | enqueue => exact ⟨rfl, rfl⟩
  | post callback => exact ⟨rfl, rfl⟩
  | ring => exact ⟨rfl, rfl⟩
  | work => exact ⟨rfl, rfl⟩
  | _ => cases hm

theorem Quiet.of_step? (h : s.Quiet) {V : Vendor σ} {vendor : σ} (ht : t.Sound V vendor) {m : Move}
    (hs : s.step? V m = some t)
    (hsub : ∀ sub, s.submission? m = some sub → sub.continuation.acts = [])
    (hreg : s.registration? m = none) : t.Quiet := by
  have continuations : ∀ sub ∈ t.accepted, sub.continuation.acts = [] := by
    intro sub hm
    rw [accepted_of_step? hs, accepted_offered] at hm
    rcases List.mem_append.1 hm with hm | hm
    · exact h.continuations sub hm
    · exact hsub sub (Option.filter_eq_some_iff.1 (Option.mem_toList.1 hm)).1
  apply Quiet.mk continuations
  case listeners =>
    intro kind
    cases hf : t.listeners.find? kind with
    | none => rfl
    | some r =>
      have hw := within_of_step? hs kind r hf
      rw [hreg, registering, h.listeners] at hw
      cases hw
  case current =>
    by_cases hp : m = .pump
    case neg => exact (goes_of_step? hp hs).acts.trans h.current
    subst hp
    cases hr : s.pump.isRunning with
    | true => rw [(goes_of_pumpStep? hr hs).acts, remaining, h.current]
    | false =>
      cases begins_of_pumpStep? hr hs with
      | nothing hn => exact Pump.acts_of_not_running hn
      | continuation sub outcome hpump hst =>
        rw [hpump]
        exact continuations sub (List.mem_of_getElem? (ht.accepted_getElem? hst))
      | listener count n r hpump hfind =>
        rw [h.listeners] at hfind
        cases hfind

end MarketFeed.Session
