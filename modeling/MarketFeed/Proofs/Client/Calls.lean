import MarketFeed.Proofs.Client.Course
import MarketFeed.Proofs.Client.Plan

namespace MarketFeed.Connection

open Vendor (Call Exchange)

section
variable {σ : Type} {V : Vendor σ} {vendor : σ} {settings : Settings} {rs : List Request}
  {later : List (Except Failure Request)} {c : Client σ} (h : Made V vendor settings rs later c)
include h

theorem Made.drawn : Drawn settings rs later := drawn_of_plan h.plan

theorem Made.not_exit : ∀ sub ∈ c.session.accepted, sub.operation ≠ .exit := by
  intro sub hm
  rw [h.accepted] at hm
  apply h.drawn.inTurn.not_exit
  rw [← requests_submissions rs]
  exact List.mem_map_of_mem hm

theorem Made.tracks : ((Worker.fresh vendor).serve V c.session.accepted).Tracks :=
  (Worker.tracks_fresh vendor).serve V h.not_exit

/-- What the session has handed out is what comes of the requests in their places. -/
theorem Made.outcome {place : Nat} {sub : Submission Continuation} {outcome : Outcome}
    (hs : c.session.started[place]? = some (sub, outcome)) :
    (submissions rs)[place]? = some sub ∧ outcome =
      (((Worker.fresh vendor).serve V ((submissions rs).take place)).execute V sub.request
        sub.requestId).result.outcome := by
  rw [← h.accepted]
  refine ⟨?_, h.sound.outcome_of_started hs⟩
  apply getElem?_mono h.sound.accepted_of_started
  rw [List.getElem?_map, hs]
  rfl

theorem Made.created {x : Submission Continuation} {xs : List (Submission Continuation)}
    (ok : Succeeded c.session 1) (hx : submissions rs = x :: xs) :
    ∃ v, ((Worker.fresh vendor).execute V x.request x.requestId).result.outcome = .ok v := by
  obtain ⟨sub, v, hs⟩ := ok 0 Nat.zero_lt_one
  obtain ⟨hsub, hout⟩ := h.outcome hs
  rw [hx] at hsub
  cases hsub
  exact ⟨v, hout.symm⟩

theorem Made.calls (ok : Succeeded c.session (rs.length - 1)) :
    ((Worker.fresh vendor).serve V c.session.accepted).calls = rs.map (·.vendorCall none) := by
  have hturn : Worker.InTurn ((submissions rs).map (·.request)) := by
    rw [requests_submissions]
    exact h.drawn.inTurn
  rw [h.accepted, Worker.calls_serve_fresh V vendor hturn]
  · exact calls_submissions rs
  · intro x y xs hx
    apply h.created (ok.of_le ?_) hx
    have hlen := congrArg List.length hx
    rw [length_submissions, List.length_cons, List.length_cons] at hlen
    omega

theorem Made.asked_prefix :
    c.session.lane.worker.asked <+:
      ((Worker.fresh vendor).serve V c.session.accepted).exchanges := by
  have hp := h.sound.exchanges_prefix.filter fun e => !e.closes
  rw [← h.tracks.asked_release V]
  exact hp

theorem Made.exited_eq : c.session.lane.exited = false := by
  apply Bool.eq_false_iff.2
  intro hx
  obtain ⟨done, hm, ho⟩ := List.any_eq_true.1 hx
  obtain ⟨rest, ha⟩ := h.sound.accepted_eq_served_append
  apply h.not_exit done.submission ?_ (of_decide_eq_true ho)
  rw [ha]
  exact List.mem_append_left _ (List.mem_map_of_mem hm)

/-- Once all calls have been answered, the worker has been asked for all that was accepted. -/
theorem Made.asked_eq (hl : rs.length ≤ c.session.started.length) :
    c.session.lane.worker.asked =
      ((Worker.fresh vendor).serve V c.session.accepted).exchanges := by
  have hserved := (h.answered hl).2.1
  by_cases hp : c.session.lane.phase = .ended
  · rw [h.sound.orderly.stopped hp h.exited_eq, hserved]
    exact h.tracks.asked_release V
  · rw [h.sound.orderly.worker fun he => absurd he hp, hserved]
    exact h.tracks.asked_eq

theorem Made.in_order (ok : Succeeded c.session (rs.length - 1)) :
    c.session.lane.worker.asked.map (·.call) <+: sequence settings := by
  have hp := h.asked_prefix.map Exchange.call
  have hc := h.calls ok
  rw [Worker.calls] at hc
  rw [hc] at hp
  exact hp.trans h.drawn.calls

theorem Made.short (ok : Succeeded c.session (rs.length - 1)) (hl : later ≠ []) :
    c.session.lane.worker.asked.map (·.call) ≠ sequence settings := by
  intro he
  have hp := (h.asked_prefix.map Exchange.call).length_le
  have hc := congrArg List.length (h.calls ok)
  rw [Worker.calls, List.length_map, List.length_map] at hc
  rw [he, List.length_map, hc] at hp
  exact Nat.not_lt.2 hp (h.drawn.short hl)

end

section
variable {σ : Type} {V : Vendor σ} {vendor : σ} {settings : Settings} {earlier : List Request}
  {r : Request} {later : List (Except Failure Request)} {c : Client σ}

theorem Made.last (h : Made V vendor settings (earlier ++ [r]) later c)
    {sub : Submission Continuation} {outcome : Outcome}
    (hs : c.session.started[earlier.length]? = some (sub, outcome)) :
    outcome =
      (((Worker.fresh vendor).serve V (submissions earlier)).execute V r none).result.outcome ∧
      (Worker.fresh vendor).serve V c.session.accepted =
        (((Worker.fresh vendor).serve V (submissions earlier)).execute V r none).worker := by
  obtain ⟨hsub, hout⟩ := h.outcome hs
  have hlen := length_submissions earlier
  rw [submissions_concat, List.getElem?_append_right (Nat.le_of_eq hlen), hlen,
    Nat.sub_self] at hsub
  cases hsub
  rw [submissions_concat, List.take_left' hlen] at hout
  refine ⟨hout, ?_⟩
  rw [h.accepted, submissions_concat, Worker.serve_concat]

theorem Made.initialized (h : Made V vendor settings (earlier ++ [.init]) later c)
    {sub : Submission Continuation} {v : CallValue}
    (hs : c.session.started[earlier.length]? = some (sub, .ok v)) :
    ((Worker.fresh vendor).serve V c.session.accepted).hasHandle = true ∧
      ((Worker.fresh vendor).serve V c.session.accepted).initialized = true := by
  obtain ⟨hout, hw⟩ := h.last hs
  rw [hw]
  cases Worker.execute_flagChange V ((Worker.fresh vendor).serve V (submissions earlier))
      (r := .init) (by decide) none with
  | none hh hi hno =>
    rcases hno with ⟨f, hf⟩ | ⟨-, hno⟩
    · cases hout.trans hf
    · exact absurd rfl hno
  | created ho => cases ho
  | started ho hv hw hh hi => exact ⟨hh.trans hw, hi⟩

theorem Made.hasHandle {first : Request} {between : List Request}
    (h : Made V vendor settings (first :: between ++ [r]) later c) (ok : Succeeded c.session 1) :
    ((Worker.fresh vendor).serve V (submissions (first :: between))).hasHandle = true := by
  obtain ⟨xs, hxs⟩ := submissions_cons first between
  obtain ⟨ys, hys⟩ := submissions_cons first (between ++ [r])
  have hturn := h.drawn.inTurn
  have hhandle := (Worker.hasHandle_of_creation V (w := Worker.fresh vendor) hturn.1 rfl none).2
    (h.created ok hys)
  have hno : ∀ x ∈ xs, x.operation ≠ .exit := by
    intro x hx
    apply hturn.not_exit x.request
    apply List.mem_append_left
    rw [← requests_submissions (first :: between), hxs]
    exact List.mem_map_of_mem (List.mem_cons_of_mem _ hx)
  rw [hxs]
  exact Worker.hasHandle_serve V (w := ((Worker.fresh vendor).execute V first none).worker) hno
    hhandle

/-- A call behind a creation that succeeded fails by a panic only. -/
theorem Made.panicked {first : Request} {between : List Request}
    (h : Made V vendor settings (first :: between ++ [r]) later c) (ok : Succeeded c.session 1)
    {sub : Submission Continuation} {f : Failure}
    (hs : c.session.started[(first :: between).length]? = some (sub, .error f)) :
    ∃ before call p, ((Worker.fresh vendor).serve V c.session.accepted).exchanges =
      before ++ [⟨call, .panicked p⟩] := by
  obtain ⟨hout, hw⟩ := h.last hs
  have hturn := h.drawn.inTurn
  have hsteady : r.isSteady = true :=
    hturn.2 r (List.mem_append_right _ (List.mem_singleton_self r))
  have hhandle := h.hasHandle ok
  have hreleased :
      ((Worker.fresh vendor).serve V (submissions (first :: between))).released = false := by
    apply Worker.released_serve
    intro x hx
    apply h.not_exit
    rw [h.accepted, submissions_concat]
    exact List.mem_append_left _ hx
  obtain ⟨p, hp⟩ := Worker.panicked_of_error V hsteady hhandle hreleased hout.symm
  refine ⟨((Worker.fresh vendor).serve V (submissions (first :: between))).exchanges,
    r.vendorCall none, p, ?_⟩
  rw [hw, Worker.exchanges_of_not_refused V (Request.not_exit_of_isSteady hsteady)
    (Worker.refusal?_of_isSteady hsteady hhandle hreleased), hp]

theorem Made.no_handle (h : Made V vendor settings [r] later c)
    {sub : Submission Continuation} {f : Failure}
    (hs : c.session.started[0]? = some (sub, .error f)) :
    ((Worker.fresh vendor).serve V c.session.accepted).hasHandle = false := by
  have hlast : Made V vendor settings ([] ++ [r]) later c := h
  obtain ⟨hout, hw⟩ := hlast.last hs
  rw [hw]
  apply Bool.eq_false_iff.2
  intro hh
  obtain ⟨v, hv⟩ := (Worker.hasHandle_of_creation V h.drawn.inTurn.1 rfl none).1 hh
  cases hout.trans hv

theorem Made.asked_creation {flowDir : String}
    (h : Made V vendor settings [.create flowDir] later c)
    {sub : Submission Continuation} {f : Failure}
    (hs : c.session.started[0]? = some (sub, .error f)) :
    ∃ reply, c.session.lane.worker.asked = [⟨.create flowDir, reply⟩] ∧
      Exchange.opens ⟨.create flowDir, reply⟩ = false := by
  have hasked := h.asked_eq (List.getElem?_eq_some_iff.1 hs).1
  have hcalls : c.session.lane.worker.asked.map (·.call) = [.create flowDir] := by
    rw [hasked]
    exact h.calls nofun
  obtain ⟨⟨call, reply⟩, he, hcall⟩ := List.map_eq_singleton_iff.1 hcalls
  cases hcall
  refine ⟨reply, he, ?_⟩
  have hno := h.no_handle hs
  rw [h.tracks.hasHandle, ← hasked, he] at hno
  exact Bool.eq_false_iff.2 (List.any_eq_false.1 hno _ (List.mem_singleton_self _))

theorem Made.state (h : Made V vendor settings (earlier ++ [.init]) [] c)
    (ok : Succeeded c.session (earlier ++ [Request.init]).length) :
    c.session.state = .initialized ∨ c.session.state = .active ∨
      c.session.state = .disconnected := by
  have hlen : (earlier ++ [Request.init]).length = earlier.length + 1 := List.length_append
  obtain ⟨sub, v, hs⟩ := ok earlier.length (by omega)
  obtain ⟨hhandle, hinit⟩ := h.initialized hs
  have hx : ¬ c.session.ExitAccepted := fun ⟨sub, hm, ho⟩ => h.not_exit sub hm ho
  have hfits := h.follows hx
  have hopen : c.session.state.isTerminal = false :=
    Bool.eq_false_iff.2 fun ht => hx (h.sound.closing.terminal.1 ht)
  rw [Session.heardOf, (h.answered ok.length_le).1] at hfits
  cases hst : c.session.state with
  | uninitialized => cases hhandle.symm.trans (hfits.handle.1 hst)
  | created => cases hinit.symm.trans (hfits.created hst)
  | initialized => exact .inl rfl
  | active => exact .inr (.inl rfl)
  | disconnected => exact .inr (.inr rfl)
  | exiting =>
    rw [hst] at hopen
    cases hopen
  | closed =>
    rw [hst] at hopen
    cases hopen

end

end MarketFeed.Connection
