import MarketFeed.Proofs.Client.Calls

namespace MarketFeed

variable {σ : Type}

theorem Client.heard?_of_started {c : Client σ} {sub : Submission Continuation} {outcome : Outcome}
    (h : (sub, outcome) ∈ c.session.started) :
    ∃ heard, c.heard? ⟨sub.continuation.tag⟩ = some heard := by
  rw [heard?]
  cases hf : c.session.finished.find? fun f => f.tag == sub.continuation.tag with
  | some f => exact ⟨_, rfl⟩
  | none =>
    rcases List.mem_append.1 h with hm | hm
    · obtain ⟨f, hfinished, he⟩ := List.mem_map.1 hm
      cases he
      exact absurd (beq_self_eq_true f.tag) (List.find?_eq_none.1 hf f hfinished)
    · cases hp : c.session.pump with
      | completing running given acts answers =>
        rw [hp] at hm
        cases List.mem_singleton.1 hm
        exact ⟨_, if_pos rfl⟩
      | _ =>
        rw [hp] at hm
        cases hm

namespace Session

theorem pump_of_pumpStep?_eq_none {V : Vendor σ} {s : Session σ} (free : s.booked = none)
    (h : s.pumpStep? V = none) :
    s.pump = .waiting ∧ s.lane.completions.items = [] ∧ s.lane.phase ≠ .ended ∨
      s.pump.standing = .detached ∨ s.pump.standing = .destroyed := by
  cases hp : s.pump with
  | unstarted => simp only [pumpStep?, hp, reduceCtorEq] at h
  | waiting =>
    simp only [pumpStep?, hp, beginTurn?] at h
    cases hc : s.lane.receive? with
    | some r => simp only [hc, reduceCtorEq] at h
    | none =>
      refine .inl ⟨rfl, Lane.receive?_eq_none_iff.1 hc, ?_⟩
      intro he
      simp only [hc, he, reduceCtorEq] at h
  | completing sub outcome acts answers =>
    rcases pumpStep?_completing V hp (fun act _ => mustWait_of_free free act) with
      ⟨answers', panic, he⟩ | ⟨act, later, answers', u, -, -, he⟩ <;> cases h.symm.trans he
  | draining count =>
    cases hm : s.mailbox.take? with
    | none => simp only [pumpStep?, hp, hm, reduceCtorEq] at h
    | some r => cases h.symm.trans (pumpStep?_take V hp hm)
  | dispatching count n r acts answers =>
    rcases pumpStep?_dispatching V hp (fun act _ => mustWait_of_free free act) with
      ⟨answers', panic, he⟩ | ⟨act, later, answers', u, -, -, he⟩ <;> cases h.symm.trans he
  | detached => exact .inr (.inl rfl)
  | destroyed => exact .inr (.inr rfl)

theorem Sound.started_of_rest {V : Vendor σ} {vendor : σ} {s : Session σ} (h : s.Sound V vendor)
    (settled : s.Settled V) (hpump : s.pumpStep? V = none)
    (alive : s.pump.standing ≠ .destroyed) : s.started.map (·.1) = s.accepted := by
  obtain ⟨free, hwork⟩ := settled
  rcases pump_of_pumpStep?_eq_none free hpump with ⟨hp, hc, hopen⟩ | hp | hp
  · obtain ⟨hphase, hjobs⟩ := (Lane.phase_of_advance?_eq_none hwork).resolve_left hopen
    have hrec : s.lane.receiving = true := by
      apply Bool.of_not_eq_false
      exact fun hr => alive (h.flow.receiving hr)
    have hun : s.lane.unreceived = [] := by
      rw [Lane.unreceived, h.heard.waiting hrec, hc]
      rfl
    rw [h.flow.accepted_eq h.orderly, hun, Lane.executing, hphase, Lane.queued, hjobs, free]
    simp only [List.map_nil, List.filterMap_nil, Option.toList_none, List.append_nil]
  · have hall := (h.closing.detached (isDetached_iff.2 hp)).1
    rw [started, hp, ← hall, List.map_append, List.map_map]
    exact List.append_nil _
  · exact absurd hp alive

end Session

namespace Connection

/-- Neither the connection itself nor the worker or the pump of its session can go on. -/
def AtRest (V : Vendor σ) (x : Connection σ) : Prop :=
  x.step? V .resume = none ∧
    ∀ m, m = .enqueue ∨ m = .work ∨ m = .pump → x.step? V (.around m) = none

theorem AtRest.session {V : Vendor σ} {x : Connection σ} (h : x.AtRest V) :
    x.client.session.Settled V ∧ x.client.session.pumpStep? V = none := by
  obtain ⟨-, h⟩ := h
  have hqueue := Option.map_eq_none_iff.1 (h .enqueue (.inl rfl))
  have hwork := Option.map_eq_none_iff.1 (h .work (.inr (.inl rfl)))
  have hpump := Option.map_eq_none_iff.1 (h .pump (.inr (.inr rfl)))
  refine ⟨⟨?_, Option.map_eq_none_iff.1 hwork⟩, hpump⟩
  cases hb : x.client.session.booked with
  | none => rfl
  | some sub =>
    rw [Session.step?, hb] at hqueue
    cases hqueue

section
variable {V : Vendor σ} {vendor : σ} {settings : Settings}

theorem Made.heard_of_rest {rs : List Request} {r : Request}
    {later : List (Except Failure Request)} {c : Client σ}
    (h : Made V vendor settings (rs ++ [r]) later c) (settled : c.session.Settled V)
    (hpump : c.session.pumpStep? V = none) : ∃ outcome, c.heard? ⟨rs.length⟩ = some outcome := by
  have hall := h.sound.started_of_rest settled hpump h.alive
  rw [h.accepted, submissions_concat] at hall
  have hlast : (⟨r, none, ⟨rs.length, []⟩⟩ : Submission Continuation) ∈
      c.session.started.map (·.1) := by
    rw [hall]
    exact List.mem_concat_self
  obtain ⟨⟨sub, outcome⟩, hm, rfl⟩ := List.mem_map.1 hlast
  exact Client.heard?_of_started hm

theorem Made.ended_of_rest {rs : List Request} {later : List (Except Failure Request)}
    {c : Client σ} (h : Made V vendor settings rs later c) (gone : c.session.held = false)
    (settled : c.session.Settled V) : c.session.lane.phase = .ended := by
  rcases Lane.phase_of_advance?_eq_none settled.2 with hp | ⟨hp, hj⟩
  · exact hp
  · cases gone.symm.trans (h.sound.held_of_waiting hp hj)

theorem Stands.ended_of_rest {x : Connection σ}
    (h : Stands V vendor settings x.client x.progress) (rest : x.AtRest V) :
    x.progress = .connected ∨
      ∃ f, x.progress = .failed f ∧ x.client.session.lane.phase = .ended := by
  obtain ⟨settled, hpump⟩ := rest.session
  obtain ⟨c, p⟩ := x
  cases h with
  | ready plan made held => cases rest.1
  | waiting rs r later made ok held =>
    obtain ⟨outcome, hh⟩ := made.heard_of_rest settled hpump
    have hstuck := Option.map_eq_none_iff.1 rest.1
    cases hh.symm.trans hstuck
  | connected rs made ok held => exact .inl rfl
  | refused rs next later f made ok begun hf gone =>
    exact .inr ⟨f, rfl, made.ended_of_rest gone settled⟩
  | failed rs r later f sub made ok last gone =>
    exact .inr ⟨f, rfl, made.ended_of_rest gone settled⟩

/-- A connection does not stop in the middle: where nothing can go on any more, it has come to one of
its ends, and the worker of one that has failed is through with everything. -/
theorem ended_of_rest {ms : List Move} {x : Connection σ}
    (hr : (start { session := .fresh vendor settings }).run V ms = some x) (rest : x.AtRest V) :
    x.progress = .connected ∨
      ∃ f, x.progress = .failed f ∧ x.client.session.lane.phase = .ended :=
  ((stands_start V vendor settings).run hr).ended_of_rest rest

end

end Connection

end MarketFeed
