import MarketFeed.Lane.Run

namespace MarketFeed.Lane

variable {σ κ : Type}

/-- The lane once a request was carried out, before its completion is sent. -/
def carryOut (l : Lane σ κ) (s : Submission κ) (e : Worker.Execution σ) : Lane σ κ :=
  { l with
    worker := e.worker
    phase := if s.operation = .exit then .ended else .waiting
    executed := l.executed ++ [⟨s, e.result⟩] }

/-- What the worker's thread does to the lane in a step. -/
inductive Advance (V : Vendor σ) (l : Lane σ κ) : Lane σ κ → Prop
  | take (s : Submission κ) (rest : List (Job κ)) (hp : l.phase = .waiting)
      (hj : l.jobs.items = .run s :: rest) :
      Advance V l { l with jobs := ⟨rest⟩, phase := .busy s }
  | finish (rest : List (Job κ)) (hp : l.phase = .waiting) (hj : l.jobs.items = .stop :: rest) :
      Advance V l
        { l with jobs := ⟨rest⟩, worker := (l.worker.release V).worker, phase := .ended }
  | execute (s : Submission κ) (e : Worker.Execution σ) (hp : l.phase = .busy s)
      (he : l.worker.execute V s.request s.requestId = e) :
      Advance V l ((l.carryOut s e).send ⟨s, e.result⟩)

inductive Step (V : Vendor σ) (l : Lane σ κ) : Lane σ κ → Prop
  | submit (s : Submission κ) : Step V l (l.submit s)
  | stop (hs : l.stopped = false) : Step V l ({ l with stopped := true }.issue .stop)
  | stopAgain (hs : l.stopped = true) : Step V l l
  | work (l' : Lane σ κ) (h : Advance V l l') : Step V l l'
  | receive (c : Completion κ) (rest : List (Completion κ)) (hc : l.completions.items = c :: rest) :
      Step V l { l with completions := ⟨rest⟩ }
  | stopReceiving : Step V l l.stopReceiving

theorem not_ended_of_waiting {l : Lane σ κ} (hp : l.phase = .waiting) : l.phase ≠ .ended := by
  intro he
  rw [hp] at he
  cases he

theorem not_ended_of_busy {l : Lane σ κ} {s : Submission κ} (hp : l.phase = .busy s) :
    l.phase ≠ .ended := by
  intro he
  rw [hp] at he
  cases he

theorem Step.of_stop (V : Vendor σ) (l : Lane σ κ) : Step V l l.stop := by
  rw [Lane.stop]
  split
  · exact .stopAgain (by assumption)
  · exact .stop (Bool.eq_false_iff.2 (by assumption))

theorem Advance.of_advance? {V : Vendor σ} {l l' : Lane σ κ} {raised : List Callback}
    (h : l.advance? V = some (raised, l')) : Advance V l l' := by
  cases hp : l.phase with
  | ended => simp [advance?, hp] at h
  | waiting =>
    cases hj : l.jobs.pop? with
    | none => simp [advance?, hp, hj] at h
    | some r =>
      obtain ⟨job, rest⟩ := r
      have hi := Queue.pop?_eq_some_iff.1 hj
      cases job with
      | run s =>
        simp only [advance?, hp, hj, Option.some.injEq, Prod.mk.injEq] at h
        rw [← h.2]
        exact .take s rest.items hp hi
      | stop =>
        simp only [advance?, hp, hj, Option.some.injEq, Prod.mk.injEq] at h
        rw [← h.2]
        exact .finish rest.items hp hi
  | busy s =>
    simp only [advance?, hp, Option.some.injEq, Prod.mk.injEq] at h
    rw [← h.2]
    exact .execute s _ hp rfl

theorem receive?_eq_some_iff {l l' : Lane σ κ} {c : Completion κ} :
    l.receive? = some (c, l') ↔
      ∃ rest, l.completions.items = c :: rest ∧ l' = { l with completions := ⟨rest⟩ } := by
  apply Iff.intro
  · intro h
    cases hq : l.completions.pop? with
    | none => simp [receive?, hq] at h
    | some r =>
      obtain ⟨c', rest⟩ := r
      simp only [receive?, hq, Option.map_some, Option.some.injEq, Prod.mk.injEq] at h
      obtain ⟨rfl, rfl⟩ := h
      exact ⟨rest.items, Queue.pop?_eq_some_iff.1 hq, rfl⟩
  · rintro ⟨rest, hc, rfl⟩
    have hq : l.completions.pop? = some (c, ⟨rest⟩) := Queue.pop?_eq_some_iff.2 hc
    simp only [receive?, hq, Option.map_some]

theorem receive?_eq_none_iff {l : Lane σ κ} : l.receive? = none ↔ l.completions.items = [] := by
  simp only [receive?, Option.map_eq_none_iff, Queue.pop?_eq_none_iff]

theorem Step.of_receive? {V : Vendor σ} {l l' : Lane σ κ} {c : Completion κ}
    (h : l.receive? = some (c, l')) : Step V l l' := by
  obtain ⟨rest, hc, rfl⟩ := receive?_eq_some_iff.1 h
  exact .receive c rest hc

theorem Step.of_step? {V : Vendor σ} {l l' : Lane σ κ} {m : Move κ}
    (h : l.step? V m = some l') : Step V l l' := by
  cases m with
  | submit s => cases h; exact .submit s
  | stop => cases h; exact .of_stop V l
  | work =>
    obtain ⟨⟨raised, l''⟩, ha, rfl⟩ := Option.map_eq_some_iff.1 h
    exact .work l'' (.of_advance? ha)
  | receive =>
    obtain ⟨⟨c, l''⟩, hr, rfl⟩ := Option.map_eq_some_iff.1 h
    exact .of_receive? hr
  | stopReceiving => cases h; exact .stopReceiving

theorem run_induction {V : Vendor σ} {P : Lane σ κ → Prop}
    (step : ∀ l l', P l → Step V l l' → P l') {l l' : Lane σ κ} {ms : List (Move κ)}
    (h : l.run V ms = some l') (hl : P l) : P l' := by
  induction ms generalizing l with
  | nil => cases h; exact hl
  | cons m ms ih =>
    rw [run, List.foldlM_cons] at h
    obtain ⟨l₁, hm, hr⟩ := Option.bind_eq_some_iff.1 h
    exact ih hr (step _ _ hl (.of_step? hm))

theorem send_eq (l : Lane σ κ) (c : Completion κ) :
    ∃ cs us, l.send c = { l with completions := cs, unheard := us } := by
  rw [send]
  split
  · exact ⟨_, _, rfl⟩
  · exact ⟨_, _, rfl⟩

theorem executed_send (l : Lane σ κ) (c : Completion κ) : (l.send c).executed = l.executed := by
  obtain ⟨cs, us, he⟩ := l.send_eq c
  rw [he]

theorem worker_send (l : Lane σ κ) (c : Completion κ) : (l.send c).worker = l.worker := by
  obtain ⟨cs, us, he⟩ := l.send_eq c
  rw [he]

theorem submitted_submit (l : Lane σ κ) (s : Submission κ) :
    (l.submit s).submitted = l.submitted ++ [s] := by
  simp only [submitted, submit, issue, List.filterMap_append, List.filterMap_cons,
    Job.submission?, List.filterMap_nil]

theorem submitted_stop (l : Lane σ κ) : l.stop.submitted = l.submitted := by
  rw [stop]
  split
  · rfl
  · simp only [submitted, issue, List.filterMap_append, List.filterMap_cons, Job.submission?,
      List.filterMap_nil, List.append_nil]

end MarketFeed.Lane
