import MarketFeed.Proofs.Lane.Handover

namespace MarketFeed.Lane

variable {σ κ : Type}

def Move.receives : Move κ → Bool
  | receive | stopReceiving => true
  | _ => false

def given? (l : Lane σ κ) : Move κ → Option (Completion κ)
  | .receive => l.receive?.map (·.1)
  | _ => none

def received (V : Vendor σ) (l : Lane σ κ) : List (Move κ) → List (Completion κ)
  | [] => []
  | m :: ms => (l.given? m).toList ++ ((l.step? V m).map fun l' => received V l' ms).getD []

theorem Heard.given_step {V : Vendor σ} {l l' : Lane σ κ} {m : Move κ} (h : l.Heard)
    (hs : l.step? V m = some l') :
    ∃ cs, l'.executed = l.executed ++ cs ∧
      l.unreceived ++ cs = (l.given? m).toList ++ l'.unreceived := by
  cases m with
  | submit s =>
    cases hs
    exact ⟨[], (List.append_nil _).symm, List.append_nil _⟩
  | stop =>
    cases hs
    rw [stop]
    split <;> exact ⟨[], (List.append_nil _).symm, List.append_nil _⟩
  | work =>
    obtain ⟨⟨raised, l''⟩, ha, rfl⟩ := Option.map_eq_some_iff.1 hs
    obtain ⟨cs, he, hu⟩ := h.unreceived_advance (.of_advance? ha)
    exact ⟨cs, he, hu.symm⟩
  | receive =>
    obtain ⟨⟨c, l''⟩, hr, rfl⟩ := Option.map_eq_some_iff.1 hs
    refine ⟨[], ?_, ?_⟩
    · obtain ⟨rest, -, rfl⟩ := receive?_eq_some_iff.1 hr
      exact (List.append_nil _).symm
    · rw [given?, hr, h.unreceived_receive hr, List.append_nil]
      rfl
  | stopReceiving =>
    cases hs
    refine ⟨[], (List.append_nil _).symm, ?_⟩
    rw [List.append_nil]
    exact (List.append_nil _).symm

theorem Heard.received_run {V : Vendor σ} {l l' : Lane σ κ} {ms : List (Move κ)} (h : l.Heard)
    (hr : l.run V ms = some l') :
    ∃ cs, l'.executed = l.executed ++ cs ∧
      l.unreceived ++ cs = l.received V ms ++ l'.unreceived := by
  induction ms generalizing l with
  | nil =>
    cases hr
    exact ⟨[], (List.append_nil _).symm, List.append_nil _⟩
  | cons m ms ih =>
    rw [run, List.foldlM_cons] at hr
    obtain ⟨l₁, hm, hr⟩ := Option.bind_eq_some_iff.1 hr
    obtain ⟨cs, he, hu⟩ := h.given_step hm
    obtain ⟨cs', he', hu'⟩ := ih (h.step (.of_step? hm)) hr
    refine ⟨cs ++ cs', ?_, ?_⟩
    · rw [he', he, List.append_assoc]
    · rw [received, hm, ← List.append_assoc, hu, List.append_assoc, hu']
      exact (List.append_assoc _ _ _).symm

/-- Two lanes that differ at most in where their completions went. -/
structure SameWork (l k : Lane σ κ) : Prop where
  worker : k.worker = l.worker
  jobs : k.jobs = l.jobs
  phase : k.phase = l.phase
  stopped : k.stopped = l.stopped
  executed : k.executed = l.executed

theorem SameWork.refl (l : Lane σ κ) : SameWork l l := ⟨rfl, rfl, rfl, rfl, rfl⟩

theorem SameWork.issue {l k : Lane σ κ} (h : SameWork l k) (j : Job κ) :
    SameWork (l.issue j) (k.issue j) :=
  ⟨h.worker, congrArg (·.push j) h.jobs, h.phase, h.stopped, h.executed⟩

theorem SameWork.stop {l k : Lane σ κ} (h : SameWork l k) : SameWork l.stop k.stop := by
  rw [Lane.stop, Lane.stop, h.stopped]
  split
  · exact h
  · have hs : SameWork { l with stopped := true } { k with stopped := true } :=
      ⟨h.worker, h.jobs, h.phase, rfl, h.executed⟩
    exact hs.issue .stop

theorem SameWork.send {l k : Lane σ κ} (h : SameWork l k) (c : Completion κ) :
    SameWork (l.send c) (k.send c) := by
  obtain ⟨cs, us, hl⟩ := l.send_eq c
  obtain ⟨cs', us', hk⟩ := k.send_eq c
  rw [hl, hk]
  exact ⟨h.worker, h.jobs, h.phase, h.stopped, h.executed⟩

theorem SameWork.carryOut {l k : Lane σ κ} (h : SameWork l k) (s : Submission κ)
    (e : Worker.Execution σ) : SameWork (l.carryOut s e) (k.carryOut s e) where
  worker := rfl
  jobs := h.jobs
  phase := rfl
  stopped := h.stopped
  executed := by rw [Lane.carryOut, Lane.carryOut, h.executed]

theorem SameWork.advance? {V : Vendor σ} {l k l' : Lane σ κ} {raised : List Callback}
    (h : SameWork l k) (ha : l.advance? V = some (raised, l')) :
    ∃ k', k.advance? V = some (raised, k') ∧ SameWork l' k' := by
  cases hp : l.phase with
  | ended =>
    rw [Lane.advance?, hp] at ha
    cases ha
  | waiting =>
    rw [Lane.advance?, hp] at ha
    rw [Lane.advance?, h.phase, hp, h.jobs]
    cases hj : l.jobs.pop? with
    | none =>
      rw [hj] at ha
      cases ha
    | some next =>
      obtain ⟨job, rest⟩ := next
      rw [hj] at ha
      cases job with
      | run s =>
        cases ha
        exact ⟨_, rfl, h.worker, rfl, rfl, h.stopped, h.executed⟩
      | stop =>
        cases ha
        rw [h.worker]
        exact ⟨_, rfl, rfl, rfl, rfl, h.stopped, h.executed⟩
  | busy s =>
    rw [Lane.advance?, hp] at ha
    rw [Lane.advance?, h.phase, hp, h.worker]
    cases ha
    exact ⟨_, rfl, (h.carryOut s _).send _⟩

theorem SameWork.step? {V : Vendor σ} {l k l' : Lane σ κ} {m : Move κ} (h : SameWork l k)
    (hm : m.receives = false) (hs : l.step? V m = some l') :
    ∃ k', k.step? V m = some k' ∧ SameWork l' k' := by
  cases m with
  | submit s =>
    cases hs
    exact ⟨_, rfl, h.issue _⟩
  | stop =>
    cases hs
    exact ⟨_, rfl, h.stop⟩
  | work =>
    obtain ⟨⟨raised, l''⟩, ha, rfl⟩ := Option.map_eq_some_iff.1 hs
    obtain ⟨k', hk, hw⟩ := h.advance? ha
    exact ⟨k', by rw [Lane.step?, hk]; rfl, hw⟩
  | receive => cases hm
  | stopReceiving => cases hm

theorem SameWork.receive {V : Vendor σ} {l k l' : Lane σ κ} {m : Move κ} (h : SameWork l k)
    (hm : m.receives = true) (hs : l.step? V m = some l') : SameWork l' k := by
  cases m with
  | receive =>
    obtain ⟨⟨c, l''⟩, hr, rfl⟩ := Option.map_eq_some_iff.1 hs
    obtain ⟨rest, -, rfl⟩ := receive?_eq_some_iff.1 hr
    exact ⟨h.worker, h.jobs, h.phase, h.stopped, h.executed⟩
  | stopReceiving =>
    cases hs
    exact ⟨h.worker, h.jobs, h.phase, h.stopped, h.executed⟩
  | _ => cases hm

/-- A run goes the same way without the moves of whoever receives. -/
theorem SameWork.run {V : Vendor σ} {l k l' : Lane σ κ} {ms : List (Move κ)} (h : SameWork l k)
    (hr : l.run V ms = some l') :
    ∃ k', k.run V (ms.filter fun m => !m.receives) = some k' ∧ SameWork l' k' := by
  induction ms generalizing l k with
  | nil =>
    cases hr
    exact ⟨k, rfl, h⟩
  | cons m ms ih =>
    rw [Lane.run, List.foldlM_cons] at hr
    obtain ⟨l₁, hs, hr⟩ := Option.bind_eq_some_iff.1 hr
    cases hm : m.receives with
    | true =>
      rw [List.filter_cons_of_neg (by simp [hm])]
      exact ih (h.receive hm hs) hr
    | false =>
      rw [List.filter_cons_of_pos (by simp [hm])]
      obtain ⟨k₁, hk, h₁⟩ := h.step? hm hs
      obtain ⟨k', hk', h'⟩ := ih h₁ hr
      refine ⟨k', ?_, h'⟩
      rw [Lane.run, List.foldlM_cons, hk]
      exact hk'

end MarketFeed.Lane
