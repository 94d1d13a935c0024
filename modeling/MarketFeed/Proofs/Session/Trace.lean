import MarketFeed.Proofs.Lifecycle.Signal
import MarketFeed.Proofs.Session.Exit

namespace MarketFeed

/-- What the pump is busy with. -/
def Pump.subject? : Pump → Option Signal
  | completing sub outcome _ _ => some (.call sub.operation outcome)
  | dispatching _ n _ _ _ => some (.event n)
  | _ => none

namespace Session

variable {σ : Type}

/-- What a change of a session means to its state. -/
inductive StateChange (s t : Session σ) : Prop
  | keep (hs : t.state = s.state) (ha : t.accepted = s.accepted) (hst : t.started = s.started)
      (hd : t.drained = s.drained)
      (hp : t.pump.subject? = none ∨ t.pump.subject? = s.pump.subject?)
  | accept (sub : Submission Continuation) (hc : s.state.accepts sub.operation = true)
      (hs : t.state = if sub.operation = .exit then .exiting else s.state)
      (ha : t.accepted = s.accepted ++ [sub]) (hst : t.started = s.started)
      (hd : t.drained = s.drained) (hp : t.pump.subject? = s.pump.subject?)
  | answer (c : Completion Continuation)
      (hs : t.state = s.stateAfter c.submission.operation c.result)
      (ha : t.accepted = s.accepted) (hst : t.started = s.started ++ [c.handed])
      (hd : t.drained = s.drained)
      (hp : t.pump.subject? = some (.call c.submission.operation c.result.outcome))
  | hear (n : Notification) (r : Option Registration) (hs : t.state = s.state.afterEvent n.kind)
      (ha : t.accepted = s.accepted) (hst : t.started = s.started)
      (hd : t.drained = s.drained ++ [(n, r)])
      (hp : t.pump.subject? = none ∨ t.pump.subject? = some (.event n))

theorem HostChange.stateChange {s u : Session σ} (hu : HostChange s u) {p : Pump}
    (hst : p.standing = s.pump.standing) (hd : p.openDelivery = s.pump.openDelivery)
    (hp : p.subject? = s.pump.subject?) : StateChange s { u with pump := p } := by
  have hstarted : Session.started { u with pump := p } = s.started := by
    rw [Session.started, Session.started, ← hst, ← hu.frame.2.1]
  have hdrained : Session.drained { u with pump := p } = s.drained := by
    rw [Session.drained, Session.drained, ← hd, ← hu.frame.2.2.1]
  cases hu with
  | submit sub log held free hc ha =>
    exact .accept sub ha rfl (accepted_of_accept free (.inr ⟨rfl, rfl⟩)) hstarted hdrained hp
  | _ => exact .keep rfl rfl hstarted hdrained (.inr hp)

theorem TurnEnd.subject? {s t : Session σ} (h : TurnEnd s t) : t.pump.subject? = none := by
  cases h <;> rfl

theorem TurnEnd.stateChange {s u t : Session σ} (he : TurnEnd u t) (hs : u.state = s.state)
    (ha : u.accepted = s.accepted)
    (hst : u.finished.map (fun f => (f.submission, f.outcome)) = s.started)
    (hd : s.pump.openDelivery = []) (hdel : u.deliveries = s.deliveries) : StateChange s t := by
  obtain ⟨-, hdt, -, hbook, -, hstate⟩ := he.frame
  apply StateChange.keep
  case hs => exact hstate.trans hs
  case ha => exact (accepted_of_issued (congrArg Lane.issued he.lane) hbook).trans ha
  case hst => exact he.started.trans hst
  case hd => exact drained_of_openDelivery hd he.openDelivery (hdt.trans hdel)
  case hp => exact .inl he.subject?

theorem Change.stateChange {V : Vendor σ} {s t : Session σ} (hc : Change V s t) :
    StateChange s t := by
  cases hc with
  | host t hu =>
    have hp := hu.frame.1
    exact hu.stateChange (p := t.pump) (by rw [hp]) (by rw [hp]) (by rw [hp])
  | book sub log held free hc ha =>
    exact .accept sub ha rfl (accepted_of_accept free (.inl ⟨rfl, rfl⟩)) rfl rfl rfl
  | enqueue sub hb =>
    exact .keep rfl (accepted_of_enqueue hb rfl rfl) rfl rfl (.inr rfl)
  | work raised lane ha =>
    have hl := (Lane.Advance.of_advance? ha).frame.1
    exact .keep rfl (accepted_of_issued hl rfl) rfl rfl (.inr rfl)
  | letGo held free =>
    exact .keep rfl (congrArg (· ++ s.booked.toList) s.lane.submitted_stop) rfl rfl (.inr rfl)
  | destroyPump hp hd =>
    have hstart : s.pump.standing.openCall = [] := by
      rcases standing_of_betweenTurns hp hd with hx | hx <;> rw [hx] <;> rfl
    refine .keep rfl rfl ?_ ?_ (.inl rfl)
    · rw [started, started, hstart]
      rfl
    · exact drained_of_openDelivery (openDelivery_of_betweenTurns hp).1 rfl rfl
  | start log hp =>
    refine .keep rfl rfl ?_ ?_ (.inl rfl)
    · rw [started, started, hp]
      rfl
    · exact drained_of_openDelivery (by rw [hp]; rfl) rfl rfl
  | beginCompletion c lane log hp hc =>
    obtain ⟨rest, -, rfl⟩ := Lane.receive?_eq_some_iff.1 hc
    refine .answer c rfl rfl ?_ ?_ rfl
    · rw [started, started, hp]
      exact congrArg (· ++ [c.handed]) (List.append_nil _).symm
    · exact drained_of_openDelivery (by rw [hp]; rfl) rfl rfl
  | continueCompletion sub outcome act acts answers answers' u hp hu =>
    exact hu.stateChange (by rw [hp]; rfl) (by rw [hp]; rfl) (by rw [hp]; rfl)
  | endCompletion sub outcome acts answers answers' log t hp he =>
    apply he.stateChange (s := s) rfl rfl ?_ (by rw [hp]; rfl) rfl
    rw [started, hp, List.map_append]
    rfl
  | quit log hp hc he =>
    refine .keep rfl rfl ?_ ?_ (.inl rfl)
    · rw [started, started, hp]
      rfl
    · exact drained_of_openDelivery (by rw [hp]; rfl) rfl rfl
  | wake m hp hc hm =>
    refine .keep rfl rfl ?_ ?_ (.inl rfl)
    · rw [started, started, hp]
      rfl
    · exact drained_of_openDelivery (by rw [hp]; rfl) rfl rfl
  | discard count n m log hp hm hl =>
    refine .hear n none rfl rfl ?_ ?_ (.inl rfl)
    · rw [started, started, hp]
      rfl
    · simp only [drained, hp, Pump.openDelivery, List.map_append, List.map_cons, List.map_nil,
        List.append_nil]
  | dispatch count n m r log hp hm hl =>
    refine .hear n (some r) rfl rfl ?_ ?_ (.inr rfl)
    · rw [started, started, hp]
      rfl
    · simp only [drained, hp, Pump.openDelivery, List.append_nil]
  | continueDispatch count n r act acts answers answers' u hp hu =>
    exact hu.stateChange (by rw [hp]; rfl) (by rw [hp]; rfl) (by rw [hp]; rfl)
  | endDispatch count n r acts answers answers' log hp =>
    refine .keep rfl rfl ?_ ?_ (.inl rfl)
    · rw [started, started, hp]
      rfl
    · simp only [drained, hp, Pump.openDelivery, List.map_append, List.map_cons, List.map_nil,
        List.append_nil]
  | endDrain count log t hp hm he =>
    apply he.stateChange (s := s) rfl rfl ?_ (by rw [hp]; rfl) rfl
    rw [started, hp]
    exact (List.append_nil _).symm
  | _ => exact .keep rfl rfl rfl rfl (.inr rfl)

/-- What the pump has taken up from one point of a run to a later one: calls whose continuations it
has started, and notifications it has taken out of the mailbox. -/
def takenUp (s t : Session σ) : List Signal :=
  (t.started.drop s.started.length).map (fun x => .call x.1.operation x.2) ++
    (t.drained.drop s.drained.length).map fun x => .event x.1

def signals (V : Vendor σ) (s : Session σ) : List Move → List Signal
  | [] => []
  | m :: ms =>
    match s.step? V m with
    | none => []
    | some t => s.takenUp t ++ signals V t ms

theorem takenUp_of_eq {s t : Session σ} (hst : t.started = s.started)
    (hd : t.drained = s.drained) : s.takenUp t = [] := by
  rw [takenUp, hst, hd, List.drop_length, List.drop_length]
  rfl

theorem takenUp_of_started {s t : Session σ} {x : Submission Continuation × Outcome}
    (hst : t.started = s.started ++ [x]) (hd : t.drained = s.drained) :
    s.takenUp t = [.call x.1.operation x.2] := by
  rw [takenUp, hst, hd, List.drop_left, List.drop_length]
  rfl

theorem takenUp_of_drained {s t : Session σ} {x : Notification × Option Registration}
    (hst : t.started = s.started) (hd : t.drained = s.drained ++ [x]) :
    s.takenUp t = [.event x.1] := by
  rw [takenUp, hst, hd, List.drop_left, List.drop_length]
  rfl

theorem StateChange.length_takenUp {s t : Session σ} (hc : StateChange s t) :
    (s.takenUp t).length ≤ 1 := by
  cases hc with
  | keep hs ha hst hd hp =>
    rw [takenUp_of_eq hst hd]
    exact Nat.zero_le 1
  | accept sub hc hs ha hst hd hp =>
    rw [takenUp_of_eq hst hd]
    exact Nat.zero_le 1
  | answer c hs ha hst hd hp =>
    rw [takenUp_of_started hst hd]
    exact Nat.le_refl 1
  | hear n r hs ha hst hd hp =>
    rw [takenUp_of_drained hst hd]
    exact Nat.le_refl 1

theorem signals_induction {V : Vendor σ} {P : Session σ → List Signal → Prop}
    (change : ∀ s t xs, P s xs → Change V s t → P t (xs ++ s.takenUp t)) {s t : Session σ}
    {ms : List Move} (h : s.run V ms = some t) {xs : List Signal} (hs : P s xs) :
    P t (xs ++ s.signals V ms) := by
  induction ms generalizing s xs with
  | nil =>
    cases h
    rw [signals, List.append_nil]
    exact hs
  | cons m ms ih =>
    obtain ⟨u, hm, hr⟩ := step_and_run h
    have hu := ih hr (change _ _ _ hs (.of_step? hm))
    rw [signals, hm]
    rw [List.append_assoc] at hu
    exact hu

structure Traced (s : Session σ) (xs : List Signal) : Prop where
  interleaves : Signal.Interleaves xs (s.started.map fun x => (x.1.operation, x.2))
    (s.drained.map (·.1))
  state : ¬ s.ExitAccepted → s.state = Lifecycle.uninitialized.afterAll xs
  subject : ∀ x, s.pump.subject? = some x → ∃ earlier, xs = earlier ++ [x]

theorem traced_fresh (vendor : σ) (settings : Settings) : (fresh vendor settings).Traced [] where
  interleaves := ⟨rfl, rfl⟩
  state _ := rfl
  subject x h := by cases h

theorem exitAccepted_of_eq {s t : Session σ} (ha : t.accepted = s.accepted) :
    t.ExitAccepted ↔ s.ExitAccepted := by
  rw [ExitAccepted, ExitAccepted, ha]

theorem Closing.exitAccepted_of_started {s : Session σ} (h : s.Closing) (hx : s.ExitStarted) :
    s.ExitAccepted :=
  h.terminal.1 (Lifecycle.isTerminal_of_closed (h.closed.2 hx))

/-- But for an exit, a call moves the state exactly if its outcome is no failure. -/
theorem stateAfter_eq_after (s : Session σ) {op : Operation} (h : op ≠ .exit) (r : CallResult) :
    s.stateAfter op r = s.state.after (.call op r.outcome) := by
  rw [stateAfter, CallResult.outcome]
  cases r.error with
  | none => exact if_pos (.inl rfl)
  | some f =>
    apply if_neg
    rintro (he | he)
    · cases he
    · exact h he

theorem Traced.keep {s t : Session σ} {xs : List Signal} (h : s.Traced xs)
    (hs : ¬ t.ExitAccepted → ¬ s.ExitAccepted ∧ t.state = s.state) (hst : t.started = s.started)
    (hd : t.drained = s.drained)
    (hp : t.pump.subject? = none ∨ t.pump.subject? = s.pump.subject?) :
    t.Traced (xs ++ s.takenUp t) := by
  rw [takenUp_of_eq hst hd, List.append_nil]
  apply Traced.mk
  case interleaves =>
    rw [hst, hd]
    exact h.interleaves
  case state =>
    intro hx
    obtain ⟨hx', hs'⟩ := hs hx
    rw [hs']
    exact h.state hx'
  case subject =>
    intro x hx
    rcases hp with hp | hp
    · rw [hp] at hx
      cases hx
    · rw [hp] at hx
      exact h.subject x hx

theorem Traced.change {s t : Session σ} {xs : List Signal} (h : s.Traced xs) (hcl : t.Closing)
    (hc : StateChange s t) : t.Traced (xs ++ s.takenUp t) := by
  cases hc with
  | keep hs ha hst hd hp =>
    refine h.keep (fun hx => ⟨?_, hs⟩) hst hd hp
    rw [← exitAccepted_of_eq ha]
    exact hx
  | accept sub hc hs ha hst hd hp =>
    refine h.keep (fun hx => ?_) hst hd (.inr hp)
    have hno : sub.operation ≠ .exit := by
      intro ho
      exact hx ⟨sub, by rw [ha]; exact List.mem_concat_self, ho⟩
    apply And.intro
    · rintro ⟨y, hy, ho⟩
      exact hx ⟨y, by rw [ha]; exact List.mem_append_left _ hy, ho⟩
    · rw [hs, if_neg hno]
  | answer c hs ha hst hd hp =>
    rw [takenUp_of_started hst hd]
    apply Traced.mk
    case interleaves =>
      apply Signal.Interleaves.mk
      · rw [List.filterMap_append, h.interleaves.calls, hst, List.map_append]
        rfl
      · rw [List.filterMap_append, h.interleaves.events, hd]
        exact List.append_nil _
    case state =>
      intro hx
      have hno : c.submission.operation ≠ .exit := by
        intro ho
        exact hx (hcl.exitAccepted_of_started
          ⟨c.handed, by rw [hst]; exact List.mem_concat_self, ho⟩)
      rw [hs, s.stateAfter_eq_after hno, h.state (by rw [← exitAccepted_of_eq ha]; exact hx),
        Lifecycle.afterAll_append]
      rfl
    case subject =>
      intro x hx
      cases hp.symm.trans hx
      exact ⟨xs, rfl⟩
  | hear n r hs ha hst hd hp =>
    rw [takenUp_of_drained hst hd]
    apply Traced.mk
    case interleaves =>
      apply Signal.Interleaves.mk
      · rw [List.filterMap_append, h.interleaves.calls, hst]
        exact List.append_nil _
      · rw [List.filterMap_append, h.interleaves.events, hd, List.map_append]
        rfl
    case state =>
      intro hx
      rw [hs, h.state (by rw [← exitAccepted_of_eq ha]; exact hx), Lifecycle.afterAll_append]
      rfl
    case subject =>
      intro x hx
      rcases hp with hp | hp
      · rw [hp] at hx
        cases hx
      · cases hp.symm.trans hx
        exact ⟨xs, rfl⟩

theorem StateChange.rank_le {s t : Session σ} (hc : StateChange s t) :
    s.state.rank ≤ t.state.rank := by
  cases hc with
  | keep hs ha hst hd hp => exact Nat.le_of_eq (congrArg Lifecycle.rank hs.symm)
  | accept sub hc hs ha hst hd hp =>
    rw [hs]
    split
    · exact Lifecycle.rank_le_exiting (Lifecycle.not_isTerminal_of_accepts hc)
    · exact Nat.le_refl _
  | answer c hs ha hst hd hp =>
    rw [hs, stateAfter]
    split
    · exact s.state.rank_le_afterCall _
    · exact Nat.le_refl _
  | hear n r hs ha hst hd hp =>
    rw [hs]
    exact s.state.rank_le_afterEvent n.kind

theorem rank_le_of_run {V : Vendor σ} {s t : Session σ} {ms : List Move}
    (h : s.run V ms = some t) : s.state.rank ≤ t.state.rank :=
  run_induction (P := fun u => s.state.rank ≤ u.state.rank)
    (fun _ _ hu hc => Nat.le_trans hu hc.stateChange.rank_le) h (Nat.le_refl _)

/-- How the state of a session follows from what the pump has taken up so far, which it does one by
one. With the completion of an exit the session is closed, and from its acceptance on it is exiting;
before that the state is what the calls that did not fail and the notifications make of it, in the
order in which the pump has come to them. While a continuation or a listener runs, what the pump took
up last is its own call or notification, so that the state it finds accounts for it. Behind an exit
nothing is accepted, and the session never goes back. -/
structure FollowsTrace (V : Vendor σ) (s : Session σ) (xs : List Signal) : Prop where
  interleaves : Signal.Interleaves xs (s.started.map fun x => (x.1.operation, x.2))
    (s.drained.map (·.1))
  one_by_one : ∀ m t, s.step? V m = some t → (s.takenUp t).length ≤ 1
  closed : (∃ outcome, .call .exit outcome ∈ xs) → s.state = .closed
  exiting : (∀ outcome, .call .exit outcome ∉ xs) → s.ExitAccepted → s.state = .exiting
  running : ¬ s.ExitAccepted → s.state = Lifecycle.uninitialized.afterAll xs
  continuation : ∀ sub outcome acts answers, s.pump = .completing sub outcome acts answers →
    ∃ earlier, xs = earlier ++ [.call sub.operation outcome]
  listener : ∀ count n r acts answers, s.pump = .dispatching count n r acts answers →
    ∃ earlier, xs = earlier ++ [.event n]
  exit_last : ∀ before sub after, s.accepted = before ++ sub :: after → sub.operation = .exit →
    after = []
  forward : ∀ ms t, s.run V ms = some t → s.state.rank ≤ t.state.rank

theorem Traced.exitStarted_iff {s : Session σ} {xs : List Signal} (h : s.Traced xs) :
    s.ExitStarted ↔ ∃ outcome, .call .exit outcome ∈ xs := by
  have hcalls := h.interleaves.calls
  apply Iff.intro
  · rintro ⟨x, hx, ho⟩
    have hm : (Operation.exit, x.2) ∈ xs.filterMap Signal.call? := by
      rw [hcalls, ← ho]
      exact List.mem_map_of_mem hx
    obtain ⟨y, hy, he⟩ := List.mem_filterMap.1 hm
    cases y with
    | call op outcome =>
      cases he
      exact ⟨_, hy⟩
    | event n => cases he
  · rintro ⟨outcome, hx⟩
    have hm : (Operation.exit, outcome) ∈ s.started.map fun x => (x.1.operation, x.2) := by
      rw [← hcalls]
      exact List.mem_filterMap.2 ⟨_, hx, rfl⟩
    obtain ⟨y, hy, he⟩ := List.mem_map.1 hm
    exact ⟨y, hy, (Prod.mk.inj he).1⟩

theorem Traced.followsTrace (V : Vendor σ) {s : Session σ} {xs : List Signal} (h : s.Traced xs)
    (hcl : s.Closing) : s.FollowsTrace V xs where
  interleaves := h.interleaves
  one_by_one _ _ hm := (Change.of_step? hm).stateChange.length_takenUp
  closed hx := hcl.closed.2 (h.exitStarted_iff.2 hx)
  exiting hno hx := by
    have hopen : s.state ≠ .closed := by
      intro hc
      obtain ⟨outcome, hm⟩ := h.exitStarted_iff.1 (hcl.closed.1 hc)
      exact hno outcome hm
    have hterm := hcl.terminal.2 hx
    cases hs : s.state with
    | exiting => rfl
    | closed => exact absurd hs hopen
    | _ =>
      rw [hs] at hterm
      cases hterm
  running := h.state
  continuation sub outcome acts answers hp := h.subject _ (by rw [hp]; rfl)
  listener count n r acts answers hp := h.subject _ (by rw [hp]; rfl)
  exit_last _ _ _ := hcl.nothing_behind_exit
  forward _ _ := rank_le_of_run

theorem Sound.traced {V : Vendor σ} {vendor : σ} {s t : Session σ} {xs : List Signal}
    {ms : List Move} (h : s.Sound V vendor) (ht : s.Traced xs) (hr : s.run V ms = some t) :
    t.Sound V vendor ∧ t.Traced (xs ++ s.signals V ms) := by
  apply signals_induction (P := fun u ys => u.Sound V vendor ∧ u.Traced ys) ?_ hr ⟨h, ht⟩
  rintro u v ys ⟨hu, hy⟩ hc
  have hv := hu.change hc
  exact ⟨hv, hy.change hv.closing hc.stateChange⟩

/-- At every point of every run the state follows from what the pump has taken up. -/
theorem state_follows_trace (V : Vendor σ) (vendor : σ) {hasScheduler : Bool} {settings : Settings}
    {s₀ s : Session σ} {ms : List Move}
    (hc : create hasScheduler vendor settings = .made s₀) (hr : s₀.run V ms = some s) :
    s.FollowsTrace V (s₀.signals V ms) := by
  obtain ⟨-, -, rfl⟩ := create_eq_made_iff.1 hc
  obtain ⟨hs, ht⟩ := (sound_fresh V vendor settings).traced (traced_fresh vendor settings) hr
  exact ht.followsTrace V hs.closing

theorem state_follows_trace_of_life :
    ∃ s : Session Loopback, (fresh {} {}).run Loopback.vendor life = some s ∧
      s.state = .closed ∧
      ((fresh {} {}).signals Loopback.vendor life).map (·.call?.map (·.1)) =
        [none, some .create, some .exit] ∧
      s.FollowsTrace Loopback.vendor ((fresh {} {}).signals Loopback.vendor life) := by
  obtain ⟨s, hs, hc⟩ := Option.map_eq_some_iff.1
    (rfl : ((fresh {} {}).run Loopback.vendor life).map (·.state) = some .closed)
  exact ⟨s, hs, hc, rfl, state_follows_trace Loopback.vendor {} (create_default _) hs⟩

end Session

end MarketFeed
