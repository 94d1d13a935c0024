import MarketFeed.Proofs.Session.Flow

namespace MarketFeed

namespace Session

variable {σ : Type}

theorem endsLike_stateAfter (s : Session σ) {op : Operation} (h : op ≠ .exit) (r : CallResult) :
    Lifecycle.EndsLike (s.stateAfter op r) s.state := by
  rw [stateAfter]
  split
  · exact s.state.endsLike_afterCall h
  · exact .refl _

theorem stateAfter_exit (s : Session σ) (r : CallResult) : s.stateAfter .exit r = .closed := by
  simp only [stateAfter, or_true, if_true, Lifecycle.afterCall]

def ExitAccepted (s : Session σ) : Prop := ∃ sub ∈ s.accepted, sub.operation = .exit

def ExitStarted (s : Session σ) : Prop := ∃ x ∈ s.started, x.1.operation = .exit

/-- An exit is the last request that is accepted. The pump detaches with the end of its
continuation, or once nobody holds the session and every request has been answered. -/
structure Closing (s : Session σ) : Prop where
  exit_last : ∀ sub ∈ s.accepted.dropLast, sub.operation ≠ .exit
  terminal : s.state.isTerminal = true ↔ s.ExitAccepted
  closed : s.state = .closed ↔ s.ExitStarted
  mailbox : s.mailbox.closed = true ↔ s.state = .closed ∨ s.isDetached = true
  unfinished : s.isDetached = false → ∀ f ∈ s.finished, f.operation ≠ .exit
  detached : s.isDetached = true →
    s.finished.map (·.submission) = s.accepted ∧ (s.state = .closed ∨ s.held = false)

theorem closing_fresh (vendor : σ) (settings : Settings) : (fresh vendor settings).Closing where
  exit_last _ h := by cases h
  terminal := by
    apply Iff.intro
    · intro h
      cases h
    · rintro ⟨_, h, _⟩
      cases h
  closed := by
    apply Iff.intro
    · intro h
      cases h
    · rintro ⟨_, h, _⟩
      cases h
  mailbox := by
    apply Iff.intro
    · intro h
      cases h
    · rintro (h | h) <;> cases h
  unfinished _ _ h := by cases h
  detached h := by cases h

theorem Closing.of_frame {s t : Session σ} (h : s.Closing) (f : CallFrame s t)
    (ha : t.accepted = s.accepted) (he : Lifecycle.EndsLike t.state s.state) : t.Closing where
  exit_last := by
    rw [ha]
    exact h.exit_last
  terminal := by
    rw [he.isTerminal, ExitAccepted, ha]
    exact h.terminal
  closed := by
    rw [he.closed, ExitStarted, f.started]
    exact h.closed
  mailbox := by
    rw [f.closed, he.closed, f.isDetached]
    exact h.mailbox
  unfinished := by
    rw [f.isDetached, f.finished]
    exact h.unfinished
  detached hx := by
    obtain ⟨hall, hend⟩ := h.detached (f.isDetached ▸ hx)
    rw [f.finished, ha, f.held]
    exact ⟨hall, hend.imp_left he.closed.2⟩

theorem Closing.not_detached {s : Session σ} (h : s.Closing) (held : s.held = true)
    {op : Operation} (ha : s.state.accepts op = true) : s.isDetached = false := by
  cases hd : s.isDetached with
  | false => rfl
  | true =>
    rcases (h.detached hd).2 with hc | hh
    · have ht := Lifecycle.isTerminal_of_closed hc
      rw [Lifecycle.not_isTerminal_of_accepts ha] at ht
      cases ht
    · rw [held] at hh
      cases hh

theorem Closing.accept {s t : Session σ} (h : s.Closing) {sub : Submission Continuation}
    (f : CallFrame s t) (held : s.held = true) (ha : s.state.accepts sub.operation = true)
    (hacc : t.accepted = s.accepted ++ [sub])
    (hst : t.state = if sub.operation = .exit then .exiting else s.state) : t.Closing := by
  have hterm := Lifecycle.not_isTerminal_of_accepts ha
  have hdet := h.not_detached held ha
  have hopen : s.state ≠ .closed := by
    intro hc
    rw [Lifecycle.isTerminal_of_closed hc] at hterm
    cases hterm
  have hopen' : t.state ≠ .closed := by
    rw [hst]
    split
    · decide
    · exact hopen
  have hnone : ∀ x ∈ s.accepted, x.operation ≠ .exit := by
    intro x hx he
    rw [h.terminal.2 ⟨x, hx, he⟩] at hterm
    cases hterm
  apply Closing.mk
  case exit_last =>
    rw [hacc, List.dropLast_concat]
    exact hnone
  case terminal =>
    rw [ExitAccepted, hacc, hst]
    by_cases ho : sub.operation = .exit
    · rw [if_pos ho]
      exact ⟨fun _ => ⟨sub, List.mem_concat_self, ho⟩, fun _ => rfl⟩
    · rw [if_neg ho, hterm]
      apply Iff.intro
      · intro hx
        cases hx
      · rintro ⟨x, hx, he⟩
        rcases List.mem_append.1 hx with hx | hx
        · exact absurd he (hnone x hx)
        · rw [List.mem_singleton.1 hx] at he
          exact absurd he ho
  case closed =>
    rw [ExitStarted, f.started]
    exact ⟨fun hc => absurd hc hopen', fun he => absurd (h.closed.2 he) hopen⟩
  case mailbox =>
    have hmail := h.mailbox
    rw [hdet] at hmail
    rw [f.closed, f.isDetached, hdet]
    exact hmail.trans ⟨fun hx => absurd (hx.resolve_right Bool.false_ne_true) hopen,
      fun hx => absurd (hx.resolve_right Bool.false_ne_true) hopen'⟩
  case unfinished =>
    intro _
    rw [f.finished]
    exact h.unfinished hdet
  case detached =>
    intro hx
    rw [f.isDetached, hdet] at hx
    cases hx

theorem Closing.started_eq {V : Vendor σ} {vendor : σ} {s : Session σ} (h : s.Closing)
    (hf : s.Flow) (ho : s.lane.Orderly V vendor) (hx : s.ExitStarted) :
    s.started.map (·.1) = s.accepted := by
  have ha := hf.accepted_eq ho
  rw [List.append_assoc, List.append_assoc, List.append_assoc] at ha
  generalize s.lane.unreceived.map (·.submission) ++
    (s.lane.executing ++ (s.lane.queued ++ s.booked.toList)) = rest at ha
  cases rest with
  | nil => exact (ha.trans (List.append_nil _)).symm
  | cons sub rest =>
    obtain ⟨x, hm, he⟩ := hx
    have hlast := h.exit_last x.1
    rw [ha, List.dropLast_append_of_ne_nil (List.cons_ne_nil sub rest)] at hlast
    exact absurd he (hlast (List.mem_append_left _ (List.mem_map_of_mem hm)))

theorem isDetached_of_inCall {s : Session σ} {sub : Submission Continuation} {outcome : Outcome}
    (hp : s.pump.standing = .inCall sub outcome) : s.isDetached = false :=
  isDetached_eq_false (by rw [hp]; intro hx; cases hx)

theorem isDetached_of_idle {s : Session σ} (hp : s.pump.standing = .idle) :
    s.isDetached = false :=
  isDetached_eq_false (by rw [hp]; intro hx; cases hx)

/-- While the continuation of an exit runs, it is the only call in flight. -/
theorem Closing.inFlight_eq_one {V : Vendor σ} {vendor : σ} {s : Session σ} (h : s.Closing)
    (hf : s.Flow) (ho : s.lane.Orderly V vendor) {sub : Submission Continuation}
    {outcome : Outcome} (hp : s.pump.standing = .inCall sub outcome) (hc : s.state = .closed) :
    s.inFlight = 1 := by
  have hall := congrArg List.length (h.started_eq hf ho (h.closed.1 hc))
  have hin := hf.inFlight
  rw [started_of_inCall hp] at hall
  simp only [List.map_append, List.length_append, List.length_map, List.length_cons,
    List.length_nil] at hall
  omega

/-- A session is closed while the continuation of an exit runs, and not while another one does. -/
theorem Closing.closed_iff_of_inCall {s : Session σ} (h : s.Closing)
    {sub : Submission Continuation} {outcome : Outcome}
    (hp : s.pump.standing = .inCall sub outcome) : s.state = .closed ↔ sub.operation = .exit := by
  rw [h.closed, ExitStarted, started_of_inCall hp]
  apply Iff.intro
  · rintro ⟨x, hm, he⟩
    rcases List.mem_append.1 hm with hm | hm
    · obtain ⟨f, hf, rfl⟩ := List.mem_map.1 hm
      exact absurd he (h.unfinished (isDetached_of_inCall hp) f hf)
    · rw [List.mem_singleton.1 hm] at he
      exact he
  · intro he
    exact ⟨(sub, outcome), List.mem_concat_self, he⟩

theorem Closing.not_closed {s : Session σ} (h : s.Closing) (hp : s.pump.standing = .idle) :
    s.state ≠ .closed := by
  intro hc
  obtain ⟨x, hm, he⟩ := h.closed.1 hc
  rw [started_of_idle hp] at hm
  obtain ⟨f, hf, rfl⟩ := List.mem_map.1 hm
  exact h.unfinished (isDetached_of_idle hp) f hf he

theorem Closing.beginCompletion {s t : Session σ} {c : Completion Continuation} (h : s.Closing)
    (hacc : t.accepted = s.accepted) (hin : c.submission ∈ s.accepted)
    (hp : s.pump.standing = .idle)
    (ht : t.pump.standing = .inCall c.submission c.result.outcome) (hf : t.finished = s.finished)
    (hst : t.state = s.stateAfter c.submission.operation c.result)
    (hm : t.mailbox = if c.submission.operation = .exit then s.mailbox.close.2 else s.mailbox) :
    t.Closing := by
  have hd := isDetached_of_idle hp
  have hd' := isDetached_of_inCall ht
  have hs : t.started = s.started ++ [c.handed] := by
    rw [started_of_inCall ht, started_of_idle hp, hf]
    rfl
  have hmail := h.mailbox
  rw [hd] at hmail
  apply Closing.mk
  case exit_last =>
    rw [hacc]
    exact h.exit_last
  case terminal =>
    rw [ExitAccepted, hacc, hst]
    by_cases ho : c.submission.operation = .exit
    · rw [ho, stateAfter_exit]
      exact ⟨fun _ => ⟨c.submission, hin, ho⟩, fun _ => rfl⟩
    · rw [(s.endsLike_stateAfter ho c.result).isTerminal]
      exact h.terminal
  case closed =>
    rw [ExitStarted, hs, hst]
    by_cases ho : c.submission.operation = .exit
    · rw [ho, stateAfter_exit]
      exact ⟨fun _ => ⟨c.handed, List.mem_concat_self, ho⟩, fun _ => rfl⟩
    · rw [(s.endsLike_stateAfter ho c.result).closed, h.closed]
      apply Iff.intro
      · rintro ⟨x, hx, he⟩
        exact ⟨x, List.mem_append_left _ hx, he⟩
      · rintro ⟨x, hx, he⟩
        rcases List.mem_append.1 hx with hx | hx
        · exact ⟨x, hx, he⟩
        · rw [List.mem_singleton.1 hx] at he
          exact absurd he ho
  case mailbox =>
    rw [hm, hst, hd']
    by_cases ho : c.submission.operation = .exit
    · rw [if_pos ho, ho, stateAfter_exit]
      exact ⟨fun _ => .inl rfl, fun _ => rfl⟩
    · rw [if_neg ho, (s.endsLike_stateAfter ho c.result).closed]
      exact hmail
  case unfinished =>
    intro _
    rw [hf]
    exact h.unfinished hd
  case detached =>
    intro hx
    rw [hd'] at hx
    cases hx

theorem Closing.endCompletion {V : Vendor σ} {vendor : σ} {s t : Session σ} (h : s.Closing)
    (hf : s.Flow) (ho : s.lane.Orderly V vendor) {sub : Submission Continuation}
    {outcome : Outcome} {answers : List Answer} {listeners : Listeners Registration}
    {log : List LogRecord} (hp : s.pump.standing = .inCall sub outcome)
    (he : TurnEnd
      { s with
        finished := s.finished ++ [⟨sub, outcome, answers⟩]
        listeners := listeners
        inFlight := s.inFlight - 1
        log := log } t) : t.Closing := by
  have hd := isDetached_of_inCall hp
  have hstart : t.started = s.started := by
    rw [he.started, started_of_inCall hp, List.map_append]
    rfl
  have hacc : t.accepted = s.accepted :=
    accepted_of_issued (congrArg Lane.issued he.lane) he.frame.2.2.2.1
  have hstate : t.state = s.state := he.frame.2.2.2.2.2
  have hclosed : t.state = .closed ↔ t.ExitStarted := by
    rw [hstate, ExitStarted, hstart]
    exact h.closed
  have hterm : t.state.isTerminal = true ↔ t.ExitAccepted := by
    rw [hstate, ExitAccepted, hacc]
    exact h.terminal
  have hlast : ∀ x ∈ t.accepted.dropLast, x.operation ≠ .exit := by
    rw [hacc]
    exact h.exit_last
  cases he with
  | wait hn =>
    have hopen : s.state ≠ .closed := fun hc =>
      hn ⟨hc, by rw [h.inFlight_eq_one hf ho hp hc]⟩
    apply Closing.mk
    case exit_last => exact hlast
    case terminal => exact hterm
    case closed => exact hclosed
    case mailbox =>
      have hmail := h.mailbox
      rw [hd] at hmail
      exact hmail
    case unfinished =>
      intro _ f hm hx
      rcases List.mem_append.1 hm with hm | hm
      · exact h.unfinished hd f hm hx
      · rw [List.mem_singleton.1 hm] at hx
        exact hopen ((h.closed_iff_of_inCall hp).2 hx)
    case detached =>
      intro hx
      cases hx
  | detach log hc =>
    have hall := h.started_eq hf ho (h.closed.1 hc.1)
    rw [started_of_inCall hp, List.map_append, List.map_map] at hall
    apply Closing.mk
    case exit_last => exact hlast
    case terminal => exact hterm
    case closed => exact hclosed
    case mailbox => exact ⟨fun _ => .inr rfl, fun _ => rfl⟩
    case unfinished =>
      intro hx
      cases hx
    case detached =>
      intro _
      apply And.intro ?_ (.inl hc.1)
      change (s.finished ++ [_]).map _ = s.accepted
      rw [List.map_append]
      exact hall

theorem Flow.served_of_stopped {V : Vendor σ} {vendor : σ} {s : Session σ} (h : s.Flow)
    (ho : s.lane.Orderly V vendor) (hp : s.lane.phase = .ended) (hx : s.lane.exited = false) :
    s.held = false ∧ s.lane.served = s.accepted := by
  have hi := ho.issued
  have hs : s.lane.submitted = s.lane.served ++ s.lane.queued := by
    have hs := ho.submitted_eq
    rw [Lane.executing, hp, List.append_nil] at hs
    exact hs
  rw [h.issued, Lane.current, hp, hx, if_neg Bool.false_ne_true] at hi
  cases hh : s.held with
  | true =>
    have hmem : Job.stop ∈ s.lane.submitted.map Job.run := by
      rw [hh, if_pos rfl, List.append_nil] at hi
      rw [hi]
      exact List.mem_append_left _ List.mem_concat_self
    obtain ⟨_, _, hstop⟩ := List.mem_map.1 hmem
    cases hstop
  | false =>
    refine ⟨rfl, ?_⟩
    rw [hh, if_neg Bool.false_ne_true, hs, List.map_append, List.append_assoc, List.append_assoc,
      List.append_cancel_left_eq] at hi
    cases hq : s.lane.queued with
    | nil =>
      rw [accepted, h.booked hh, hs, hq, List.append_nil]
      exact (List.append_nil _).symm
    | cons sub rest =>
      rw [hq] at hi
      cases hi

/-- The pump finds the worker gone for one reason only. -/
theorem Closing.quit {V : Vendor σ} {vendor : σ} {s : Session σ} (h : s.Closing) (hf : s.Flow)
    (ho : s.lane.Orderly V vendor) (heard : s.lane.Heard) (hp : s.pump = .waiting)
    (hc : s.lane.receive? = none) (he : s.lane.phase = .ended) :
    s.held = false ∧ s.finished.map (·.submission) = s.accepted := by
  have hrec : s.lane.receiving = true := by
    cases hr : s.lane.receiving with
    | true => rfl
    | false =>
      have hd := hf.receiving hr
      rw [hp] at hd
      cases hd
  have hun : s.lane.unreceived = [] := by
    rw [Lane.unreceived, heard.waiting hrec, Lane.receive?_eq_none_iff.1 hc]
    rfl
  have hserved := started_submissions hf
  rw [hun, started_of_idle (by rw [hp]; rfl), List.map_map, List.map_nil,
    List.append_nil] at hserved
  have hx : s.lane.exited = false := by
    apply List.any_eq_false.2
    intro c hm hx
    have hmem : c.submission ∈ s.lane.served := List.mem_map_of_mem hm
    rw [← hserved] at hmem
    obtain ⟨f, hfm, hfe⟩ := List.mem_map.1 hmem
    apply h.unfinished (isDetached_of_idle (by rw [hp]; rfl)) f hfm
    change f.submission = c.submission at hfe
    rw [Finished.operation, hfe]
    exact of_decide_eq_true hx
  obtain ⟨held, hall⟩ := hf.served_of_stopped ho he hx
  exact ⟨held, hserved.trans hall⟩

theorem Closing.change {V : Vendor σ} {vendor : σ} {s t : Session σ} (h : s.Closing)
    (hf : s.Flow) (ho : s.lane.Orderly V vendor) (heard : s.lane.Heard) (hc : CallChange V s t) :
    t.Closing := by
  cases hc with
  | quiet f hl hb hi hs => exact h.of_frame f (accepted_of_issued (congrArg Lane.issued hl) hb) hs
  | accept sub f held free ha hl hi hs =>
    exact h.accept f held ha (accepted_of_accept free hl) hs
  | enqueue sub f hb hl hb' hi hs =>
    exact h.of_frame f (accepted_of_enqueue hb hl hb') (hs ▸ .refl _)
  | work f ha hb hi hs => exact h.of_frame f (accepted_of_issued ha.frame.1 hb) (hs ▸ .refl _)
  | letGo held free ht =>
    subst ht
    have hacc : s.letGo.accepted = s.accepted :=
      congrArg (· ++ s.booked.toList) s.lane.submitted_stop
    apply Closing.mk
    case exit_last => exact hacc ▸ h.exit_last
    case terminal =>
      rw [ExitAccepted, hacc]
      exact h.terminal
    case closed => exact h.closed
    case mailbox => exact h.mailbox
    case unfinished => exact h.unfinished
    case detached =>
      intro hd
      rw [hacc]
      exact ⟨(h.detached hd).1, .inr rfl⟩
  | destroyPump hp hd ht =>
    subst ht
    have hs : started { s with pump := .destroyed, lane := s.lane.stopReceiving } = s.started := by
      rw [started, started]
      rcases standing_of_betweenTurns hp hd with hx | hx <;> rw [hx] <;> rfl
    have hmail := h.mailbox
    rw [hd] at hmail
    apply Closing.mk
    case exit_last => exact h.exit_last
    case terminal => exact h.terminal
    case closed =>
      rw [ExitStarted, hs]
      exact h.closed
    case mailbox => exact hmail
    case unfinished => exact fun _ => h.unfinished hd
    case detached =>
      intro hx
      cases hx
  | beginCompletion c hp hc ht hfin hh hb hi hs hm =>
    have hin : c.submission ∈ s.accepted := by
      rw [hf.accepted_eq ho, heard.unreceived_receive hc]
      simp only [List.map_cons, List.mem_append, List.mem_cons, true_or, or_true]
    have hacc : t.accepted = s.accepted := by
      obtain ⟨rest, -, hl⟩ := Lane.receive?_eq_some_iff.1 hc
      exact accepted_of_issued (by rw [hl]) hb
    exact h.beginCompletion hacc hin (by rw [hp]; rfl) ht hfin hs hm
  | endCompletion sub outcome answers listeners log hp he => exact h.endCompletion hf ho hp he
  | endTurn log hp he =>
    cases he with
    | wait hn => exact h.of_frame ⟨hp.symm, rfl, rfl, rfl⟩ rfl (.refl _)
    | detach log hx => exact absurd hx.1 (h.not_closed hp)
  | quit listeners log hp hc he ht =>
    subst ht
    obtain ⟨held, hall⟩ := h.quit hf ho heard hp hc he
    have hclosed := h.closed
    rw [ExitStarted, started_of_idle (s := s) (by rw [hp]; rfl),
      ← List.append_nil (s.finished.map _)] at hclosed
    apply Closing.mk
    case exit_last => exact h.exit_last
    case terminal => exact h.terminal
    case closed => exact hclosed
    case mailbox => exact ⟨fun _ => .inr rfl, fun _ => rfl⟩
    case unfinished =>
      intro hx
      cases hx
    case detached => exact fun _ => ⟨hall, .inr held⟩

end Session

end MarketFeed
