import MarketFeed.Proofs.Session.Plan

namespace MarketFeed

def Act.ends (kind : EventKind) : Act → Bool
  | on event _ _ => EventKind.ofName? event = some kind
  | off k => k = kind
  | _ => false

namespace Session

variable {σ : Type} {V : Vendor σ} {vendor : σ} {s t u : Session σ} {m : Move} {ms : List Move}
  {kind : EventKind} {number : Nat}

/-- Whether a move ends what was registered for a kind. Another registration for the kind does, and
its removal, from outside or in host code that the pump runs; so does the end of an exit's
continuation. A session that was let go ends everything with the pump's finding that no call is left
of it, or at once if the pump is gone. -/
def ends (s : Session σ) (kind : EventKind) : Move → Bool
  | .on k _ => k = kind
  | .off k => k = kind
  | .pump =>
    match s.pump with
    | .waiting =>
      match s.lane.receive?, s.lane.phase with
      | none, .ended => !s.held
      | _, _ => false
    | .completing sub _ [] _ => sub.operation = .exit
    | .completing sub _ (act :: _) _ =>
      if (s.panic? act).isSome then sub.operation = .exit else s.allows act && act.ends kind
    | .dispatching _ _ _ (act :: _) _ => s.allows act && act.ends kind
    | _ => false
  | .letGo =>
    match s.pump with
    | .detached | .destroyed => true
    | _ => false
  | .destroyPump => !s.held
  | _ => false

def dispatched? (s : Session σ) : Move → Option Notification
  | .pump =>
    match s.pump with
    | .draining _ => s.mailbox.take?.map (·.1)
    | _ => none
  | _ => none

/-- The notifications that a registration was given, that which is with its listener included. -/
def given (s : Session σ) (number : Nat) : List Notification :=
  s.drained.filterMap fun x =>
    if x.2.any fun r => r.number == number then some x.1 else none

/-- What a move does to the listener of a kind, by whether it ends what was registered for it. -/
inductive KindChange (s t : Session σ) (kind : EventKind) : Bool → Prop
  | keep (hl : t.listeners.find? kind = s.listeners.find? kind)
      (hn : s.registrations ≤ t.registrations) (hg : t.isGone = s.isGone) :
      KindChange s t kind false
  | put (l : Listener) (hl : t.listeners.find? kind = some ⟨s.registrations, l⟩)
      (hn : t.registrations = s.registrations + 1) (hg : t.isGone = false) :
      KindChange s t kind true
  | remove (hl : t.listeners.find? kind = none) (hn : s.registrations ≤ t.registrations) :
      KindChange s t kind true
  | go (hl : t.listeners.find? kind = s.listeners.find? kind)
      (hn : s.registrations ≤ t.registrations) (hg : t.isGone = true) : KindChange s t kind true

theorem isGone_of_held (h : s.held = true) : s.isGone = false := by
  rw [isGone, h]
  cases s.pump <;> rfl

theorem KindChange.of_eq (hl : t.listeners = s.listeners) (hn : t.registrations = s.registrations)
    (hg : t.isGone = s.isGone) : KindChange s t kind false :=
  .keep (by rw [hl]) (Nat.le_of_eq hn.symm) hg

theorem KindChange.of_on (held : s.held = true) (k : EventKind) (l : Listener) :
    KindChange s (s.on k l).2 kind (k = kind) := by
  have hf : (s.on k l).2.listeners.find? kind =
      if k = kind then some ⟨s.registrations, l⟩ else s.listeners.find? kind :=
    Listeners.find?_register _ _ _ _
  by_cases hk : k = kind
  · rw [if_pos hk] at hf
    rw [decide_eq_true hk]
    exact .put l hf rfl (isGone_of_held held)
  · rw [if_neg hk] at hf
    rw [decide_eq_false hk]
    exact .keep hf (Nat.le_succ _) rfl

theorem KindChange.of_off (k : EventKind) : KindChange s (s.off k).2 kind (k = kind) := by
  have hf : (s.off k).2.listeners.find? kind =
      if k = kind then none else s.listeners.find? kind := Listeners.find?_unregister _ _ _
  by_cases hk : k = kind
  · rw [if_pos hk] at hf
    rw [decide_eq_true hk]
    exact .remove hf (Nat.le_refl _)
  · rw [if_neg hk] at hf
    rw [decide_eq_false hk]
    exact .keep hf (Nat.le_refl _) rfl

theorem KindChange.of_perform (V : Vendor σ) (s : Session σ) (act : Act) :
    KindChange s (s.perform V act).2 kind (s.allows act && act.ends kind) := by
  unfold perform
  cases ha : s.allows act with
  | false => exact .of_eq rfl rfl rfl
  | true =>
    simp only [Bool.not_true, Bool.false_eq_true, if_false, Bool.true_and]
    cases act with
    | call request requestId acts =>
      change KindChange s (s.book request requestId ⟨0, acts⟩).2.enqueue kind false
      rcases s.book_eq request requestId ⟨0, acts⟩ with ⟨-, he⟩ | ⟨-, -, -, log, he⟩
      · rw [he, enqueue]
        cases s.booked <;> exact .of_eq rfl rfl rfl
      · rw [he]
        exact .of_eq rfl rfl rfl
    | on event label rounds =>
      have held : s.held = true := held_of_allows ha rfl
      simp only [onNamed, EventKind.named, Act.ends]
      cases EventKind.ofName? event with
      | none => exact .of_eq rfl rfl rfl
      | some k =>
        simp only [Option.some.injEq]
        exact .of_on held k _
    | off k => exact .of_off k
    | emit callbacks =>
      simp only [emit]
      cases V.isListening s.lane.worker.vendor <;> exact .of_eq rfl rfl rfl
    | _ => exact .of_eq rfl rfl rfl

theorem KindChange.of_table {ended : Bool} (h : KindChange s u kind ended)
    (hl : t.listeners = u.listeners) (hn : t.registrations = u.registrations)
    (hu : u.isGone = false) (ht : t.isGone = false) : KindChange s t kind ended := by
  cases h with
  | keep hl' hn' hg => exact .keep (hl ▸ hl') (hn ▸ hn') (ht.trans (hu.symm.trans hg))
  | put l hl' hn' hg => exact .put l (hl ▸ hl') (hn ▸ hn') ht
  | remove hl' hn' => exact .remove (hl ▸ hl') (hn ▸ hn')
  | go hl' hn' hg =>
    rw [hu] at hg
    cases hg

theorem Act.not_ends_of_panic {act : Act} {text : String} (h : s.panic? act = some text) :
    act.ends kind = false := by
  cases act with
  | panic => rfl
  | _ => cases h

theorem ends_of_endCompletion {sub : Submission Continuation} {outcome : Outcome} {acts : List Act}
    {answers : List Answer} (hp : s.pump = .completing sub outcome acts answers)
    (hend : s.EndsWith acts) : s.ends kind .pump = decide (sub.operation = .exit) := by
  rcases hend with rfl | ⟨act, later, text, rfl, hq⟩
  · simp only [ends, hp]
  · simp only [ends, hp, hq, Option.isSome_some, if_true]

theorem ends_of_endDispatch {count : Nat} {n : Notification} {r : Registration} {acts : List Act}
    {answers : List Answer} (hp : s.pump = .dispatching count n r acts answers)
    (hend : s.EndsWith acts) : s.ends kind .pump = false := by
  rcases hend with rfl | ⟨act, later, text, rfl, hq⟩
  · simp only [ends, hp]
  · simp only [ends, hp, Act.not_ends_of_panic hq, Bool.and_false]

/-- A turn that ends without an exit leaves the pump waiting. -/
theorem TurnEnd.kindChange (h : TurnEnd u t) (hopen : u.state ≠ .closed)
    (hl : u.listeners = s.listeners) (hn : u.registrations = s.registrations)
    (hg : s.isGone = false) : KindChange s t kind false := by
  cases h with
  | wait => exact .of_eq hl hn hg.symm
  | detach log hx => exact absurd hx.1 hopen

theorem KindChange.of_endCompletion (hs : s.Sound V vendor) {sub : Submission Continuation}
    {outcome : Outcome} {acts : List Act} {answers : List Answer}
    (hp : s.pump = .completing sub outcome acts answers) (answers' : List Answer)
    (panic : Option String) :
    KindChange s (s.endCompletion sub outcome answers' panic) kind (sub.operation = .exit) := by
  obtain ⟨log, he⟩ := s.endCompletion_eq sub outcome answers' panic
  rw [he]
  have ht := TurnEnd.of_endTurn
    { s with
      finished := s.finished ++ [⟨sub, outcome, answers'⟩]
      listeners := if sub.operation = .exit then .empty else s.listeners
      inFlight := s.inFlight - 1
      log := log }
  have hstand : s.pump.standing = .inCall sub outcome := by rw [hp]; rfl
  have hclosed := hs.closing.closed_iff_of_inCall hstand
  by_cases ho : sub.operation = .exit
  · rw [decide_eq_true ho]
    simp only [if_pos ho] at ht ⊢
    generalize endTurn _ = v at ht ⊢
    cases ht <;> exact .remove (Listeners.find?_empty kind) (Nat.le_refl _)
  · rw [decide_eq_false ho]
    exact ht.kindChange (fun hc => ho (hclosed.1 hc)) (if_neg ho) rfl (by simp only [isGone, hp])

theorem KindChange.of_pumpStep? (hs : s.Sound V vendor) (h : s.pumpStep? V = some t) :
    KindChange s t kind (s.ends kind .pump) := by
  cases PumpStep.of_pumpStep? h with
  | start hp =>
    have he : s.ends kind .pump = false := by simp only [ends, hp]
    rw [he]
    exact .of_eq rfl rfl (by simp only [isGone, hp])
  | receive c lane hp hc =>
    have he : s.ends kind .pump = false := by simp only [ends, hp, hc]
    obtain ⟨log, hb⟩ := beginCompletion_eq { s with lane := lane } c
    rw [he, hb]
    exact .of_eq rfl rfl (by simp only [isGone, hp])
  | quit hp hc he =>
    have held := (hs.closing.quit hs.flow hs.orderly hs.heard hp hc he).1
    have he : s.ends kind .pump = true := by simp only [ends, hp, hc, he, held, Bool.not_false]
    rw [he]
    exact .remove (Listeners.find?_empty kind) (Nat.le_refl _)
  | wake m hp hc hm =>
    have he : s.ends kind .pump = false := by
      cases hph : s.lane.phase with
      | ended =>
        simp only [pumpStep?, hp, beginTurn?, hc, hph] at h
        cases congrArg (fun u => u.map fun v => v.pump) h
      | _ => simp only [ends, hp, hc, hph]
    rw [he]
    exact .of_eq rfl rfl (by simp only [isGone, hp])
  | endCompletion sub outcome acts answers answers' panic hp hend =>
    rw [ends_of_endCompletion hp hend]
    exact .of_endCompletion hs hp answers' panic
  | continueCompletion sub outcome act acts answers answers' hp hw hq =>
    have he : s.ends kind .pump = (s.allows act && act.ends kind) := by
      simp only [ends, hp, hq, Option.isSome_none, Bool.false_eq_true, if_false]
    rw [he]
    have hu : (s.perform V act).2.isGone = false := by
      simp only [isGone, (HostChange.of_perform V hw).frame.1, hp]
    exact KindChange.of_table (.of_perform V s act) rfl rfl hu rfl
  | take count n m hp hm =>
    have he : s.ends kind .pump = false := by simp only [ends, hp]
    rw [he]
    rcases beginDispatch_eq { s with mailbox := m } count n with
      ⟨-, log, hb⟩ | ⟨r, log, -, hb⟩ <;> rw [hb] <;>
      exact .of_eq rfl rfl (by simp only [isGone, hp])
  | endDrain count hp hm =>
    have he : s.ends kind .pump = false := by simp only [ends, hp]
    obtain ⟨log, hb⟩ := s.endDrain_eq count
    rw [he, hb]
    exact (TurnEnd.of_endTurn _).kindChange (hs.closing.not_closed (by rw [hp]; rfl)) rfl rfl
      (by simp only [isGone, hp])
  | endDispatch count n r acts answers answers' panic hp hend =>
    obtain ⟨log, hb⟩ := s.endDispatch_eq count n r answers' panic
    rw [ends_of_endDispatch hp hend, hb]
    exact .of_eq rfl rfl (by simp only [isGone, hp])
  | continueDispatch count n r act acts answers answers' hp hw hq =>
    have he : s.ends kind .pump = (s.allows act && act.ends kind) := by simp only [ends, hp]
    rw [he]
    have hu : (s.perform V act).2.isGone = false := by
      simp only [isGone, (HostChange.of_perform V hw).frame.1, hp]
    exact KindChange.of_table (.of_perform V s act) rfl rfl hu rfl

theorem KindChange.of_step? (hs : s.Sound V vendor) (h : s.step? V m = some t)
    (kind : EventKind) : KindChange s t kind (s.ends kind m) := by
  cases m with
  | book request requestId k =>
    obtain ⟨-, h⟩ := Option.ite_none_right_eq_some.1 h
    cases h
    rcases s.book_eq request requestId k with ⟨-, he⟩ | ⟨-, -, -, log, he⟩ <;> rw [he] <;>
      exact .of_eq rfl rfl rfl
  | enqueue =>
    obtain ⟨-, h⟩ := Option.ite_none_right_eq_some.1 h
    cases h
    rw [enqueue]
    cases s.booked <;> exact .of_eq rfl rfl rfl
  | on k l =>
    obtain ⟨held, h⟩ := Option.ite_none_right_eq_some.1 h
    cases h
    exact .of_on held k l
  | off k =>
    obtain ⟨-, h⟩ := Option.ite_none_right_eq_some.1 h
    cases h
    exact .of_off k
  | post callback =>
    cases h
    exact .of_eq rfl rfl rfl
  | ring =>
    obtain ⟨m, -, rfl⟩ := Option.map_eq_some_iff.1 h
    exact .of_eq rfl rfl rfl
  | work =>
    obtain ⟨⟨raised, lane⟩, -, rfl⟩ := Option.map_eq_some_iff.1 h
    exact .of_eq rfl rfl rfl
  | pump => exact .of_pumpStep? hs h
  | letGo =>
    obtain ⟨⟨held, -⟩, h⟩ := Option.ite_none_right_eq_some.1 h
    cases h
    cases hp : s.pump with
    | detached | destroyed =>
      simp only [ends, hp]
      exact .go rfl (Nat.le_refl _) (by simp only [isGone, letGo, hp, Bool.not_false])
    | _ =>
      simp only [ends, hp]
      exact .of_eq rfl rfl (by simp only [isGone, letGo, hp])
  | destroyPump =>
    obtain ⟨-, h⟩ := Option.ite_none_right_eq_some.1 h
    cases h
    have hl : s.destroyPump.listeners = s.listeners := by
      rw [destroyPump]
      split <;> rfl
    have hn : s.destroyPump.registrations = s.registrations := by
      rw [destroyPump]
      split <;> rfl
    have hh : s.destroyPump.held = s.held := by
      rw [destroyPump]
      split <;> rfl
    cases held : s.held with
    | true =>
      simp only [ends, held, Bool.not_true]
      exact .of_eq hl hn (by rw [isGone_of_held held, isGone_of_held (hh.trans held)])
    | false =>
      simp only [ends, held, Bool.not_false]
      apply KindChange.go (by rw [hl]) (Nat.le_of_eq hn.symm)
      cases hp : s.pump <;>
        simp only [destroyPump, isDetached, hp, Bool.false_eq_true, if_false, if_true, isGone, held,
          Bool.not_false]

theorem KindChange.registrations_le {ended : Bool} (h : KindChange s t kind ended) :
    s.registrations ≤ t.registrations := by
  cases h with
  | put l hl hn hg => omega
  | _ => assumption

theorem registrations_le_of_step? (hs : s.Sound V vendor) (h : s.step? V m = some t) :
    s.registrations ≤ t.registrations :=
  (KindChange.of_step? hs h .tick).registrations_le

theorem KindChange.comes {ended : Bool} (h : KindChange s t kind ended) {r : Registration}
    (hr : t.listeners.find? kind = some r) :
    s.listeners.find? kind = some r ∨
      (r.number = s.registrations ∧ t.registrations = s.registrations + 1) := by
  cases h with
  | keep hl hn hg => exact .inl (hl ▸ hr)
  | put l hl hn hg =>
    rw [hl, Option.some.injEq] at hr
    exact .inr ⟨hr ▸ rfl, hn⟩
  | remove hl hn =>
    rw [hl] at hr
    cases hr
  | go hl hn hg => exact .inl (hl ▸ hr)

theorem KindChange.stood {ended : Bool} (h : KindChange s t kind ended) {r : Registration}
    (hr : t.listeners.find? kind = some r) (old : r.number < s.registrations) :
    s.listeners.find? kind = some r := by
  rcases h.comes hr with hr | ⟨hn, -⟩
  · exact hr
  · omega

theorem drained_beginDispatch {count : Nat} (hp : s.pump = .draining count) (n : Notification)
    (m : Mailbox) :
    ({ s with mailbox := m }.beginDispatch count n).drained =
      s.drained ++ [(n, s.listeners.find? n.kind)] := by
  rcases beginDispatch_eq { s with mailbox := m } count n with ⟨hl, log, he⟩ | ⟨r, log, hl, he⟩
  · have hl : s.listeners.find? n.kind = none := hl
    rw [he]
    simp only [drained, hp, hl, Pump.openDelivery, List.map_append, List.map_cons, List.map_nil,
      List.append_nil]
  · have hl : s.listeners.find? n.kind = some r := hl
    rw [he]
    simp only [drained, hp, hl, Pump.openDelivery, List.append_nil]

theorem drained_of_step? (h : s.step? V m = some t) :
    t.drained = s.drained ++
      ((s.dispatched? m).map fun n => (n, s.listeners.find? n.kind)).toList := by
  have hsame (hd : s.dispatched? m = none) (ht : t.drained = s.drained) :
      t.drained = s.drained ++
        ((s.dispatched? m).map fun n => (n, s.listeners.find? n.kind)).toList := by
    rw [hd, ht]
    exact (List.append_nil _).symm
  by_cases hm : m = .pump
  · subst hm
    have hone := (Change.of_step? h).mailChange.drained
    cases PumpStep.of_pumpStep? h with
    | take count n m hp hm =>
      rw [drained_beginDispatch hp]
      simp only [dispatched?, hp, hm, Option.map_some, Option.toList_some]
    | start hp | quit hp | wake m hp =>
      exact hsame (by simp only [dispatched?, hp])
        (drained_of_openDelivery (by rw [hp]; rfl) rfl rfl)
    | receive c lane hp hc =>
      obtain ⟨log, he⟩ := beginCompletion_eq { s with lane := lane } c
      rw [he] at hsame ⊢
      exact hsame (by simp only [dispatched?, hp])
        (drained_of_openDelivery (by rw [hp]; rfl) rfl rfl)
    | endDrain count hp hm =>
      have ht : (s.endDrain count).drained = s.drained := by
        rcases hone with ht | ⟨n, rest, hq, -⟩
        · exact ht
        · rw [Mailbox.take?_eq_none_iff.1 hm] at hq
          cases hq
      exact hsame (by simp only [dispatched?, hp, hm, Option.map_none]) ht
    | endCompletion sub outcome acts answers answers' panic hp
    | continueCompletion sub outcome act acts answers answers' hp
    | endDispatch count n r acts answers answers' panic hp
    | continueDispatch count n r act acts answers answers' hp =>
      exact hsame (by simp only [dispatched?, hp])
        (goes_of_pumpStep? (by rw [hp]; rfl) h).drained
  · apply hsame ?_ (goes_of_step? hm h).drained
    cases m with
    | pump => exact absurd rfl hm
    | _ => rfl

theorem given_of_step? (number : Nat) (h : s.step? V m = some t) :
    t.given number = s.given number ++ (s.dispatched? m).toList.filter fun n =>
      (s.listeners.find? n.kind).any fun r => r.number == number := by
  rw [given, drained_of_step? h, List.filterMap_append]
  apply congrArg (s.given number ++ ·)
  cases s.dispatched? m with
  | none => rfl
  | some n =>
    cases hx : (s.listeners.find? n.kind).any fun r => r.number == number <;>
      simp [hx]

theorem has_number_iff {k : EventKind} :
    ((s.listeners.find? k).any fun r => r.number == number) = true ↔
      ∃ r, s.listeners.find? k = some r ∧ r.number = number := by
  cases s.listeners.find? k <;> simp

/-- A move that ends something gives nothing to a listener. -/
theorem not_dispatched_of_ends (h : s.ends kind m = true) : s.dispatched? m = none := by
  cases m with
  | pump =>
    cases hp : s.pump with
    | draining count =>
      simp only [ends, hp, Bool.false_eq_true] at h
    | _ => simp only [dispatched?, hp]
  | _ => rfl

theorem isGone_iff :
    s.isGone = true ↔ s.held = false ∧ (s.pump = .detached ∨ s.pump = .destroyed) := by
  rw [isGone]
  cases s.pump <;> simp

theorem gone_of_step? (hg : s.isGone = true) (h : s.step? V m = some t) :
    t.isGone = true ∧ s.dispatched? m = none := by
  obtain ⟨held, hp⟩ := isGone_iff.1 hg
  have hh {P : Prop} (hx : s.held = true) : P := by
    rw [held] at hx
    cases hx
  cases m with
  | book request requestId k =>
    obtain ⟨hx, -⟩ := Option.ite_none_right_eq_some.1 h
    exact hh hx.1
  | on k l =>
    obtain ⟨hx, -⟩ := Option.ite_none_right_eq_some.1 h
    exact hh hx
  | off k =>
    obtain ⟨hx, -⟩ := Option.ite_none_right_eq_some.1 h
    exact hh hx
  | letGo =>
    obtain ⟨hx, -⟩ := Option.ite_none_right_eq_some.1 h
    exact hh hx.1
  | pump =>
    rcases hp with hp | hp <;> simp only [step?, pumpStep?, hp, reduceCtorEq] at h
  | enqueue =>
    obtain ⟨-, h⟩ := Option.ite_none_right_eq_some.1 h
    cases h
    refine ⟨?_, rfl⟩
    rw [enqueue]
    cases s.booked <;> exact hg
  | post callback =>
    cases h
    exact ⟨hg, rfl⟩
  | ring =>
    obtain ⟨m, -, rfl⟩ := Option.map_eq_some_iff.1 h
    exact ⟨hg, rfl⟩
  | work =>
    obtain ⟨⟨raised, lane⟩, -, rfl⟩ := Option.map_eq_some_iff.1 h
    exact ⟨hg, rfl⟩
  | destroyPump =>
    obtain ⟨-, h⟩ := Option.ite_none_right_eq_some.1 h
    cases h
    refine ⟨isGone_iff.2 ?_, rfl⟩
    rw [destroyPump]
    split
    · exact ⟨held, hp⟩
    · exact ⟨held, .inr rfl⟩

end Session

end MarketFeed
