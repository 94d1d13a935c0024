import MarketFeed.Proofs.Session.Bare

namespace MarketFeed

def Act.next? : List Act → Option Act
  | panic _ false :: _ => none
  | act :: _ => some act.bare
  | [] => none

theorem Act.bare_bare (act : Act) : act.bare.bare = act.bare := by cases act <;> rfl

theorem Act.next?_cons (act : Act) (acts : List Act) :
    (∃ text, act = panic text false ∧ next? (act :: acts) = none) ∨
      next? (act :: acts) = some act.bare := by
  cases act with
  | panic text inSession =>
    cases inSession with
    | false => exact .inl ⟨text, rfl, rfl⟩
    | true => exact .inr rfl
  | _ => exact .inr rfl

namespace Session

variable {σ : Type}

/-- The end of the continuation or the listener that is running. -/
def conclude (s : Session σ) : Session σ :=
  match s.pump with
  | .completing sub outcome _ _ => s.endCompletion sub outcome [] none
  | .dispatching count n r _ _ => s.endDispatch count n r [] none
  | _ => s

/-- What comes of the next act of a continuation or a listener, or of its end. -/
def proceed? (V : Vendor σ) (s : Session σ) : Option Act → Option (Session σ)
  | none => some s.conclude
  | some act =>
    if s.mustWait act then none
    else if (s.panic? act).isSome then some s.conclude
    else some (s.perform V act).2

section
variable {s t : Session σ} (h : s.bare = t.bare)
include h

theorem bare_conclude : s.conclude.bare = t.conclude.bare := by
  have hp : s.pump.bare = t.pump.bare := congrArg (·.pump) h
  rw [conclude, conclude]
  cases hs : s.pump with
  | completing sub outcome acts answers =>
    rw [hs] at hp
    cases ht : t.pump with
    | completing sub' outcome' acts' answers' =>
      rw [ht] at hp
      obtain ⟨hsub, rfl, -, -⟩ := Pump.completing.inj hp
      exact bare_endCompletion h hsub outcome [] [] none none
    | _ =>
      rw [ht] at hp
      cases hp
  | dispatching count n r acts answers =>
    rw [hs] at hp
    cases ht : t.pump with
    | dispatching count' n' r' acts' answers' =>
      rw [ht] at hp
      obtain ⟨rfl, rfl, hr, -, -⟩ := Pump.dispatching.inj hp
      exact bare_endDispatch h count n hr [] [] none none
    | _ =>
      rw [ht] at hp
      cases hp
  | _ =>
    have ht := pump_of_bare h (by rw [hs]; rfl)
    rw [ht, hs]
    exact h

theorem bare_proceed? (V : Vendor σ) (next : Option Act) :
    (s.proceed? V next).map bare = (t.proceed? V next).map bare := by
  cases next with
  | none => exact congrArg some (bare_conclude h)
  | some act =>
    rw [proceed?, proceed?, mustWait_of_bare h, panic?_of_bare h rfl]
    split
    · rfl
    · split
      · exact congrArg some (bare_conclude h)
      · exact congrArg some (bare_perform h V rfl)

end

variable {s t : Session σ}

theorem bare_of_pump {pump : Pump} (hp : pump.bare = s.pump.bare) :
    bare { s with pump := pump } = s.bare :=
  congrArg (fun pump => { s.bare with pump := pump }) hp

theorem mustWait_bare (s : Session σ) (act : Act) : s.mustWait act.bare = s.mustWait act := by
  cases act <;> rfl

theorem bare_of_performed (V : Vendor σ) {act : Act} {acts : List Act} {go : Session σ}
    {stop : String → Session σ}
    (hstop : ∀ text, s.panic? act = some text → (stop text).bare = s.conclude.bare)
    (hgo : s.mustWait act = false → go.bare = (s.perform V act).2.bare) :
    (if s.mustWait act then none
      else
        match s.panic? act with
        | some text => some (stop text)
        | none => some go).map bare = (s.proceed? V (Act.next? (act :: acts))).map bare := by
  rcases Act.next?_cons act acts with ⟨text, rfl, hn⟩ | hn
  · have hw : s.mustWait (.panic text false) = false := Bool.and_false _
    have hq : s.panic? (.panic text false) = some text := if_pos (Bool.or_true _)
    rw [hn, hw, hq]
    exact congrArg some (hstop text hq)
  · rw [hn, proceed?, mustWait_bare, panic?_of_bare rfl act.bare_bare]
    cases hw : s.mustWait act with
    | true => rfl
    | false =>
      cases hq : s.panic? act with
      | some text => exact congrArg some (hstop text hq)
      | none => exact congrArg some ((hgo hw).trans (bare_perform rfl V act.bare_bare.symm))

theorem bare_pumpStep?_running (V : Vendor σ) (hs : s.pump.isRunning = true) :
    (s.pumpStep? V).map bare = (s.proceed? V (Act.next? s.pump.acts)).map bare := by
  have hgo {act : Act} {pump : Pump} (hp : pump.bare = s.pump.bare) (hw : s.mustWait act = false) :
      bare { (s.perform V act).2 with pump := pump } = (s.perform V act).2.bare :=
    bare_of_pump (hp.trans (congrArg Pump.bare (HostChange.of_perform V hw).frame.1.symm))
  cases hp : s.pump with
  | completing sub outcome acts answers =>
    have hc : s.conclude = s.endCompletion sub outcome [] none := by rw [conclude, hp]
    cases acts with
    | nil =>
      simp only [pumpStep?, hp]
      apply congrArg some
      rw [hc]
      exact bare_endCompletion rfl rfl outcome _ _ _ _
    | cons act acts =>
      simp only [pumpStep?, hp]
      apply bare_of_performed V
      · intro text hq
        rw [hc, perform_of_panic V hq]
        exact bare_endCompletion rfl rfl outcome _ _ _ _
      · exact hgo (by rw [hp]; rfl)
  | dispatching count n r acts answers =>
    have hc : s.conclude = s.endDispatch count n r [] none := by rw [conclude, hp]
    cases acts with
    | nil =>
      simp only [pumpStep?, hp]
      apply congrArg some
      rw [hc]
      exact bare_endDispatch rfl count n rfl _ _ _ _
    | cons act acts =>
      simp only [pumpStep?, hp]
      apply bare_of_performed V
      · intro text hq
        rw [hc, perform_of_panic V hq]
        exact bare_endDispatch rfl count n rfl _ _ _ _
      · exact hgo (by rw [hp]; rfl)
  | _ =>
    rw [hp] at hs
    cases hs

/-- Two sessions that differ in their host code alone make the same step with their pumps, if their
host code goes on alike. -/
theorem bare_pumpStep? (V : Vendor σ) (h : s.bare = t.bare)
    (hn : Act.next? s.pump.acts = Act.next? t.pump.acts) :
    (s.pumpStep? V).map bare = (t.pumpStep? V).map bare := by
  cases hs : s.pump.isRunning with
  | false => exact bare_pumpStep?_outside h V hs
  | true =>
    have hr (s : Session σ) : s.bare.pump.isRunning = s.pump.isRunning := by
      rw [bare]
      cases s.pump <;> rfl
    have ht : t.pump.isRunning = true := by rw [← hr, ← h, hr, hs]
    rw [bare_pumpStep?_running V hs, bare_pumpStep?_running V ht, hn]
    exact bare_proceed? h V _

end Session

/-- A move without the host code that comes in with it. -/
def Move.bare : Move → Move
  | book request requestId k => book request requestId k.bare
  | on kind l => on kind l.bare
  | m => m

theorem Move.eq_of_bare {m m' : Move} (h : m.bare = m'.bare) :
    (∃ request requestId k k', m = book request requestId k ∧ m' = book request requestId k' ∧
      k.bare = k'.bare) ∨
    (∃ kind l l', m = on kind l ∧ m' = on kind l' ∧ l.bare = l'.bare) ∨ m = m' := by
  cases m with
  | book request requestId k =>
    cases m' with
    | book request' requestId' k' =>
      obtain ⟨rfl, rfl, hk⟩ := Move.book.inj h
      exact .inl ⟨request, requestId, k, k', rfl, rfl, hk⟩
    | _ => cases h
  | on kind l =>
    cases m' with
    | on kind' l' =>
      obtain ⟨rfl, hl⟩ := Move.on.inj h
      exact .inr (.inl ⟨kind, l, l', rfl, rfl, hl⟩)
    | _ => cases h
  | _ =>
    cases m' with
    | book request' requestId' k' => cases h
    | on kind' l' => cases h
    | _ => exact .inr (.inr h)

namespace Session

variable {σ : Type} {s t : Session σ}

/-- Two sessions that differ in their host code alone make the same step, if the host code that is
running goes on alike. -/
theorem bare_step? (V : Vendor σ) (h : s.bare = t.bare) {m m' : Move} (hm : m.bare = m'.bare)
    (hn : m = .pump → Act.next? s.pump.acts = Act.next? t.pump.acts) :
    (s.step? V m).map bare = (t.step? V m').map bare := by
  have book (request : Request) (requestId : Option Int32) {k k' : Continuation}
      (hk : k.bare = k'.bare) : (s.step? V (.book request requestId k)).map bare =
        (t.step? V (.book request requestId k')).map bare := by
    simp only [step?, held_of_bare h, free_of_bare h]
    split
    · exact congrArg some (book_of_bare h request requestId hk).2
    · rfl
  have on (kind : EventKind) {l l' : Listener} (hl : l.bare = l'.bare) :
      (s.step? V (.on kind l)).map bare = (t.step? V (.on kind l')).map bare := by
    rw [step?, step?, held_of_bare h]
    split
    · exact congrArg some (bare_on h kind hl)
    · rfl
  rcases Move.eq_of_bare hm with
    ⟨request, requestId, k, k', rfl, rfl, hk⟩ | ⟨kind, l, l', rfl, rfl, hl⟩ | rfl
  · exact book request requestId hk
  · exact on kind hl
  · cases m with
    | book request requestId k => exact book request requestId rfl
    | on kind l => exact on kind rfl
    | enqueue =>
      rw [step?, step?, isSome_booked_of_bare h]
      split
      · exact congrArg some (bare_enqueue h)
      · rfl
    | off kind =>
      rw [step?, step?, held_of_bare h]
      split
      · exact congrArg some (bare_off h kind)
      · rfl
    | post callback =>
      exact congrArg (fun b : Session σ =>
        some { b with mailbox := b.mailbox.post (.ofCallback callback) }) h
    | ring =>
      rw [step?, step?, Option.map_map, Option.map_map, mailbox_of_bare h]
      have hb (m : Mailbox) := congrArg (fun b : Session σ => { b with mailbox := m }) h
      exact congrArg (t.mailbox.ring?.map ·) (funext hb)
    | work => exact bare_workStep? h V
    | pump => exact bare_pumpStep? V h (hn rfl)
    | letGo =>
      simp only [step?, held_of_bare h, free_of_bare h]
      split
      · exact congrArg some (bare_letGo h)
      · rfl
    | destroyPump =>
      rw [step?, step?, betweenTurns_of_bare h]
      split
      · exact congrArg some (bare_destroyPump h)
      · rfl

/-- What there is to see of a session, seen from the vendor and from the host: the calls at the
vendor with their replies, the outcomes that continuations were given, the notifications and which
listeners were given them, the state, the calls in flight, the listeners in the table, the
notifications that are pending, and whether the pump has detached. -/
structure SameCourse (s t : Session σ) : Prop where
  exchanges : t.lane.worker.exchanges = s.lane.worker.exchanges
  outcomes : t.started.map (fun x => (x.1.request, x.1.requestId, x.1.continuation.tag, x.2)) =
    s.started.map (fun x => (x.1.request, x.1.requestId, x.1.continuation.tag, x.2))
  notifications : t.drained.map (fun d => (d.1, d.2.map fun r => (r.number, r.listener.label))) =
    s.drained.map (fun d => (d.1, d.2.map fun r => (r.number, r.listener.label)))
  state : t.state = s.state
  inFlight : t.inFlight = s.inFlight
  listeners : ∀ kind, (t.listeners.find? kind).map (fun r => (r.number, r.listener.label)) =
    (s.listeners.find? kind).map (fun r => (r.number, r.listener.label))
  pending : t.mailbox.pending = s.mailbox.pending
  isDetached : t.isDetached = s.isDetached

theorem started_bare (s : Session σ) :
    s.bare.started = s.started.map fun x => (x.1.map Continuation.bare, x.2) := by
  have hp : s.bare.pump.standing.openCall =
      s.pump.standing.openCall.map fun x => (x.1.map Continuation.bare, x.2) := by
    rw [bare]
    cases s.pump <;> rfl
  rw [started, started, hp, List.map_append, List.map_map, bare, List.map_map]
  rfl

theorem drained_bare (s : Session σ) :
    s.bare.drained = s.drained.map fun d => (d.1, d.2.map Registration.bare) := by
  have hp : s.bare.pump.openDelivery =
      s.pump.openDelivery.map fun d => (d.1, d.2.map Registration.bare) := by
    rw [bare]
    cases s.pump <;> rfl
  rw [drained, drained, hp, List.map_append, List.map_map, bare, List.map_map]
  rfl

theorem sameCourse_of_bare (h : s.bare = t.bare) : SameCourse s t := by
  have label (r? : Option Registration) :
      (r?.map Registration.bare).map (fun r => (r.number, r.listener.label)) =
        r?.map fun r => (r.number, r.listener.label) := by
    rw [Option.map_map]
    rfl
  apply SameCourse.mk
  case exchanges => exact congrArg (·.lane.worker.exchanges) h.symm
  case outcomes =>
    have hs := congrArg (fun b : Session σ => b.started.map fun x =>
      (x.1.request, x.1.requestId, x.1.continuation.tag, x.2)) h.symm
    simp only [started_bare, List.map_map] at hs
    exact hs
  case notifications =>
    have hd := congrArg (fun b : Session σ => b.drained.map fun d =>
      (d.1, d.2.map fun r => (r.number, r.listener.label))) h.symm
    simp only [drained_bare, List.map_map, Function.comp_def, label] at hd
    exact hd
  case state => exact (state_of_bare h).symm
  case inFlight => exact (inFlight_of_bare h).symm
  case listeners =>
    intro kind
    rw [← label, ← label (s.listeners.find? kind), find?_of_bare h]
  case pending => exact congrArg Mailbox.pending (mailbox_of_bare h).symm
  case isDetached => exact (isDetached_of_bare h).symm

end Session

end MarketFeed
