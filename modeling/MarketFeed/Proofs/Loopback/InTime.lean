import MarketFeed.Proofs.Loopback.Callers

namespace MarketFeed.Loopback

/-- The callbacks that a line has to raise for a sending. -/
def Sending.due (slot : Nat) (x : Sending) : List Callback :=
  if x.slot = slot && x.inTime then x.callbacks else []

def due (slot : Nat) (xs : List Sending) : List Callback := xs.flatMap (Sending.due slot)

theorem due_concat (slot : Nat) (xs : List Sending) (x : Sending) :
    due slot (xs ++ [x]) = due slot xs ++ x.due slot := by
  rw [due, List.flatMap_append, List.flatMap_singleton]
  rfl

theorem due_of_ne {slot : Nat} {x : Sending} (h : x.slot ≠ slot) : x.due slot = [] := by
  rw [Sending.due, decide_eq_false h]
  rfl

theorem due_eq_nil {slot : Nat} {xs : List Sending} (h : ∀ x ∈ xs, x.slot ≠ slot) :
    due slot xs = [] := List.flatMap_eq_nil_iff.2 fun x hx => due_of_ne (h x hx)

/-- How a line serves what came in time: part of it was raised, and the rest waits in front of the
stop. -/
inductive Line.Serves (cs : List Callback) (l : Line) : Prop
  | atWork (hj : l.joined = false) (hr : l.running = true) (hs : .stop ∉ l.queue)
      (hp : l.promised = cs)
  | told (q rest : List Item) (hj : l.joined = true) (hr : l.running = true)
      (hq : l.queue = q ++ .stop :: rest) (hs : .stop ∉ q)
      (hp : l.raised ++ q.flatMap Item.callbacks = cs)
  | ended (hj : l.joined = true) (hr : l.running = false) (hp : l.raised = cs)

namespace Line.Serves

variable {cs : List Callback} {l l' : Line}

theorem fresh : Serves [] {} := .atWork rfl rfl nofun rfl

theorem push (h : Serves cs l) (callbacks : List Callback) :
    Serves (cs ++ if !l.joined then callbacks else []) (l.push (.raise callbacks)) := by
  cases h with
  | atWork hj hr hs hp =>
    have hs' : .stop ∉ (l.push (.raise callbacks)).queue := by
      rw [Line.push, List.mem_append, not_or]
      exact ⟨hs, by simp⟩
    rw [hj]
    exact .atWork hj hr hs' (by rw [Line.promised_push, hp]; rfl)
  | told q rest hj hr hq hs hp =>
    have hq' : (l.push (.raise callbacks)).queue = q ++ .stop :: (rest ++ [.raise callbacks]) := by
      rw [Line.push, hq, List.append_assoc]
      rfl
    rw [hj]
    exact .told q _ hj hr hq' hs (hp.trans (List.append_nil cs).symm)
  | ended hj hr hp =>
    rw [hj]
    exact .ended hj hr (hp.trans (List.append_nil cs).symm)

theorem tell (h : Serves cs l) (hj : l.joined = false) :
    Serves cs { l.push .stop with joined := true } := by
  cases h with
  | atWork hj hr hs hp => exact .told l.queue [] rfl hr rfl hs hp
  | told q rest hj' | ended hj' => cases hj.symm.trans hj'

theorem raise (h : Serves cs l) (ha : l.advance? = some l') : Serves cs l' := by
  have hp' := Line.promised_advance? ha
  obtain ⟨hr', hl⟩ := Line.advance?_cases ha
  cases h with
  | atWork hj hr hs hp =>
    rcases hl with ⟨callbacks, rest, hq, rfl⟩ | ⟨rest, hq, -⟩
    · rw [hq] at hs
      exact .atWork hj hr (fun hm => hs (List.mem_cons_of_mem _ hm)) (hp'.trans hp)
    · rw [hq] at hs
      exact absurd List.mem_cons_self hs
  | told q rest hj hr hq hs hp =>
    cases q with
    | nil =>
      rcases hl with ⟨callbacks, rest', hq', -⟩ | ⟨rest', -, rfl⟩
      · rw [hq] at hq'
        cases hq'
      · exact .ended hj rfl ((List.append_nil _).symm.trans hp)
    | cons i q =>
      rcases hl with ⟨callbacks, rest', hq', rfl⟩ | ⟨rest', hq', -⟩
      · rw [hq] at hq'
        cases hq'
        have hs' := fun hm => hs (List.mem_cons_of_mem _ hm)
        exact .told q rest hj hr rfl hs' ((List.append_assoc ..).trans hp)
      · rw [hq] at hq'
        cases hq'
        exact absurd List.mem_cons_self hs
  | ended hj hr => cases hr.symm.trans hr'

theorem prefix_due (h : Serves cs l) : l.raised <+: cs := by
  cases h with
  | atWork hj hr hs hp => exact ⟨_, hp⟩
  | told q rest hj hr hq hs hp => exact ⟨_, hp⟩
  | ended hj hr hp => exact ⟨[], (List.append_nil _).trans hp⟩

theorem finished (h : Serves cs l) (hr : l.running = false) : l.Finished cs := by
  cases h with
  | atWork hj hr' | told q rest hj hr' => cases hr.symm.trans hr'
  | ended hj hr hp => exact ⟨hr, hj, hp⟩

/-- A thread that was told to stop finds something to do until it has stopped. -/
theorem exists_advance? (h : Serves cs l) (hj : l.joined = true) (hr : l.running = true) :
    ∃ l', l.advance? = some l' := by
  cases h with
  | atWork hj' => cases hj.symm.trans hj'
  | told q rest hj' hr' hq =>
    rw [Line.advance?, if_pos hr, hq]
    rcases q with _ | ⟨_ | _, q⟩ <;> exact ⟨_, rfl⟩
  | ended hj' hr' => cases hr.symm.trans hr'

end Line.Serves

def sentBy (place : Nat) (xs : List Sending) : List Sending :=
  xs.filter fun x => x.emitter = some place

/-- An emit that was taken has sent its callbacks once, to the session that it has found; nobody else
has sent any. -/
def Caller.Sent (place : Nat) (ys : List Sending) : Caller → Prop
  | emit callbacks (.done (some slot)) => ∃ inTime, ys = [⟨slot, some place, callbacks, inTime⟩]
  | _ => ys = []

theorem sentBy_concat (place : Nat) (xs : List Sending) (x : Sending) :
    sentBy place (xs ++ [x]) = sentBy place xs ++ if x.emitter = some place then [x] else [] := by
  rw [sentBy, List.filter_append, List.filter_singleton]
  cases hx : decide (x.emitter = some place) with
  | true => rw [if_pos (of_decide_eq_true hx)]; rfl
  | false => rw [if_neg (of_decide_eq_false hx)]; rfl

namespace Shared

variable {s t : Shared} {place slot : Nat} {c c' : Caller}

def Taken (s : Shared) (place slot : Nat) (callbacks : List Callback) : Prop :=
  s.callers[place]? = some (.emit callbacks (.done (some slot)))

def Ended (s : Shared) (place slot : Nat) : Prop :=
  s.callers[place]? = some (.finish slot .done)

/-- Every line serves what came to it in time. -/
structure Kept (s : Shared) : Prop where
  slots : ∀ x ∈ s.sendings, x.slot < s.gateway.lines.length
  serves {slot : Nat} (hl : slot < s.gateway.lines.length) :
    (s.gateway.line slot).Serves (due slot s.sendings)

theorem Kept.modifyLine (h : s.Kept) {f : Line → Line}
    (hf : ∀ cs, (s.gateway.line slot).Serves cs → (f (s.gateway.line slot)).Serves cs) :
    Kept { s with gateway := s.gateway.modifyLine slot f } where
  slots := by
    rw [length_lines_modifyLine]
    exact h.slots
  serves {other} hl := by
    rw [length_lines_modifyLine] at hl
    rcases line_modifyLine_cases hl slot f with ⟨rfl, he⟩ | ⟨-, he⟩
    · exact he ▸ hf _ (h.serves hl)
    · exact he ▸ h.serves hl

theorem Kept.send (h : s.Kept) (hl : slot < s.gateway.lines.length) (emitter : Option Nat)
    (callbacks : List Callback) : (s.send slot emitter callbacks).Kept where
  slots := by
    change ∀ x ∈ s.sendings ++ [_], x.slot < (s.gateway.modifyLine slot _).lines.length
    rw [length_lines_modifyLine]
    intro x hx
    rcases List.mem_append.1 hx with hx | hx
    · exact h.slots x hx
    · exact List.mem_singleton.1 hx ▸ hl
  serves {other} ho := by
    change ((s.gateway.modifyLine slot _).line other).Serves (due other (s.sendings ++ [_]))
    rw [due_concat]
    by_cases hne : slot = other
    · subst hne
      rw [line_modifyLine hl, Sending.due, decide_eq_true rfl]
      exact (h.serves hl).push callbacks
    · rw [line_modifyLine_of_ne hne, due_of_ne hne, List.append_nil]
      exact h.serves (length_lines_modifyLine slot _ ▸ ho)

theorem Kept.create (h : s.Kept) : Kept { s with gateway := s.gateway.create.2 } := by
  rcases create_cases s.gateway with ⟨-, he⟩ | ⟨-, he⟩
  · rw [he]
    exact ⟨h.slots, h.serves⟩
  · rw [he]
    have hlen := length_lines_addLine s.gateway
    apply Kept.mk
    case slots => exact fun x hx => hlen ▸ Nat.lt_add_right 1 (h.slots x hx)
    case serves =>
      intro slot hl
      change (s.gateway.addLine.line slot).Serves _
      rcases Nat.lt_succ_iff_lt_or_eq.1 (hlen ▸ hl) with hlt | rfl
      · rw [line_addLine_of_lt hlt]
        exact h.serves hlt
      · -- nothing was sent to a line before it was there
        rw [line_addLine, due_eq_nil fun x hx => Nat.ne_of_lt (h.slots x hx)]
        exact .fresh

theorem Kept.step (h : s.Kept) (hk : s.Known) (hs : Step s t) : t.Kept := by
  cases hs with
  | create free => exact h.create
  | push slot callbacks free => exact h.send (lt_of_free free) none callbacks
  | emit callbacks => exact ⟨h.slots, h.serves⟩
  | finish slot free => exact ⟨h.slots, h.serves⟩
  | proceed place c c' hc hp => exact ⟨h.slots, h.serves⟩
  | deliver place slot callbacks hc =>
    have hset : (s.setCaller place (.emit callbacks (.done (some slot)))).Kept := ⟨h.slots, h.serves⟩
    exact hset.send (hk.live slot (hk.knows place _ hc)) (some place) callbacks
  | tell place slot hc hj =>
    have hm : Kept { s with gateway := s.gateway.pushStop slot } :=
      h.modifyLine fun _ hs => hs.tell hj
    exact ⟨hm.slots, hm.serves⟩
  | clear place slot hc =>
    obtain ⟨live, he, -⟩ := clearLive_eq s.gateway slot
    rw [he]
    exact ⟨h.slots, h.serves⟩
  | raise slot l ha => exact h.modifyLine fun _ hs => hs.raise ha

structure Logged (s : Shared) : Prop where
  emitters : ∀ x ∈ s.sendings, ∀ place, x.emitter = some place → place < s.callers.length
  sent (place : Nat) (c : Caller) (hc : s.callers[place]? = some c) :
    c.Sent place (sentBy place s.sendings)

theorem Logged.join (h : s.Logged) (hc : ∀ place, c.Sent place []) : (s.join c).Logged where
  emitters x hx place hp := by
    change place < (s.callers ++ [c]).length
    rw [List.length_append]
    exact Nat.lt_add_right 1 (h.emitters x hx place hp)
  sent place d hd := by
    rcases getElem?_concat_cases hd with hd | ⟨rfl, rfl⟩
    · exact h.sent place d hd
    · have hnone : sentBy s.callers.length s.sendings = [] := by
        apply List.filter_eq_nil_iff.2
        intro x hx he
        exact Nat.lt_irrefl _ (h.emitters x hx _ (of_decide_eq_true he))
      change d.Sent _ (sentBy _ s.sendings)
      rw [hnone]
      exact hc _

theorem Logged.set (h : s.Logged) (hc : s.callers[place]? = some c) (c' : Caller)
    (hs : ∀ ys, c.Sent place ys → c'.Sent place ys) : (s.setCaller place c').Logged where
  emitters x hx other ho := by
    change other < (s.callers.set place c').length
    rw [List.length_set]
    exact h.emitters x hx other ho
  sent other d hd := by
    rcases getElem?_set_cases hd with ⟨rfl, rfl⟩ | ⟨-, hd⟩
    · exact hs _ (h.sent place c hc)
    · exact h.sent other d hd

theorem Logged.deliver (h : s.Logged) {callbacks : List Callback}
    (hc : s.callers[place]? = some (.emit callbacks (.holding (some slot)))) :
    ((s.setCaller place (.emit callbacks (.done (some slot)))).send slot (some place)
      callbacks).Logged where
  emitters x hx other ho := by
    change other < (s.callers.set place _).length
    rw [List.length_set]
    rcases List.mem_append.1 hx with hx | hx
    · exact h.emitters x hx other ho
    · rw [List.mem_singleton.1 hx] at ho
      cases ho
      exact (List.getElem?_eq_some_iff.1 hc).1
  sent other d hd := by
    change d.Sent other (sentBy other (s.sendings ++ [_]))
    rw [sentBy_concat]
    rcases getElem?_set_cases hd with ⟨rfl, rfl⟩ | ⟨ho, hd⟩
    · have hnone : sentBy place s.sendings = [] := h.sent place _ hc
      rw [hnone, if_pos rfl]
      exact ⟨_, rfl⟩
    · rw [if_neg fun he => ho (Option.some.inj he), List.append_nil]
      exact h.sent other d hd

theorem Logged.step (h : s.Logged) (hs : Step s t) : t.Logged := by
  cases hs with
  | create free => exact ⟨h.emitters, h.sent⟩
  | push slot callbacks free =>
    apply Logged.mk
    case emitters =>
      intro x hx place hp
      rcases List.mem_append.1 hx with hx | hx
      · exact h.emitters x hx place hp
      · rw [List.mem_singleton.1 hx] at hp
        cases hp
    case sent =>
      intro place c hc
      change c.Sent place (sentBy place (s.sendings ++ [_]))
      rw [sentBy_concat, if_neg nofun, List.append_nil]
      exact h.sent place c hc
  | emit callbacks => exact h.join fun _ => rfl
  | finish slot free => exact h.join fun _ => rfl
  | proceed place c c' hc hp => exact h.set hc c' (by cases hp <;> exact fun _ => id)
  | deliver place slot callbacks hc => exact h.deliver hc
  | tell place slot hc hj =>
    have hset := h.set hc (.finish slot .told) fun _ => id
    exact ⟨hset.emitters, hset.sent⟩
  | clear place slot hc =>
    have hset := h.set hc (.finish slot .done) fun _ => id
    exact ⟨hset.emitters, hset.sent⟩
  | raise slot l ha => exact ⟨h.emitters, h.sent⟩

structure Sound (s : Shared) : Prop where
  exclusive : s.Exclusive
  known : s.Known
  kept : s.Kept
  logged : s.Logged

theorem Sound.step (h : s.Sound) (hs : Step s t) : t.Sound where
  exclusive := h.exclusive.step hs
  known := h.known.step h.exclusive hs
  kept := h.kept.step h.known hs
  logged := h.logged.step hs

theorem sound_start (o : Options) : Sound { gateway := { options := o } } where
  exclusive := exclusive_start o
  known := known_start o
  kept := ⟨nofun, fun hl => absurd hl (Nat.not_lt_zero _)⟩
  logged := ⟨nofun, nofun⟩

theorem Sound.run (h : s.Sound) {ms : List Move} (hr : s.run ms = some t) : t.Sound :=
  run_induction (fun _ _ h hs => h.step hs) hr h

theorem Sound.finished (h : s.Sound) (hc : s.Ended place slot) :
    (s.gateway.line slot).Finished (due slot s.sendings) := by
  obtain ⟨hl, hr, -⟩ := h.known.knows place _ hc
  exact (h.kept.serves hl).finished hr

theorem Sound.late (h : s.Sound) {callbacks : List Callback}
    (hc : s.callers[place]? = some (.emit callbacks (.holding (some slot))))
    (hj : (s.gateway.line slot).joined = true) :
    .finish slot .told ∈ s.callers ∨ .finish slot .joined ∈ s.callers := by
  have hlive : s.gateway.live = some slot := h.known.knows place _ hc
  obtain ⟨d, hd, hend⟩ := List.countP_pos_iff.1 (h.known.lingers slot ⟨hj, .inr hlive⟩)
  cases d with
  | emit callbacks stage => cases hend
  | finish other stage =>
    cases stage with
    | told => exact .inl (of_decide_eq_true hend ▸ hd)
    | joined => exact .inr (of_decide_eq_true hend ▸ hd)
    | holding =>
      -- the lock is the emit's
      obtain ⟨i, hi⟩ := List.mem_iff_getElem?.1 hd
      obtain rfl := eq_of_countP_le_one h.exclusive.lock hc hi rfl rfl
      cases hc.symm.trans hi
    | arrived | done => cases hend

theorem exists_advance?_of_ownsLive (hc : s.callers[place]? = some c) (ho : c.ownsLive = true) :
    ∃ t, s.advance? place = some t := by
  match c, ho with
  | .emit callbacks (.holding (some slot)), _ => exact ⟨_, advance?_deliver hc⟩
  | .emit callbacks (.holding none), _ => exact ⟨_, advance?_of_proceeds hc (.refuse callbacks)⟩
  | .finish slot .holding, _ => exact ⟨_, advance?_clear hc⟩

theorem Sound.goesOn (h : s.Sound) (hc : s.callers[place]? = some c) (hd : c.isDone = false) :
    (∃ other t, s.advance? other = some t) ∨
      ∃ slot l, (s.gateway.line slot).advance? = some l := by
  cases hl : s.isLocked with
  | true =>
    obtain ⟨d, hm, howns⟩ := List.any_eq_true.1 hl
    obtain ⟨other, hother⟩ := List.mem_iff_getElem?.1 hm
    exact .inl ⟨other, exists_advance?_of_ownsLive hother howns⟩
  | false =>
    cases c with
    | emit callbacks stage =>
      cases stage with
      | arrived => exact .inl ⟨place, _, advance?_of_proceeds hc (.look callbacks hl)⟩
      | holding found => exact .inl ⟨place, exists_advance?_of_ownsLive hc rfl⟩
      | done found => cases hd
    | finish slot stage =>
      obtain ⟨hslot, hk⟩ := h.known.knows place _ hc
      cases stage with
      | arrived =>
        cases hj : (s.gateway.line slot).joined with
        | true => exact .inl ⟨place, _, advance?_of_proceeds hc (.skip slot hj)⟩
        | false => exact .inl ⟨place, _, advance?_tell hc hj⟩
      | told =>
        cases hr : (s.gateway.line slot).running with
        | true => exact .inr ⟨slot, (h.kept.serves hslot).exists_advance? hk hr⟩
        | false => exact .inl ⟨place, _, advance?_of_proceeds hc (.join slot hr)⟩
      | joined => exact .inl ⟨place, _, advance?_of_proceeds hc (.lock slot hl)⟩
      | holding => exact .inl ⟨place, exists_advance?_of_ownsLive hc rfl⟩
      | done => cases hd

theorem Step.returned (hs : Step s t) (hc : s.callers[place]? = some c) (hd : c.isDone = true) :
    t.callers[place]? = some c := by
  have hset {other : Nat} {d : Caller} (d' : Caller) (ho : s.callers[other]? = some d)
      (hnot : d.isDone = false) : (s.callers.set other d')[place]? = some c := by
    rw [List.getElem?_set_ne, hc]
    rintro rfl
    cases hc.symm.trans ho
    cases hd.symm.trans hnot
  cases hs with
  | create free => exact hc
  | push slot callbacks free => exact hc
  | emit callbacks => exact (List.getElem?_append_left (List.getElem?_eq_some_iff.1 hc).1).trans hc
  | finish slot free =>
    exact (List.getElem?_append_left (List.getElem?_eq_some_iff.1 hc).1).trans hc
  | proceed other d d' ho hp => exact hset d' ho (by cases hp <;> rfl)
  | deliver other slot callbacks ho => exact hset _ ho rfl
  | tell other slot ho hj => exact hset _ ho rfl
  | clear other slot ho => exact hset _ ho rfl
  | raise slot l ha => exact hc

theorem Step.finished (hs : Step s t) {cs : List Callback}
    (h : (s.gateway.line slot).Finished cs) : (t.gateway.line slot).Finished cs := by
  cases hs with
  | create free =>
    rcases create_cases s.gateway with ⟨-, he⟩ | ⟨-, he⟩
    · rw [he]
      exact h
    · rw [he]
      exact (line_addLine_of_lt (lt_of_finished h)).symm ▸ h
  | push other callbacks free => exact (spares_push other callbacks).finished h
  | emit callbacks => exact h
  | finish other free => exact h
  | proceed place c c' hc hp => exact h
  | deliver place other callbacks hc => exact (spares_push other callbacks).finished h
  | tell place other hc hj =>
    exact finished_modifyLine (fun h => ⟨h.running, rfl, h.raised⟩) h
  | clear place other hc =>
    obtain ⟨live, he, -⟩ := clearLive_eq s.gateway other
    rw [he]
    exact h
  | raise other l ha =>
    have hne : other ≠ slot := by
      rintro rfl
      cases h.running.symm.trans (Line.advance?_cases ha).1
    exact (line_modifyLine_of_ne hne _).symm ▸ h

theorem Step.taken (hs : Step s t) (h : s.Known) {callbacks : List Callback}
    (hc : t.Taken place slot callbacks) :
    s.Taken place slot callbacks ∨ s.gateway.live = some slot := by
  cases hs with
  | create free => exact .inl hc
  | push other callbacks free => exact .inl hc
  | emit callbacks | finish other free =>
    rcases getElem?_concat_cases hc with hc | ⟨-, he⟩
    · exact .inl hc
    · cases he
  | proceed other d d' ho hp =>
    rcases getElem?_set_cases hc with ⟨-, rfl⟩ | ⟨-, hc⟩
    · cases hp
    · exact .inl hc
  | deliver other slot' callbacks ho =>
    rcases getElem?_set_cases hc with ⟨-, he⟩ | ⟨-, hc⟩
    · cases he
      exact .inr (h.knows other _ ho)
    · exact .inl hc
  | tell other slot' ho hj | clear other slot' ho =>
    rcases getElem?_set_cases hc with ⟨-, he⟩ | ⟨-, hc⟩
    · cases he
    · exact .inl hc
  | raise other l ha => exact .inl hc

/-- What is left of a session after its end has returned. -/
structure Over (s : Shared) (place slot : Nat) (t : Shared) : Prop where
  sound : t.Sound
  ended : t.Ended place slot
  finished : (t.gateway.line slot).Finished (due slot s.sendings)
  taken (other : Nat) (callbacks : List Callback) (ht : t.Taken other slot callbacks) :
    s.Taken other slot callbacks

theorem Over.step {u : Shared} (h : s.Over place slot t) (hs : Step t u) :
    s.Over place slot u where
  sound := h.sound.step hs
  ended := hs.returned h.ended rfl
  finished := hs.finished h.finished
  taken other callbacks hu := by
    rcases hs.taken h.sound.known hu with ht | hlive
    · exact h.taken other callbacks ht
    · obtain ⟨-, -, hnot⟩ := h.sound.known.knows place _ h.ended
      exact absurd hlive hnot

theorem Sound.silent (h : s.Sound) (hc : s.Ended place slot) {ms : List Move}
    (hr : s.run ms = some t) :
    (t.gateway.line slot).raised = (s.gateway.line slot).raised ∧
      ∀ other callbacks, t.Taken other slot callbacks → s.Taken other slot callbacks := by
  have hfin := h.finished hc
  have hover : s.Over place slot t :=
    run_induction (fun _ _ hu hs => hu.step hs) hr ⟨h, hc, hfin, fun _ _ => id⟩
  exact ⟨hover.finished.raised.trans hfin.raised.symm, hover.taken⟩

/-- How a gateway serves those who emit and those who end sessions. An emit that was taken has sent
its callbacks once, and one that was not has sent none. What a session has raised came in time, in
this order; when its end has returned all of that was raised, and from then on it raises nothing and
no emit is taken for it. An emit comes too late only between the stop and the live slot of the end
of its session. Nobody waits for something that does not come. -/
structure ServesInTime (s : Shared) : Prop where
  sent (place : Nat) (c : Caller) (hc : s.callers[place]? = some c) :
    c.Sent place (sentBy place s.sendings)
  raised (slot : Nat) (hl : slot < s.gateway.lines.length) :
    (s.gateway.line slot).raised <+: due slot s.sendings
  ended (place slot : Nat) (hc : s.Ended place slot) :
    (s.gateway.line slot).raised = due slot s.sendings
  silent (place slot : Nat) (hc : s.Ended place slot) (ms : List Move) (t : Shared)
    (hr : s.run ms = some t) :
    (t.gateway.line slot).raised = (s.gateway.line slot).raised ∧
      ∀ other callbacks, t.Taken other slot callbacks → s.Taken other slot callbacks
  late (place slot : Nat) (callbacks : List Callback)
    (hc : s.callers[place]? = some (.emit callbacks (.holding (some slot))))
    (hj : (s.gateway.line slot).joined = true) :
    .finish slot .told ∈ s.callers ∨ .finish slot .joined ∈ s.callers
  goesOn (place : Nat) (c : Caller) (hc : s.callers[place]? = some c) (hd : c.isDone = false) :
    (∃ other t, s.advance? other = some t) ∨ ∃ slot l, (s.gateway.line slot).advance? = some l

/-- Whatever emits, and ends of sessions, a gateway is asked for at once: what comes in time is raised
once and in order, and what comes too late is not raised. -/
theorem servesInTime {o : Options} {ms : List Move}
    (hr : run { gateway := { options := o } } ms = some s) : s.ServesInTime := by
  have h := (sound_start o).run hr
  constructor
  case sent => exact h.logged.sent
  case raised => exact fun slot hl => (h.kept.serves hl).prefix_due
  case ended => exact fun place slot hc => (h.finished hc).raised
  case silent => exact fun place slot hc ms t hr => h.silent hc hr
  case late => exact fun place slot callbacks hc hj => h.late hc hj
  case goesOn => exact fun place c hc hd => h.goesOn hc hd

def threeEmits : List Move :=
  [.create, .emit [.heartbeatWarning 1], .advance 0, .advance 0, .finish 0, .advance 1,
    .emit [.heartbeatWarning 2], .advance 2, .advance 2, .raise 0, .raise 0, .advance 1, .advance 1,
    .advance 1, .emit [.heartbeatWarning 3], .advance 3, .advance 3]

theorem servesInTime_of_threeEmits :
    ∃ s : Shared,
      run {} threeEmits = some s ∧
      s.callers =
        [.emit [.heartbeatWarning 1] (.done (some 0)), .finish 0 .done,
          .emit [.heartbeatWarning 2] (.done (some 0)), .emit [.heartbeatWarning 3] (.done none)] ∧
      (s.gateway.line 0).raised = [.heartbeatWarning 1] ∧ s.ServesInTime := by
  obtain ⟨s, hs, he⟩ := Option.map_eq_some_iff.1
    (rfl : (run {} threeEmits).map (fun s => (s.callers, (s.gateway.line 0).raised)) =
      some
        ([.emit [.heartbeatWarning 1] (.done (some 0)), .finish 0 .done,
          .emit [.heartbeatWarning 2] (.done (some 0)), .emit [.heartbeatWarning 3] (.done none)],
          [.heartbeatWarning 1]))
  obtain ⟨hc, hraised⟩ := Prod.mk.inj he
  exact ⟨s, hs, hc, hraised, servesInTime (o := {}) hs⟩

/-- The end of a session comes as far as its thread, then somebody emits. -/
def emitIntoEnding : List Move :=
  [.create, .finish 0, .advance 0, .emit [.frontConnected], .advance 1, .advance 1, .raise 0,
    .advance 0, .advance 0, .advance 0]

/-- An emit that was taken is not heard of when the end of its session has returned. -/
theorem accepted_emit_unheard :
    ¬ ∀ (ms : List Move) (s : Shared), run {} ms = some s → ∀ place other slot callbacks,
        s.Taken place slot callbacks → s.Ended other slot →
        callbacks <:+: (s.gateway.line slot).raised := by
  intro h
  obtain ⟨s, hs, he⟩ := Option.map_eq_some_iff.1
    (rfl : (run {} emitIntoEnding).map (fun s => (s.callers, (s.gateway.line 0).raised)) =
      some ([.finish 0 .done, .emit [.frontConnected] (.done (some 0))], []))
  obtain ⟨hc, hraised⟩ := Prod.mk.inj he
  have htaken : s.Taken 1 0 [.frontConnected] := by
    rw [Taken, hc]
    rfl
  have hended : s.Ended 0 0 := by
    rw [Ended, hc]
    rfl
  have hheard := h emitIntoEnding s hs 1 0 0 [.frontConnected] htaken hended
  rw [hraised] at hheard
  cases List.eq_nil_of_infix_nil hheard

end Shared

end MarketFeed.Loopback
