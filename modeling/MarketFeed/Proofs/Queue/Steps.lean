import MarketFeed.Queue.Shared

namespace MarketFeed.Queue

variable {α : Type}

def Consumer.isNew : Consumer α → Bool
  | pop (.seeking false) | ask _ .seeking => true
  | _ => false

theorem Consumer.eq_of_isNew {c : Consumer α} (h : c.isNew = true) :
    c = pop (.seeking false) ∨ ∃ prompt, c = ask prompt .seeking := by
  cases c with
  | pop stage =>
    cases stage with
    | seeking told =>
      cases told with
      | false => exact .inl rfl
      | true => cases h
    | _ => cases h
  | ask prompt stage =>
    cases stage with
    | seeking => exact .inr ⟨prompt, rfl⟩
    | _ => cases h

/-- A consumer at the lock, and the same consumer with the lock. -/
inductive Consumer.Enters : Consumer α → Consumer α → Prop
  | pop (told : Bool) : Enters (pop (.seeking told)) (pop (.holding told))
  | ask (prompt : Prompt) : Enters (ask prompt .seeking) (ask prompt .holding)

namespace Shared

inductive Step (s : Shared α) : Shared α → Prop
  | lock (number : Nat) (p : Producer α) (hp : s.producers[number]? = some p)
      (hs : p.stage = .seeking) (free : s.isLocked = false) :
      Step s (s.setProducer number { p with stage := .holding })
  | push (number : Nat) (p : Producer α) (a : α) (rest : List α)
      (hp : s.producers[number]? = some p) (hs : p.stage = .holding) (hl : p.left = a :: rest) :
      Step s
        { s.setProducer number { pushed := p.pushed ++ [a], left := rest, stage := .owing } with
          queue := s.queue.push a, arrived := s.arrived ++ [(number, a)] }
  | tell (number : Nat) (p : Producer α) (place : Nat) (hp : s.producers[number]? = some p)
      (hs : p.stage = .owing) (hc : s.consumers[place]? = some (.pop .parked)) :
      Step s
        ((s.setProducer number { p with stage := .seeking }).setConsumer place
          (.pop (.seeking true)))
  | tellNobody (number : Nat) (p : Producer α) (hp : s.producers[number]? = some p)
      (hs : p.stage = .owing) (none : s.consumers.any Consumer.isParked = false) :
      Step s (s.setProducer number { p with stage := .seeking })
  | join (c : Consumer α) (hc : c.isNew = true) : Step s (s.join c)
  | enter (place : Nat) (c c' : Consumer α) (hc : s.consumers[place]? = some c)
      (he : c.Enters c') (free : s.isLocked = false) : Step s (s.setConsumer place c')
  | pop (place : Nat) (told : Bool) (a : α) (rest : Queue α)
      (hc : s.consumers[place]? = some (.pop (.holding told)))
      (hq : s.queue.items = a :: rest.items) :
      Step s ((s.setConsumer place (.pop (.done a))).remove place [a] rest)
  | findNothing (place : Nat) (told : Bool)
      (hc : s.consumers[place]? = some (.pop (.holding told))) (hq : s.queue.items = []) :
      Step s (s.setConsumer place (.pop .dry))
  | park (place : Nat) (hc : s.consumers[place]? = some (.pop .dry)) :
      Step s (s.setConsumer place (.pop .parked))
  | perform (place : Nat) (prompt : Prompt)
      (hc : s.consumers[place]? = some (.ask prompt .holding)) :
      Step s
        ((s.setConsumer place (.ask prompt (.done (prompt.perform s.queue).answer))).remove place
          (prompt.perform s.queue).removed (prompt.perform s.queue).queue)

theorem Step.of_push? {s t : Shared α} {number : Nat} (h : s.push? number = some t) :
    Step s t := by
  obtain ⟨⟨pushed, left, stage⟩, hp, h⟩ := Option.bind_eq_some_iff.1 h
  cases stage with
  | seeking =>
    cases left with
    | nil => cases h
    | cons a rest =>
      obtain ⟨free, he⟩ := Option.ite_none_left_eq_some.1 h
      cases he
      exact .lock number _ hp rfl (Bool.eq_false_iff.2 free)
  | holding =>
    cases left with
    | nil => cases h
    | cons a rest =>
      cases h
      exact .push number _ a rest hp rfl rfl
  | owing => cases left <;> cases h

theorem Step.of_tell? {s t : Shared α} {number : Nat} {place : Option Nat}
    (h : s.tell? number place = some t) : Step s t := by
  obtain ⟨p, hp, h⟩ := Option.bind_eq_some_iff.1 h
  obtain ⟨howes, h⟩ := Option.ite_none_right_eq_some.1 h
  have hs : p.stage = .owing := of_decide_eq_true howes
  cases place with
  | none =>
    obtain ⟨none, he⟩ := Option.ite_none_left_eq_some.1 h
    cases he
    exact .tellNobody number p hp hs (Bool.eq_false_iff.2 none)
  | some place =>
    simp only at h
    split at h
    · rename_i hc
      cases h
      exact .tell number p place hp hs hc
    · cases h

theorem Step.of_advance? {s t : Shared α} {place : Nat} (h : s.advance? place = some t) :
    Step s t := by
  obtain ⟨c, hc, h⟩ := Option.bind_eq_some_iff.1 h
  cases c with
  | pop stage =>
    cases stage with
    | seeking told =>
      obtain ⟨free, he⟩ := Option.ite_none_left_eq_some.1 h
      cases he
      exact .enter place _ _ hc (.pop told) (Bool.eq_false_iff.2 free)
    | holding told =>
      cases hq : s.queue.pop? with
      | none =>
        rw [hq] at h
        cases h
        exact .findNothing place told hc (pop?_eq_none_iff.1 hq)
      | some r =>
        rw [hq] at h
        cases h
        exact .pop place told r.1 r.2 hc (pop?_eq_some_iff.1 hq)
    | dry =>
      cases h
      exact .park place hc
    | parked => cases h
    | done a => cases h
  | ask prompt stage =>
    cases stage with
    | seeking =>
      obtain ⟨free, he⟩ := Option.ite_none_left_eq_some.1 h
      cases he
      exact .enter place _ _ hc (.ask prompt) (Bool.eq_false_iff.2 free)
    | holding =>
      cases h
      exact .perform place prompt hc
    | done answer => cases h

theorem Step.of_step? {s t : Shared α} {m : Move} (h : s.step? m = some t) : Step s t := by
  cases m with
  | push number => exact .of_push? h
  | tell number place => exact .of_tell? h
  | pop =>
    cases h
    exact .join _ rfl
  | ask prompt =>
    cases h
    exact .join _ rfl
  | advance place => exact .of_advance? h

theorem run_induction {P : Shared α → Prop} (step : ∀ s t, P s → Step s t → P t)
    {s t : Shared α} {ms : List Move} (hr : s.run ms = some t) (hs : P s) : P t := by
  induction ms generalizing s with
  | nil =>
    cases hr
    exact hs
  | cons m ms ih =>
    obtain ⟨u, hu, hr⟩ := Option.bind_eq_some_iff.1 hr
    exact ih hr (step s u hs (.of_step? hu))

end Shared

/-- A prompt leaves what it does not remove. -/
theorem Prompt.items_eq (q : Queue α) (prompt : Prompt) :
    q.items = (prompt.perform q).removed ++ (prompt.perform q).queue.items := by
  cases prompt with
  | take =>
    rw [perform]
    cases hq : q.pop? with
    | none => rfl
    | some r => exact pop?_eq_some_iff.1 hq
  | clear => exact (List.append_nil _).symm
  | size => rfl
  | isEmpty => rfl

end MarketFeed.Queue
