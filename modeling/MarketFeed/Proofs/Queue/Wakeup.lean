import MarketFeed.Proofs.Places
import MarketFeed.Proofs.Queue.Steps

namespace MarketFeed.Queue

variable {α : Type}

def Consumer.isDry : Consumer α → Bool
  | pop .dry => true
  | _ => false

theorem Consumer.holdsLock_of_isDry {c : Consumer α} (h : c.isDry = true) : c.holdsLock = true := by
  cases c with
  | pop stage =>
    cases stage with
    | dry => rfl
    | _ => cases h
  | ask prompt stage => cases h

theorem size_of_items_eq_nil {q : Queue α} (h : q.items = []) : q.size = 0 := congrArg List.length h

theorem size_of_items_eq_cons {q rest : Queue α} {a : α} (h : q.items = a :: rest.items) :
    q.size = rest.size + 1 := congrArg List.length h

theorem Prompt.size_le (q : Queue α) (prompt : Prompt) : (prompt.perform q).queue.size ≤ q.size := by
  have h := congrArg List.length (prompt.items_eq q)
  rw [List.length_append] at h
  exact Nat.le.intro ((Nat.add_comm _ _).trans h.symm)

theorem size_push (q : Queue α) (a : α) : (q.push a).size = q.size + 1 :=
  List.length_append

namespace Shared

/-- One thread at a time has the lock; whoever is dry has the lock and so knows that the queue is
empty; and for each item that a parked consumer could have, somebody is on the way. -/
structure Watched (s : Shared α) : Prop where
  lock : s.producers.countP Producer.holdsLock + s.consumers.countP Consumer.holdsLock ≤ 1
  dry : 0 < s.consumers.countP Consumer.isDry → s.queue.size = 0
  parked : 0 < s.consumers.countP Consumer.isParked →
    s.queue.size ≤ s.producers.countP Producer.owes + s.consumers.countP Consumer.isOnItsWay

variable {s t : Shared α}

theorem watched_start (lists : List (List α)) : (start lists).Watched where
  lock := by
    have hp : (start lists).producers.countP Producer.holdsLock = 0 := by
      apply List.countP_eq_zero.2
      intro p hp
      obtain ⟨as, -, rfl⟩ := List.mem_map.1 hp
      nofun
    exact hp ▸ Nat.zero_le 1
  dry h := absurd h (Nat.lt_irrefl 0)
  parked h := absurd h (Nat.lt_irrefl 0)

theorem holders_of_free (free : s.isLocked = false) :
    s.producers.countP Producer.holdsLock = 0 ∧ s.consumers.countP Consumer.holdsLock = 0 := by
  obtain ⟨hp, hc⟩ := Bool.or_eq_false_iff.1 free
  exact ⟨List.countP_eq_zero.2 (List.any_eq_false.1 hp),
    List.countP_eq_zero.2 (List.any_eq_false.1 hc)⟩

theorem count_isDry_le (s : Shared α) :
    s.consumers.countP Consumer.isDry ≤ s.consumers.countP Consumer.holdsLock :=
  List.countP_mono_left fun _ _ => Consumer.holdsLock_of_isDry

theorem counts_setProducer {number : Nat} {p : Producer α} (hp : s.producers[number]? = some p)
    (p' : Producer α) :
    (s.producers.set number p').countP Producer.holdsLock + p.holdsLock.toNat =
        s.producers.countP Producer.holdsLock + p'.holdsLock.toNat ∧
      (s.producers.set number p').countP Producer.owes + p.owes.toNat =
        s.producers.countP Producer.owes + p'.owes.toNat :=
  ⟨countP_set_add hp _ p', countP_set_add hp _ p'⟩

theorem counts_setConsumer {place : Nat} {c : Consumer α} (hc : s.consumers[place]? = some c)
    (c' : Consumer α) :
    (s.consumers.set place c').countP Consumer.holdsLock + c.holdsLock.toNat =
        s.consumers.countP Consumer.holdsLock + c'.holdsLock.toNat ∧
      (s.consumers.set place c').countP Consumer.isDry + c.isDry.toNat =
        s.consumers.countP Consumer.isDry + c'.isDry.toNat ∧
      (s.consumers.set place c').countP Consumer.isParked + c.isParked.toNat =
        s.consumers.countP Consumer.isParked + c'.isParked.toNat ∧
      (s.consumers.set place c').countP Consumer.isOnItsWay + c.isOnItsWay.toNat =
        s.consumers.countP Consumer.isOnItsWay + c'.isOnItsWay.toNat :=
  ⟨countP_set_add hc _ c', countP_set_add hc _ c', countP_set_add hc _ c', countP_set_add hc _ c'⟩

theorem counts_join (s : Shared α) {c : Consumer α} (hc : c.isNew = true) :
    (s.consumers ++ [c]).countP Consumer.holdsLock = s.consumers.countP Consumer.holdsLock ∧
      (s.consumers ++ [c]).countP Consumer.isDry = s.consumers.countP Consumer.isDry ∧
      (s.consumers ++ [c]).countP Consumer.isParked = s.consumers.countP Consumer.isParked ∧
      (s.consumers ++ [c]).countP Consumer.isOnItsWay =
        s.consumers.countP Consumer.isOnItsWay := by
  simp only [List.countP_append]
  rcases Consumer.eq_of_isNew hc with rfl | ⟨prompt, rfl⟩ <;> exact ⟨rfl, rfl, rfl, rfl⟩

theorem Watched.step (h : s.Watched) (hs : Step s t) : t.Watched := by
  obtain ⟨hlock, hdry, hparked⟩ := h
  cases hs with
  | lock number p hp hs free =>
    obtain ⟨hp₀, hc₀⟩ := holders_of_free free
    obtain ⟨hl, ho⟩ := counts_setProducer hp { p with stage := .holding }
    simp only [Producer.holdsLock, Producer.owes, hs, reduceCtorEq, decide_true, decide_false,
      Bool.toNat_true, Bool.toNat_false] at hl ho
    constructor <;> dsimp only [setProducer] <;> omega
  | push number p a rest hp hs hleft =>
    -- the lock is the producer's, so nobody is dry
    have hle := s.count_isDry_le
    obtain ⟨hl, ho⟩ :=
      counts_setProducer hp { pushed := p.pushed ++ [a], left := rest, stage := .owing }
    have hsize := s.queue.size_push a
    simp only [Producer.holdsLock, Producer.owes, hs, reduceCtorEq, decide_true, decide_false,
      Bool.toNat_true, Bool.toNat_false] at hl ho
    constructor <;> dsimp only [setProducer] <;> omega
  | tell number p place hp hs hc =>
    obtain ⟨hlp, ho⟩ := counts_setProducer hp { p with stage := .seeking }
    obtain ⟨hl, hd, hk, hw⟩ := counts_setConsumer hc (.pop (.seeking true))
    simp only [Producer.holdsLock, Producer.owes, hs, reduceCtorEq, decide_true, decide_false,
      Bool.toNat_true, Bool.toNat_false] at hlp ho
    simp only [Consumer.holdsLock, Consumer.isDry, Consumer.isParked, Consumer.isOnItsWay,
      Bool.toNat_true, Bool.toNat_false] at hl hd hk hw
    constructor <;> dsimp only [setProducer, setConsumer] <;> omega
  | tellNobody number p hp hs none =>
    have hk : s.consumers.countP Consumer.isParked = 0 :=
      List.countP_eq_zero.2 (List.any_eq_false.1 none)
    obtain ⟨hl, ho⟩ := counts_setProducer hp { p with stage := .seeking }
    simp only [Producer.holdsLock, Producer.owes, hs, reduceCtorEq, decide_true, decide_false,
      Bool.toNat_true, Bool.toNat_false] at hl ho
    constructor <;> dsimp only [setProducer] <;> omega
  | join c hc =>
    obtain ⟨hl, hd, hk, hw⟩ := counts_join s hc
    constructor <;> dsimp only [join] <;> omega
  | enter place c c' hc he free =>
    obtain ⟨hp₀, hc₀⟩ := holders_of_free free
    obtain ⟨hl, hd, hk, hw⟩ := counts_setConsumer hc c'
    cases he with
    | pop told =>
      simp only [Consumer.holdsLock, Consumer.isDry, Consumer.isParked, Consumer.isOnItsWay,
        Bool.toNat_true, Bool.toNat_false] at hl hd hk hw
      constructor <;> dsimp only [setConsumer] <;> omega
    | ask prompt =>
      simp only [Consumer.holdsLock, Consumer.isDry, Consumer.isParked, Consumer.isOnItsWay,
        Bool.toNat_true, Bool.toNat_false] at hl hd hk hw
      constructor <;> dsimp only [setConsumer] <;> omega
  | pop place told a rest hc hq =>
    have hsize := size_of_items_eq_cons hq
    have htold := told.toNat_le
    obtain ⟨hl, hd, hk, hw⟩ := counts_setConsumer hc (.pop (.done a))
    simp only [Consumer.holdsLock, Consumer.isDry, Consumer.isParked, Consumer.isOnItsWay,
      Bool.toNat_true, Bool.toNat_false] at hl hd hk hw
    constructor <;> dsimp only [setConsumer, remove] <;> omega
  | findNothing place told hc hq =>
    have hsize := size_of_items_eq_nil hq
    obtain ⟨hl, hd, hk, hw⟩ := counts_setConsumer hc (.pop .dry)
    simp only [Consumer.holdsLock, Consumer.isDry, Consumer.isParked, Consumer.isOnItsWay,
      Bool.toNat_true, Bool.toNat_false] at hl hd hk hw
    constructor <;> dsimp only [setConsumer] <;> omega
  | park place hc =>
    obtain ⟨hl, hd, hk, hw⟩ := counts_setConsumer hc (.pop .parked)
    simp only [Consumer.holdsLock, Consumer.isDry, Consumer.isParked, Consumer.isOnItsWay,
      Bool.toNat_true, Bool.toNat_false] at hl hd hk hw
    constructor <;> dsimp only [setConsumer] <;> omega
  | perform place prompt hc =>
    have hsize := prompt.size_le s.queue
    obtain ⟨hl, hd, hk, hw⟩ :=
      counts_setConsumer hc (.ask prompt (.done (prompt.perform s.queue).answer))
    simp only [Consumer.holdsLock, Consumer.isDry, Consumer.isParked, Consumer.isOnItsWay,
      Bool.toNat_true, Bool.toNat_false] at hl hd hk hw
    constructor <;> dsimp only [setConsumer, remove] <;> omega

theorem watched_of_run {lists : List (List α)} {ms : List Move}
    (hr : (start lists).run ms = some s) : s.Watched :=
  run_induction (fun _ _ h hs => h.step hs) hr (watched_start lists)

/-- Somebody will come for what is in the queue while a consumer is parked. -/
theorem Watched.attended (h : s.Watched) {c : Consumer α} (hc : c ∈ s.consumers)
    (hp : c.isParked = true) (hq : s.queue.items ≠ []) :
    (∃ p ∈ s.producers, p.owes = true) ∨ ∃ c ∈ s.consumers, c.isOnItsWay = true := by
  have hk : 0 < s.consumers.countP Consumer.isParked := List.countP_pos_iff.2 ⟨c, hc, hp⟩
  have hsize : 0 < s.queue.size := List.length_pos_iff.2 hq
  have hsum := Nat.lt_of_lt_of_le hsize (h.parked hk)
  rcases Nat.add_pos_iff_pos_or_pos.1 hsum with ho | hw
  · exact .inl (List.countP_pos_iff.1 ho)
  · exact .inr (List.countP_pos_iff.1 hw)

end Shared

end MarketFeed.Queue
