import MarketFeed.Proofs.Queue.Interleaving
import MarketFeed.Proofs.Queue.Wakeup

namespace MarketFeed.Queue

variable {α : Type}

/-- What a call has removed, as far as its answer tells. -/
def Consumer.Got (gone : List α) : Consumer α → Prop
  | pop (.done a) => gone = [a]
  | ask .take (.done answer) => ∃ a, answer = .item a ∧ gone = a.toList
  | ask .clear (.done answer) => answer = .count gone.length
  | _ => gone = []

theorem Consumer.got_of_isNew {c : Consumer α} (h : c.isNew = true) : c.Got [] := by
  rcases eq_of_isNew h with rfl | ⟨prompt, rfl⟩
  · rfl
  · cases prompt <;> rfl

theorem Consumer.eq_nil_of_holding {gone : List α} {prompt : Prompt}
    (h : (ask prompt .holding : Consumer α).Got gone) : gone = [] := by
  cases prompt <;> exact h

theorem Consumer.Enters.got {gone : List α} {c c' : Consumer α} (he : c.Enters c')
    (h : c.Got gone) : c'.Got gone := by
  cases he with
  | pop told => exact h
  | ask prompt => cases prompt <;> exact h

theorem Prompt.got_perform (q : Queue α) (prompt : Prompt) :
    (Consumer.ask prompt (.done (prompt.perform q).answer)).Got (prompt.perform q).removed := by
  cases prompt with
  | take =>
    rw [perform]
    cases q.pop? with
    | none => exact ⟨none, rfl, rfl⟩
    | some r => exact ⟨some r.1, rfl, rfl⟩
  | clear => rfl
  | size => rfl
  | isEmpty => rfl

def Producer.program (p : Producer α) : List α := p.pushed ++ p.left

namespace Shared

/-- What is known of the items of a shared queue. -/
structure Kept (lists : List (List α)) (s : Shared α) : Prop where
  programs : s.producers.map Producer.program = lists
  order : s.removed.map (·.2) ++ s.queue.items = s.arrived.map (·.2)
  sources : ∀ x ∈ s.arrived, x.1 < s.producers.length
  pushed (n : Nat) (p : Producer α) (hp : s.producers[n]? = some p) : share n s.arrived = p.pushed
  removers : ∀ x ∈ s.removed, x.1 < s.consumers.length
  got (place : Nat) (c : Consumer α) (hc : s.consumers[place]? = some c) :
    c.Got (share place s.removed)

variable {lists : List (List α)} {s t : Shared α}

theorem kept_start (lists : List (List α)) : (start lists).Kept lists where
  programs := (List.map_map ..).trans (List.map_id lists)
  order := rfl
  sources := nofun
  pushed n p hp := by
    obtain ⟨as, -, rfl⟩ := List.mem_map.1 (List.mem_of_getElem? hp)
    rfl
  removers := nofun
  got := nofun

theorem remove_nothing (s : Shared α) (place : Nat) : s.remove place [] s.queue = s := by
  rw [remove, List.map_nil, List.append_nil]

theorem Kept.producer (h : s.Kept lists) {number : Nat} {p : Producer α}
    (hp : s.producers[number]? = some p) (stage : Pushing) :
    (s.setProducer number { p with stage := stage }).Kept lists where
  programs := by
    have hprogram : Producer.program { p with stage := stage } = p.program := rfl
    exact (map_set_of_eq hp hprogram).trans h.programs
  order := h.order
  sources := by
    change ∀ x ∈ s.arrived, x.1 < (s.producers.set _ _).length
    rw [List.length_set]
    exact h.sources
  pushed n q hq := by
    change (s.producers.set _ _)[n]? = some q at hq
    rcases getElem?_set_cases hq with ⟨rfl, rfl⟩ | ⟨-, hq⟩
    · exact h.pushed number p hp
    · exact h.pushed n q hq
  removers := h.removers
  got := h.got

theorem Kept.push (h : s.Kept lists) {number : Nat} {p : Producer α} {a : α} {rest : List α}
    (hp : s.producers[number]? = some p) (hl : p.left = a :: rest) :
    Kept lists
      { s.setProducer number { pushed := p.pushed ++ [a], left := rest, stage := .owing } with
        queue := s.queue.push a, arrived := s.arrived ++ [(number, a)] } where
  programs := by
    have hprogram : Producer.program ⟨p.pushed ++ [a], rest, .owing⟩ = p.program := by
      rw [Producer.program, Producer.program, hl, List.append_assoc]
      rfl
    exact (map_set_of_eq hp hprogram).trans h.programs
  order := by
    change s.removed.map (·.2) ++ (s.queue.items ++ [a]) = (s.arrived ++ [(number, a)]).map (·.2)
    rw [← List.append_assoc, h.order, List.map_append]
    rfl
  sources := by
    change ∀ x ∈ s.arrived ++ [(number, a)], x.1 < (s.producers.set _ _).length
    rw [List.length_set]
    intro x hx
    rcases List.mem_append.1 hx with hx | hx
    · exact h.sources x hx
    · rw [List.mem_singleton.1 hx]
      exact (List.getElem?_eq_some_iff.1 hp).1
  pushed n q hq := by
    change (s.producers.set _ _)[n]? = some q at hq
    change share n (s.arrived ++ [a].map (number, ·)) = q.pushed
    rw [share_append]
    rcases getElem?_set_cases hq with ⟨rfl, rfl⟩ | ⟨hn, hq⟩
    · rw [h.pushed number p hp, share_marked]
    · rw [h.pushed n q hq, share_marked_of_ne hn, List.append_nil]
  removers := h.removers
  got := h.got

theorem Kept.remove (h : s.Kept lists) {place : Nat} {c c' : Consumer α} {as : List α}
    {rest : Queue α} (hc : s.consumers[place]? = some c) (hq : s.queue.items = as ++ rest.items)
    (hgot : ∀ gone, c.Got gone → c'.Got (gone ++ as)) :
    ((s.setConsumer place c').remove place as rest).Kept lists where
  programs := h.programs
  order := by
    change (s.removed ++ as.map (place, ·)).map (·.2) ++ rest.items = s.arrived.map (·.2)
    rw [← h.order, hq, List.map_append, List.map_map, List.append_assoc]
    exact congrArg (fun l => _ ++ (l ++ _)) (List.map_id as)
  sources := h.sources
  pushed := h.pushed
  removers := by
    change ∀ x ∈ s.removed ++ as.map (place, ·), x.1 < (s.consumers.set _ _).length
    rw [List.length_set]
    intro x hx
    rcases List.mem_append.1 hx with hx | hx
    · exact h.removers x hx
    · obtain ⟨a, -, rfl⟩ := List.mem_map.1 hx
      exact (List.getElem?_eq_some_iff.1 hc).1
  got n d hd := by
    change (s.consumers.set _ _)[n]? = some d at hd
    change d.Got (share n (s.removed ++ as.map (place, ·)))
    rw [share_append]
    rcases getElem?_set_cases hd with ⟨rfl, rfl⟩ | ⟨hn, hd⟩
    · rw [share_marked]
      exact hgot _ (h.got place c hc)
    · rw [share_marked_of_ne hn, List.append_nil]
      exact h.got n d hd

theorem Kept.consumer (h : s.Kept lists) {place : Nat} {c c' : Consumer α}
    (hc : s.consumers[place]? = some c) (hgot : ∀ gone, c.Got gone → c'.Got gone) :
    (s.setConsumer place c').Kept lists := by
  rw [← remove_nothing (s.setConsumer place c') place]
  apply h.remove hc rfl
  intro gone hg
  rw [List.append_nil]
  exact hgot gone hg

theorem Kept.join (h : s.Kept lists) {c : Consumer α} (hc : c.isNew = true) :
    (s.join c).Kept lists where
  programs := h.programs
  order := h.order
  sources := h.sources
  pushed := h.pushed
  removers x hx := by
    change x.1 < (s.consumers ++ [c]).length
    rw [List.length_append]
    exact Nat.lt_add_right 1 (h.removers x hx)
  got n d hd := by
    change (s.consumers ++ [c])[n]? = some d at hd
    rcases getElem?_concat_cases hd with hd | ⟨rfl, rfl⟩
    · exact h.got n d hd
    · change d.Got (share _ s.removed)
      rw [share_eq_nil fun x hx => Nat.ne_of_lt (h.removers x hx)]
      exact Consumer.got_of_isNew hc

theorem Kept.step (h : s.Kept lists) (hs : Step s t) : t.Kept lists := by
  cases hs with
  | lock number p hp => exact h.producer hp .holding
  | push number p a rest hp hs hl => exact h.push hp hl
  | tell number p place hp hs hc => exact (h.producer hp .seeking).consumer hc fun _ hg => hg
  | tellNobody number p hp => exact h.producer hp .seeking
  | join c hc => exact h.join hc
  | enter place c c' hc he => exact h.consumer hc fun _ hg => he.got hg
  | pop place told a rest hc hq => exact h.remove hc hq fun _ hg => congrArg (· ++ [a]) hg
  | findNothing place told hc => exact h.consumer hc fun _ hg => hg
  | park place hc => exact h.consumer hc fun _ hg => hg
  | perform place prompt hc =>
    apply h.remove hc (prompt.items_eq s.queue)
    intro gone hg
    rw [Consumer.eq_nil_of_holding hg]
    exact prompt.got_perform s.queue

theorem kept_of_run {ms : List Move} (hr : (start lists).run ms = some s) : s.Kept lists :=
  run_induction (fun _ _ h hs => h.step hs) hr (kept_start lists)

theorem Kept.interleaved (h : s.Kept lists) :
    Interleaves (s.producers.map Producer.pushed) (s.removed.map (·.2) ++ s.queue.items) := by
  refine ⟨s.arrived, h.order.symm, ?_, ?_⟩
  · rw [List.length_map]
    exact h.sources
  · intro n as hn
    rw [List.getElem?_map, Option.map_eq_some_iff] at hn
    obtain ⟨p, hp, rfl⟩ := hn
    exact h.pushed n p hp

theorem Kept.pushed_eq (h : s.Kept lists) (hd : ∀ p ∈ s.producers, p.left = []) :
    s.producers.map Producer.pushed = lists := by
  rw [← h.programs]
  apply List.map_congr_left
  intro p hp
  rw [Producer.program, hd p hp, List.append_nil]

/-- How a queue passes on what its producers push. Each producer pushes its list from the front;
what was removed, and then what is left, is what came in, and the items of each producer are removed
in its order, each by one call. When everything was pushed, a stable sort of all that was removed,
and of what popping the rest gives, brings back the lists. Nobody is parked beside an item unless a
producer is still to tell somebody, or somebody was told and has not looked yet. -/
structure Delivers (lists : List (List α)) (s : Shared α) : Prop where
  programs : s.producers.map Producer.program = lists
  order : s.removed.map (·.2) ++ s.queue.items = s.arrived.map (·.2)
  interleaved : Interleaves (s.producers.map Producer.pushed) (s.removed.map (·.2) ++ s.queue.items)
  complete : (s.removed.map (·.2) ++ s.queue.items).Perm (s.producers.map Producer.pushed).flatten
  removed : ∃ parts, List.Forall₂ (· <+: ·) parts lists ∧ Interleaves parts (s.removed.map (·.2))
  removers : ∀ x ∈ s.removed, x.1 < s.consumers.length
  got (place : Nat) (c : Consumer α) (hc : s.consumers[place]? = some c) :
    c.Got (share place s.removed)
  sorted (owner : α → Nat) (ho : Owned owner lists) (hd : ∀ p ∈ s.producers, p.left = []) :
    (s.removed.map (·.2) ++ s.queue.popAll.1).mergeSort (inOrder owner) = lists.flatten
  attended (c : Consumer α) (hc : c ∈ s.consumers) (hp : c.isParked = true)
    (hq : s.queue.items ≠ []) :
    (∃ p ∈ s.producers, p.owes = true) ∨ ∃ c ∈ s.consumers, c.isOnItsWay = true

/-- Whatever is done at once to a queue, it passes on each item once and in order, and lets nobody
wait beside an item. -/
theorem delivers_once_in_order {ms : List Move} (hr : (start lists).run ms = some s) :
    s.Delivers lists := by
  have hk := kept_of_run hr
  have hi := hk.interleaved
  constructor
  case programs => exact hk.programs
  case order => exact hk.order
  case interleaved => exact hi
  case complete => exact hi.perm
  case removed =>
    obtain ⟨parts, hparts, hi⟩ := hi.of_append
    refine ⟨parts, ?_, hi⟩
    rw [← hk.programs, List.forall₂_map_right_iff]
    exact (List.forall₂_map_right_iff.1 hparts).imp fun _ p hp =>
      hp.trans (List.prefix_append p.pushed p.left)
  case removers => exact hk.removers
  case got => exact hk.got
  case sorted =>
    intro owner ho hd
    rw [hk.pushed_eq hd] at hi
    exact hi.mergeSort_eq ho
  case attended => exact fun _ => (watched_of_run hr).attended

def beforeTelling : List Move :=
  [.pop, .advance 0, .advance 0, .advance 0, .push 0, .push 0]

/-- A parked consumer is told of an item, but somebody else takes it, and the consumer has to do
with one that another producer has put in meanwhile. What comes last is cleared. -/
def robbery : List Move :=
  beforeTelling ++
    [.tell 0 (some 0), .push 1, .push 1, .ask .take, .advance 1, .advance 1, .tell 1 none,
      .advance 0, .advance 0, .push 0, .push 0, .tell 0 none, .ask .clear, .advance 2, .advance 2]

theorem delivers_once_in_order_of_robbery :
    ∃ s t : Shared Nat,
      (start [[1, 2], [11]]).run beforeTelling = some s ∧
      s.queue.items = [1] ∧ Consumer.pop .parked ∈ s.consumers ∧
      ((∃ p ∈ s.producers, p.owes = true) ∨ ∃ c ∈ s.consumers, c.isOnItsWay = true) ∧
      (start [[1, 2], [11]]).run robbery = some t ∧
      t.removed = [(1, 1), (0, 11), (2, 2)] ∧
      (t.removed.map (·.2) ++ t.queue.popAll.1).mergeSort (inOrder (· / 10)) = [1, 2, 11] ∧
      t.Delivers [[1, 2], [11]] := by
  obtain ⟨s, hs, he⟩ := Option.map_eq_some_iff.1
    (rfl : ((start [[1, 2], [11]]).run beforeTelling).map (fun s => (s.queue.items, s.consumers)) =
      some ([1], [.pop .parked]))
  obtain ⟨hq, hc⟩ := Prod.mk.inj he
  obtain ⟨t, ht, he⟩ := Option.map_eq_some_iff.1
    (rfl : ((start [[1, 2], [11]]).run robbery).map
        (fun t => (t.removed, t.producers.map Producer.left)) =
      some ([(1, 1), (0, 11), (2, 2)], [[], []]))
  obtain ⟨hr, hl⟩ := Prod.mk.inj he
  have hparked : Consumer.pop .parked ∈ s.consumers := by
    rw [hc]
    exact List.mem_singleton_self _
  have howned : Owned (· / 10) [[1, 2], [11]] := by
    intro n as hn
    match n with
    | 0 =>
      cases hn
      decide
    | 1 =>
      cases hn
      decide
    | n + 2 => cases hn
  have hd : ∀ p ∈ t.producers, p.left = [] := by
    intro p hp
    have hm : p.left ∈ t.producers.map Producer.left := List.mem_map_of_mem hp
    rw [hl] at hm
    rcases List.mem_cons.1 hm with he | hm
    · exact he
    · exact List.mem_singleton.1 hm
  have hdel := delivers_once_in_order ht
  exact ⟨s, t, hs, hq, hparked,
    (delivers_once_in_order hs).attended _ hparked rfl (by rw [hq]; nofun), ht, hr,
    hdel.sorted _ howned hd, hdel⟩

end Shared

end MarketFeed.Queue
