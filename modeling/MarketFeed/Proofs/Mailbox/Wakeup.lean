import MarketFeed.Callback
import MarketFeed.Proofs.Mailbox.Steps

namespace MarketFeed.Mailbox.Shared

variable {β : Type} {B : Bell β} {s t : Shared β}

/-- Somebody will look at what is in the mailbox. -/
def Attended (B : Bell β) (s : Shared β) : Prop :=
  s.consumer ≠ .draining → s.queue.items ≠ [] →
    B.isRung s.bell = true ∨ ∃ c ∈ s.callers, c.owesRing = true

theorem attended_fresh (B : Bell β) (b : β) : Attended B { bell := b } :=
  fun _ hq => absurd rfl hq

/-- A step that puts nothing in keeps a mailbox attended if it takes back no ring, stored or owed.
-/
theorem Attended.mono (h : s.Attended B)
    (hd : t.consumer ≠ .draining → s.consumer ≠ .draining)
    (hq : t.queue.items ≠ [] → s.queue.items ≠ [])
    (hb : B.isRung s.bell = true → B.isRung t.bell = true)
    (ho : ∀ c ∈ s.callers, c.owesRing = true → ∃ c' ∈ t.callers, c'.owesRing = true) :
    t.Attended B := by
  intro htd htq
  rcases h (hd htd) (hq htq) with hrung | ⟨c, hc, howes⟩
  · exact .inl (hb hrung)
  · exact .inr (ho c hc howes)

theorem attended_of_rung (h : B.isRung s.bell = true) : s.Attended B := fun _ _ => .inl h

theorem attended_of_empty (h : s.queue.items = []) : s.Attended B := fun _ hq => absurd h hq

theorem attended_of_draining (h : s.consumer = .draining) : s.Attended B := fun hd => absurd h hd

theorem owes_set {cs : List Caller} {place : Nat} {c c' : Caller} (hc : cs[place]? = some c)
    (hcc : c.owesRing = true → c'.owesRing = true) :
    ∀ x ∈ cs, x.owesRing = true → ∃ y ∈ cs.set place c', y.owesRing = true := by
  intro x hx ho
  obtain ⟨i, hi⟩ := List.mem_iff_getElem?.1 hx
  by_cases he : place = i
  · obtain rfl : c = x := Option.some.inj (hc.symm.trans (he ▸ hi))
    exact ⟨c', List.mem_set (List.getElem?_eq_some_iff.1 hc).1 c', hcc ho⟩
  · refine ⟨x, List.mem_iff_getElem?.2 ⟨i, ?_⟩, ho⟩
    rw [List.getElem?_set_ne he, hi]

theorem Attended.advance (hB : B.Lossless) (h : s.Attended B) {place : Nat} {c c' : Caller}
    (hc : s.callers[place]? = some c) (ha : Advance B s c c' t) :
    Attended B { t with callers := s.callers.set place c' } := by
  cases ha with
  | push n =>
    have hlt := (List.getElem?_eq_some_iff.1 hc).1
    exact fun _ _ => .inr ⟨.publish n .pushed, List.mem_set hlt _, rfl⟩
  | count n => exact h.mono id id id (owes_set hc fun _ => rfl)
  | ring n => exact attended_of_rung (hB.ring s.bell)
  | ringShut k => exact attended_of_rung (hB.ring s.bell)
  | clear => exact attended_of_empty rfl
  | take count n t ht =>
    obtain ⟨hq, he⟩ := take?_eq_some ht
    rw [he]
    exact h.mono id (fun _ => hq ▸ List.cons_ne_nil n _) id (owes_set hc nofun)
  | _ => exact h.mono id id id (owes_set hc nofun)

theorem Attended.step (hB : B.Lossless) (h : s.Attended B) (hs : Step B s t) : t.Attended B := by
  cases hs with
  | join c hc =>
    exact h.mono id id id fun x hx ho => ⟨x, List.mem_append_left _ hx, ho⟩
  | advance place c c' t hc ha => exact h.advance hB hc ha
  | wake hd hb => exact attended_of_draining rfl
  | wait hd hb =>
    -- no ring was stored, so somebody still owes one
    intro _ hq
    rcases h hd hq with hrung | howes
    · rw [hrung] at hb
      cases hb
    · exact .inr howes
  | leave hw =>
    refine h.mono (fun _ => ?_) id (hB.leave s.bell) fun x hx ho => ⟨x, hx, ho⟩
    rw [hw]
    nofun
  | take hd n t ht =>
    rw [(take?_eq_some ht).2]
    exact attended_of_draining hd
  | finish hd hq => exact attended_of_empty hq

theorem Attended.run (hB : B.Lossless) (h : s.Attended B) {ms : List Move}
    (hr : s.run B ms = some t) : t.Attended B :=
  run_induction (fun _ _ hs ht => hs.step hB ht) hr h

/-- A consumer that waits for a ring that nobody owes has missed nothing. -/
theorem Attended.empty_of_parked (h : s.Attended B) (hw : s.consumer = .waiting)
    (hb : B.isRung s.bell = false) (ho : ∀ c ∈ s.callers, c.owesRing = false) :
    s.queue.items = [] := by
  apply Classical.byContradiction
  intro hq
  rcases h (by rw [hw]; nofun) hq with hrung | ⟨c, hc, howes⟩
  · rw [hrung] at hb
    cases hb
  · rw [ho c hc] at howes
    cases howes

def emptied (s : Shared β) : Shared β :=
  { s with queue := .empty, handed := s.handed ++ s.queue.items, consumer := .away }

theorem exists_takes (B : Bell β) (hd : s.consumer = .draining) :
    ∃ ms : List Move, s.run B ms = some s.emptied := by
  induction hq : s.queue.items generalizing s with
  | nil =>
    have ht : s.step? B .take = some { s with consumer := .away } := by
      rw [step?, if_pos hd, take?_eq_none_iff.2 hq]
    have he : s.queue = .empty := congrArg Queue.mk hq
    refine ⟨[.take], ?_⟩
    rw [run_cons, ht, emptied, hq, ← he, List.append_nil]
    rfl
  | cons n rest ih =>
    let t : Shared β := { s with queue := ⟨rest⟩, handed := s.handed ++ [n] }
    have hpop : s.queue.pop? = some (n, ⟨rest⟩) := Queue.pop?_eq_some_iff.2 hq
    have ht : s.step? B .take = some t := by
      rw [step?, if_pos hd, take?, hpop]
      rfl
    obtain ⟨ms, hr⟩ := ih (s := t) hd rfl
    refine ⟨.take :: ms, ?_⟩
    rw [run_cons, ht, Option.bind_some, hr, emptied, emptied, hq, List.append_assoc]
    rfl

theorem emptied_of_rung (hd : s.consumer ≠ .draining) (hb : B.isRung s.bell = true) :
    ∃ ms : List Move, s.run B (.poll :: ms) = some (s.poll B).emptied := by
  have hpoll : (s.poll B).consumer = .draining := if_pos hb
  obtain ⟨ms, hr⟩ := exists_takes B hpoll
  refine ⟨ms, ?_⟩
  rw [run_cons, step?, if_neg hd]
  exact hr

/-- At every point of every interleaving a mailbox with something in it is attended to. In
particular there is nothing in it while the consumer waits for a ring that nobody owes. And a ring
is enough: a consumer that polls can then hand over all there is. -/
theorem no_lost_wakeup (hB : B.Lossless) {b : β} {ms : List Move}
    (hr : Shared.run B { bell := b } ms = some s) :
    (s.consumer ≠ .draining → s.queue.items ≠ [] →
      B.isRung s.bell = true ∨ ∃ c ∈ s.callers, c.owesRing = true) ∧
    (s.consumer = .waiting → B.isRung s.bell = false → (∀ c ∈ s.callers, c.owesRing = false) →
      s.queue.items = []) ∧
    (s.consumer ≠ .draining → B.isRung s.bell = true →
      ∃ (later : List Move) (t : Shared β), s.run B (.poll :: later) = some t ∧
        t.consumer = .away ∧ t.queue.items = [] ∧ t.handed = s.handed ++ s.queue.items) := by
  have h : s.Attended B := (attended_fresh B b).run hB hr
  refine ⟨h, h.empty_of_parked, fun hd hb => ?_⟩
  obtain ⟨later, hlater⟩ := emptied_of_rung hd hb
  exact ⟨later, _, hlater, rfl, rfl, rfl⟩

inductive Waiter where
  | nobody
  | waiting
  | granted
  deriving DecidableEq

/-- A bell that stores one ring for when nobody waits. -/
structure Chime where
  stored : Bool := false
  waiter : Waiter := .nobody

def chime : Bell Chime where
  ring b := if b.waiter = .waiting then { b with waiter := .granted } else { b with stored := true }
  poll b :=
    if b.waiter = .granted then (true, { b with waiter := .nobody })
    else if b.stored then (true, {})
    else (false, { b with waiter := .waiting })
  leave b :=
    if b.waiter = .granted then ⟨true, .nobody⟩ else { b with waiter := .nobody }

theorem lossless_chime : chime.Lossless where
  ring b := by
    obtain ⟨stored, waiter⟩ := b
    cases waiter <;> rfl
  leave b h := by
    obtain ⟨stored, waiter⟩ := b
    cases waiter with
    | granted => rfl
    | _ => cases stored <;> first | rfl | cases h

def left : List Move :=
  [.poll, .publish (.ofCallback .frontConnected), .advance 0, .advance 0, .advance 0, .advance 0,
    .advance 0, .leave]

def back : List Move := left ++ [.poll, .take, .take, .poll]

theorem no_lost_wakeup_of_leave :
    ∃ s t : Shared Chime,
      Shared.run chime { bell := {} } left = some s ∧
      s.consumer = .away ∧ s.queue.items = [.ofCallback .frontConnected] ∧
      (chime.isRung s.bell = true ∨ ∃ c ∈ s.callers, c.owesRing = true) ∧
      Shared.run chime { bell := {} } back = some t ∧
      t.consumer = .waiting ∧ chime.isRung t.bell = false ∧ t.queue.items = [] := by
  obtain ⟨s, hs, he⟩ := Option.map_eq_some_iff.1
    (rfl : (Shared.run chime { bell := {} } left).map (fun s => (s.consumer, s.queue.items)) =
      some (.away, [.ofCallback .frontConnected]))
  obtain ⟨ha, hq⟩ := Prod.mk.inj he
  obtain ⟨t, ht, he⟩ := Option.map_eq_some_iff.1
    (rfl : (Shared.run chime { bell := {} } back).map
        (fun t => (t.consumer, chime.isRung t.bell, t.callers.any Caller.owesRing)) =
      some (.waiting, false, false))
  obtain ⟨hw, he⟩ := Prod.mk.inj he
  obtain ⟨hb, ho⟩ := Prod.mk.inj he
  have hleft := (no_lost_wakeup lossless_chime hs).1 (by rw [ha]; nofun) (by rw [hq]; nofun)
  have hback := (no_lost_wakeup lossless_chime ht).2.1 hw hb fun c hc =>
    Bool.eq_false_iff.2 (List.any_eq_false.1 ho c hc)
  exact ⟨s, t, hs, ha, hq, hleft, ht, hw, hb, hback⟩

end MarketFeed.Mailbox.Shared
