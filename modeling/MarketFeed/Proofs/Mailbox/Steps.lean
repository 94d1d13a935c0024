import MarketFeed.Mailbox.Shared
import MarketFeed.Proofs.Mailbox

namespace MarketFeed.Mailbox

def Caller.isNew : Caller → Bool
  | publish _ .arrived | close .arrived | drain 0 false => true
  | _ => false

theorem Caller.eq_of_isNew {c : Caller} (h : c.isNew = true) :
    (∃ n, c = .publish n .arrived) ∨ c = .close .arrived ∨ c = .drain 0 false := by
  cases c with
  | publish n stage =>
    cases stage with
    | arrived => exact .inl ⟨n, rfl⟩
    | _ => cases h
  | close stage =>
    cases stage with
    | arrived => exact .inr (.inl rfl)
    | _ => cases h
  | drain count done =>
    cases count with
    | zero =>
      cases done with
      | false => exact .inr (.inr rfl)
      | true => cases h
    | succ count => cases h

namespace Shared

variable {β : Type}

inductive Advance (B : Bell β) (s : Shared β) : Caller → Caller → Shared β → Prop
  | enter (n : Notification) (free : s.callers.any Caller.ownsGate = false) :
      Advance B s (.publish n .arrived) (.publish n .inside) s
  | findOpen (n : Notification) (hc : s.closed = false) :
      Advance B s (.publish n .inside) (.publish n .admitted) s
  | findShut (n : Notification) (hc : s.closed = true) :
      Advance B s (.publish n .inside) (.publish n .refused) s
  | push (n : Notification) :
      Advance B s (.publish n .admitted) (.publish n .pushed)
        { s with queue := s.queue.push n, accepted := s.accepted ++ [n] }
  | drop (n : Notification) :
      Advance B s (.publish n .refused) (.publish n (.done false))
        { s with dropped := s.dropped + 1 }
  | count (n : Notification) :
      Advance B s (.publish n .pushed) (.publish n .counted)
        { s with published := s.published + 1 }
  | ring (n : Notification) :
      Advance B s (.publish n .counted) (.publish n (.done true))
        { s with bell := B.ring s.bell }
  | lock (free : (s.callers.any fun c => c.sharesGate || c.ownsGate) = false) :
      Advance B s (.close .arrived) (.close .inside) s
  | shut : Advance B s (.close .inside) (.close .shut) { s with closed := true }
  | clear :
      Advance B s (.close .shut) (.close (.cleared s.queue.clear.1))
        { s with queue := s.queue.clear.2, discarded := s.discarded ++ s.queue.items }
  | tally (k : Nat) :
      Advance B s (.close (.cleared k)) (.close (.tallied k)) { s with dropped := s.dropped + k }
  | ringShut (k : Nat) :
      Advance B s (.close (.tallied k)) (.close (.done k)) { s with bell := B.ring s.bell }
  | take (count : Nat) (n : Notification) (t : Shared β) (ht : s.take? = some (n, t)) :
      Advance B s (.drain count false) (.drain (count + 1) false) t
  | finish (count : Nat) (hq : s.queue.items = []) :
      Advance B s (.drain count false) (.drain count true) s

theorem take?_eq_none_iff {s : Shared β} : s.take? = none ↔ s.queue.items = [] := by
  simp only [take?, Option.map_eq_none_iff, Queue.pop?_eq_none_iff]

theorem take?_eq_some {s t : Shared β} {n : Notification} (h : s.take? = some (n, t)) :
    s.queue.items = n :: t.queue.items ∧
      t = { s with queue := t.queue, handed := s.handed ++ [n] } := by
  obtain ⟨⟨n', q⟩, hq, he⟩ := Option.map_eq_some_iff.1 h
  cases he
  exact ⟨Queue.pop?_eq_some_iff.1 hq, rfl⟩

theorem Advance.of_advance? {B : Bell β} {s t : Shared β} {c c' : Caller}
    (h : s.advance? B c = some (c', t)) : Advance B s c c' t := by
  cases c with
  | publish n stage =>
    cases stage with
    | arrived =>
      obtain ⟨hg, he⟩ := Option.ite_none_left_eq_some.1 h
      cases he
      exact .enter n (Bool.eq_false_iff.2 hg)
    | inside =>
      cases h
      cases hc : s.closed with
      | true => exact .findShut n hc
      | false => exact .findOpen n hc
    | admitted =>
      cases h
      exact .push n
    | refused =>
      cases h
      exact .drop n
    | pushed =>
      cases h
      exact .count n
    | counted =>
      cases h
      exact .ring n
    | done taken => cases h
  | close stage =>
    cases stage with
    | arrived =>
      obtain ⟨hg, he⟩ := Option.ite_none_left_eq_some.1 h
      cases he
      exact .lock (Bool.eq_false_iff.2 hg)
    | inside =>
      cases h
      exact .shut
    | shut =>
      cases h
      exact .clear
    | cleared k =>
      cases h
      exact .tally k
    | tallied k =>
      cases h
      exact .ringShut k
    | done k => cases h
  | drain count done =>
    cases done with
    | true => cases h
    | false =>
      rw [advance?] at h
      cases ht : s.take? with
      | none =>
        rw [ht] at h
        cases h
        exact .finish count (take?_eq_none_iff.1 ht)
      | some r =>
        rw [ht] at h
        cases h
        exact .take count r.1 r.2 ht

inductive Step (B : Bell β) (s : Shared β) : Shared β → Prop
  | join (c : Caller) (hc : c.isNew = true) : Step B s (s.join c)
  | advance (place : Nat) (c c' : Caller) (t : Shared β) (hc : s.callers[place]? = some c)
      (ha : Advance B s c c' t) : Step B s { t with callers := s.callers.set place c' }
  | wake (hd : s.consumer ≠ .draining) (hb : B.isRung s.bell = true) :
      Step B s { s with bell := (B.poll s.bell).2, consumer := .draining }
  | wait (hd : s.consumer ≠ .draining) (hb : B.isRung s.bell = false) :
      Step B s { s with bell := (B.poll s.bell).2, consumer := .waiting }
  | leave (hw : s.consumer = .waiting) :
      Step B s { s with bell := B.leave s.bell, consumer := .away }
  | take (hd : s.consumer = .draining) (n : Notification) (t : Shared β)
      (ht : s.take? = some (n, t)) : Step B s t
  | finish (hd : s.consumer = .draining) (hq : s.queue.items = []) :
      Step B s { s with consumer := .away }

theorem Step.of_step? {B : Bell β} {s t : Shared β} {m : Move} (h : s.step? B m = some t) :
    Step B s t := by
  cases m with
  | publish n =>
    cases h
    exact .join _ rfl
  | close =>
    cases h
    exact .join _ rfl
  | drain =>
    cases h
    exact .join _ rfl
  | advance place =>
    obtain ⟨c, hc, h⟩ := Option.bind_eq_some_iff.1 h
    obtain ⟨⟨c', u⟩, ha, he⟩ := Option.bind_eq_some_iff.1 h
    cases he
    exact .advance place c c' u hc (.of_advance? ha)
  | poll =>
    obtain ⟨hd, he⟩ := Option.ite_none_left_eq_some.1 h
    cases he
    rw [poll]
    cases hb : B.isRung s.bell with
    | true => exact .wake hd hb
    | false => exact .wait hd hb
  | leave =>
    obtain ⟨hw, he⟩ := Option.ite_none_right_eq_some.1 h
    cases he
    exact .leave hw
  | take =>
    obtain ⟨hd, h⟩ := Option.ite_none_right_eq_some.1 h
    cases ht : s.take? with
    | none =>
      rw [ht] at h
      cases h
      exact .finish hd (take?_eq_none_iff.1 ht)
    | some r =>
      rw [ht] at h
      cases h
      exact .take hd r.1 r.2 ht

theorem run_cons (B : Bell β) (s : Shared β) (m : Move) (ms : List Move) :
    s.run B (m :: ms) = (s.step? B m).bind fun t => t.run B ms := rfl

theorem run_induction {B : Bell β} {P : Shared β → Prop}
    (step : ∀ s t, P s → Step B s t → P t) {s t : Shared β} {ms : List Move}
    (hr : s.run B ms = some t) (hs : P s) : P t := by
  induction ms generalizing s with
  | nil =>
    cases hr
    exact hs
  | cons m ms ih =>
    rw [run_cons] at hr
    obtain ⟨u, hu, hr⟩ := Option.bind_eq_some_iff.1 hr
    exact ih hr (step s u hs (.of_step? hu))

end Shared

end MarketFeed.Mailbox
