import MarketFeed.Mailbox

namespace MarketFeed.Mailbox

structure Ledger (m : Mailbox) (taken : List Notification) : Prop where
  accepted : m.accepted = taken ++ m.discarded ++ m.queue.items
  kept : m.closed = false → m.discarded = []
  emptied : m.closed = true → m.queue.items = []

theorem ledger_empty : ({} : Mailbox).Ledger [] := ⟨rfl, fun _ => rfl, fun _ => rfl⟩

theorem post_of_closed {m : Mailbox} (h : m.closed = true) (n : Notification) :
    m.post n = { m with dropped := m.dropped + 1 } := by
  rw [post, if_pos h]

theorem post_of_open {m : Mailbox} (h : m.closed = false) (n : Notification) :
    m.post n =
      { m with
        queue := m.queue.push n, owed := m.owed + 1
        accepted := m.accepted ++ [n] } := by
  rw [post, if_neg (Bool.eq_false_iff.1 h)]

theorem publish_of_closed {m : Mailbox} (h : m.closed = true) (n : Notification) :
    m.publish n = m.post n := by
  rw [publish, if_pos h, post_of_closed h]

theorem ring?_eq_some_iff {m m' : Mailbox} :
    m.ring? = some m' ↔ 0 < m.owed ∧
      m' = { m with published := m.published + 1, wakeup := true, owed := m.owed - 1 } := by
  rw [ring?]
  by_cases h : 0 < m.owed
  · simp only [h, if_true, Option.some.injEq, true_and, eq_comm]
  · simp only [h, if_false, reduceCtorEq, false_and]

/-- Publishing is posting and then ringing, or nothing more than posting. -/
theorem publish_eq (m : Mailbox) (n : Notification) :
    m.publish n = m.post n ∨ (m.post n).ring? = some (m.publish n) := by
  cases h : m.closed with
  | true => exact .inl (publish_of_closed h n)
  | false => exact .inr (ring?_post h n)

theorem Ledger.post {m : Mailbox} {taken : List Notification} (h : m.Ledger taken)
    (n : Notification) : (m.post n).Ledger taken := by
  cases hc : m.closed with
  | true =>
    rw [post_of_closed hc]
    exact ⟨h.accepted, h.kept, h.emptied⟩
  | false =>
    rw [post_of_open hc]
    refine ⟨?_, h.kept, fun ht => Bool.noConfusion (hc.symm.trans ht)⟩
    change m.accepted ++ [n] = taken ++ m.discarded ++ (m.queue.items ++ [n])
    rw [h.accepted, List.append_assoc _ m.queue.items]

theorem Ledger.ring? {m m' : Mailbox} {taken : List Notification} (h : m.Ledger taken)
    (hm : m.ring? = some m') : m'.Ledger taken := by
  obtain ⟨-, rfl⟩ := ring?_eq_some_iff.1 hm
  exact ⟨h.accepted, h.kept, h.emptied⟩

theorem Ledger.publish {m : Mailbox} {taken : List Notification} (h : m.Ledger taken)
    (n : Notification) : (m.publish n).Ledger taken := by
  rcases m.publish_eq n with he | he
  · rw [he]
    exact h.post n
  · exact (h.post n).ring? he

theorem Ledger.publishAll {m : Mailbox} {taken : List Notification} (h : m.Ledger taken)
    (ns : List Notification) : (m.publishAll ns).Ledger taken := by
  induction ns generalizing m with
  | nil => exact h
  | cons n ns ih => exact ih (h.publish n)

theorem Ledger.close {m : Mailbox} {taken : List Notification} (h : m.Ledger taken) :
    m.close.2.Ledger taken where
  accepted := by
    change m.accepted = taken ++ (m.discarded ++ m.queue.items) ++ []
    rw [h.accepted, List.append_nil, List.append_assoc]
  kept hc := by cases hc
  emptied _ := rfl

theorem wake?_eq_some_iff {m m' : Mailbox} :
    m.wake? = some m' ↔ m.wakeup = true ∧ m' = { m with wakeup := false } := by
  rw [wake?]
  cases m.wakeup with
  | true => simp only [if_true, Option.some.injEq, true_and, eq_comm]
  | false => simp only [Bool.false_eq_true, if_false, reduceCtorEq, false_and]

theorem Ledger.wake? {m m' : Mailbox} {taken : List Notification} (h : m.Ledger taken)
    (hm : m.wake? = some m') : m'.Ledger taken := by
  obtain ⟨-, rfl⟩ := wake?_eq_some_iff.1 hm
  exact ⟨h.accepted, h.kept, h.emptied⟩

theorem Ledger.take? {m m' : Mailbox} {n : Notification} {taken : List Notification}
    (h : m.Ledger taken) (hm : m.take? = some (n, m')) : m'.Ledger (taken ++ [n]) := by
  obtain ⟨hq, he⟩ := take?_eq_some_iff.1 hm
  have hopen : m.closed = false := by
    apply Bool.eq_false_iff.2
    intro hc
    rw [h.emptied hc] at hq
    cases hq
  have hd := h.kept hopen
  have ha := h.accepted
  rw [hd, hq] at ha
  rw [he]
  refine ⟨?_, h.kept, fun hc => Bool.noConfusion (hopen.symm.trans hc)⟩
  change m.accepted = taken ++ [n] ++ m.discarded ++ m'.queue.items
  rw [ha, hd, List.append_nil, List.append_nil, List.append_assoc]
  rfl

theorem take?_eq_none_iff {m : Mailbox} : m.take? = none ↔ m.queue.items = [] := by
  simp only [take?, Option.map_eq_none_iff, Queue.pop?_eq_none_iff]

theorem closed_post (m : Mailbox) (n : Notification) : (m.post n).closed = m.closed := by
  rw [post]
  split <;> rfl

theorem closed_ring? {m m' : Mailbox} (h : m.ring? = some m') : m'.closed = m.closed := by
  rw [(ring?_eq_some_iff.1 h).2]

theorem closed_publishAll (m : Mailbox) (ns : List Notification) :
    (m.publishAll ns).closed = m.closed := by
  induction ns generalizing m with
  | nil => rfl
  | cons n ns ih => exact (ih (m.publish n)).trans (m.closed_publish n)

theorem closed_wake? {m m' : Mailbox} (h : m.wake? = some m') : m'.closed = m.closed := by
  rw [(wake?_eq_some_iff.1 h).2]

theorem closed_take? {m m' : Mailbox} {n : Notification} (h : m.take? = some (n, m')) :
    m'.closed = m.closed := by
  rw [(take?_eq_some_iff.1 h).2]

/-- What is in the mailbox has a wakeup stored for it, or somebody who owes one. -/
def Alert (m : Mailbox) : Prop := m.queue.items ≠ [] → m.wakeup = true ∨ 0 < m.owed

theorem Alert.post {m : Mailbox} (h : m.Alert) (n : Notification) : (m.post n).Alert := by
  cases hc : m.closed with
  | true =>
    rw [post_of_closed hc]
    exact h
  | false =>
    rw [post_of_open hc]
    exact fun _ => .inr (Nat.succ_pos _)

theorem alert_ring? {m m' : Mailbox} (hm : m.ring? = some m') : m'.Alert := by
  obtain ⟨-, rfl⟩ := ring?_eq_some_iff.1 hm
  exact fun _ => .inl rfl

theorem Alert.publish {m : Mailbox} (h : m.Alert) (n : Notification) : (m.publish n).Alert := by
  rcases m.publish_eq n with he | he
  · rw [he]
    exact h.post n
  · exact alert_ring? he

theorem Alert.publishAll {m : Mailbox} (h : m.Alert) (ns : List Notification) :
    (m.publishAll ns).Alert := by
  induction ns generalizing m with
  | nil => exact h
  | cons n ns ih => exact ih (h.publish n)

theorem alert_close (m : Mailbox) : m.close.2.Alert := fun hq => absurd rfl hq

theorem accepted_post (m : Mailbox) (n : Notification) :
    m.accepted <+: (m.post n).accepted := by
  cases hc : m.closed with
  | true =>
    have he : (m.post n).accepted = m.accepted := by rw [post_of_closed hc]
    exact he ▸ List.prefix_rfl
  | false =>
    rw [post_of_open hc]
    exact List.prefix_append _ _

theorem accepted_ring? {m m' : Mailbox} (hm : m.ring? = some m') : m'.accepted = m.accepted := by
  rw [(ring?_eq_some_iff.1 hm).2]

theorem accepted_publish (m : Mailbox) (n : Notification) :
    m.accepted <+: (m.publish n).accepted := by
  rcases m.publish_eq n with he | he
  · rw [he]
    exact m.accepted_post n
  · rw [accepted_ring? he]
    exact m.accepted_post n

theorem accepted_publishAll (m : Mailbox) (ns : List Notification) :
    m.accepted <+: (m.publishAll ns).accepted := by
  induction ns generalizing m with
  | nil => exact List.prefix_rfl
  | cons n ns ih => exact (m.accepted_publish n).trans (ih (m.publish n))

end MarketFeed.Mailbox
