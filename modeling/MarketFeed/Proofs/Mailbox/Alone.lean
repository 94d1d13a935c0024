import MarketFeed.Proofs.Mailbox.Wakeup
import MarketFeed.Proofs.Places

namespace MarketFeed.Mailbox

/-- What comes of a call at a mailbox that has one caller at a time: how it returns, what it hands
over, and the mailbox that it leaves. -/
def Caller.alone (m : Mailbox) : Caller → Caller × List Notification × Mailbox
  | publish n _ => (publish n (.done !m.closed), [], m.publish n)
  | close _ => (close (.done m.close.1), [], m.close.2)
  | drain count _ =>
    let d := m.drain []
    (drain (count + d.items.length) true, d.items, d.mailbox)

namespace Shared

variable {β : Type} {B : Bell β} {s t u : Shared β} {c c' c'' : Caller}

def LetsIn (s : Shared β) : Caller → Prop
  | .publish _ _ => s.callers.any Caller.ownsGate = false
  | .close _ => (s.callers.any fun c => c.sharesGate || c.ownsGate) = false
  | .drain _ _ => True

theorem advanceAt?_join (ha : (s.join c).advance? B c = some (c', t.join c))
    (ht : t.callers = s.callers) :
    (s.join c).advanceAt? B s.callers.length = some (t.join c') := by
  rw [advanceAt?, join, List.getElem?_concat_length]
  change ((s.join c).advance? B c).bind _ = _
  rw [ha, Option.bind_some]
  change some { t with callers := (s.callers ++ [c]).set s.callers.length c' } = _
  rw [set_concat_length, join, ht]

def Proceeds (B : Bell β) (s : Shared β) (c : Caller) (t : Shared β) (c' : Caller) : Prop :=
  (∃ ms : List Move, (s.join c).run B ms = some (t.join c')) ∧ t.callers = s.callers

theorem Proceeds.head (h : Proceeds B t c' u c'')
    (ha : (s.join c).advance? B c = some (c', t.join c)) (ht : t.callers = s.callers) :
    Proceeds B s c u c'' := by
  obtain ⟨⟨ms, hr⟩, hu⟩ := h
  refine ⟨⟨.advance s.callers.length :: ms, ?_⟩, hu.trans ht⟩
  rw [run_cons, step?, advanceAt?_join ha ht, Option.bind_some, hr]

theorem Proceeds.last (ha : (s.join c).advance? B c = some (c', t.join c))
    (ht : t.callers = s.callers) : Proceeds B s c t c' :=
  have hstop : Proceeds B t c' t c' := ⟨⟨[], rfl⟩, rfl⟩
  hstop.head ha ht

def CallsAlone (B : Bell β) (s : Shared β) (c : Caller) : Prop :=
  ∃ t : Shared β, Proceeds B s c t (c.alone (s.mailbox B)).1 ∧
    t.handed = s.handed ++ (c.alone (s.mailbox B)).2.1 ∧
    t.mailbox B = (c.alone (s.mailbox B)).2.2

theorem callsAlone_publish (hB : B.Lossless) (n : Notification)
    (free : s.LetsIn (.publish n .arrived)) : s.CallsAlone B (.publish n .arrived) := by
  have henter : (s.join (.publish n .arrived)).advance? B (.publish n .arrived) =
      some (.publish n .inside, s.join (.publish n .arrived)) := by
    apply if_neg
    have free : s.callers.any Caller.ownsGate = false := free
    rw [join, List.any_append, free]
    nofun
  cases hc : s.closed with
  | true =>
    have hm : (s.mailbox B).closed = true := hc
    have hlook : (s.join (.publish n .inside)).advance? B (.publish n .inside) =
        some (.publish n .refused, s.join (.publish n .inside)) := by
      rw [advance?, show (s.join (.publish n .inside)).closed = true from hc]
      rfl
    let turned : Shared β := { s with dropped := s.dropped + 1 }
    have hturn : Proceeds B s (.publish n .refused) turned (.publish n (.done false)) :=
      .last rfl rfl
    refine ⟨turned, ?_, (List.append_nil _).symm, ?_⟩
    · change Proceeds B s _ _ (.publish n (.done !(s.mailbox B).closed))
      rw [hm]
      exact (hturn.head hlook rfl).head henter rfl
    · rw [Caller.alone, publish_of_closed hm, post_of_closed hm]
      rfl
  | false =>
    have hm : (s.mailbox B).closed = false := hc
    have hlook : (s.join (.publish n .inside)).advance? B (.publish n .inside) =
        some (.publish n .admitted, s.join (.publish n .inside)) := by
      rw [advance?, show (s.join (.publish n .inside)).closed = false from hc]
      rfl
    let pushed : Shared β := { s with queue := s.queue.push n, accepted := s.accepted ++ [n] }
    let counted : Shared β := { pushed with published := s.published + 1 }
    let rung : Shared β := { counted with bell := B.ring s.bell }
    have hring : Proceeds B counted (.publish n .counted) rung (.publish n (.done true)) :=
      .last rfl rfl
    have hcount : Proceeds B pushed (.publish n .pushed) rung (.publish n (.done true)) :=
      hring.head rfl rfl
    have hpush : Proceeds B s (.publish n .admitted) rung (.publish n (.done true)) :=
      hcount.head rfl rfl
    refine ⟨rung, ?_, (List.append_nil _).symm, ?_⟩
    · change Proceeds B s _ _ (.publish n (.done !(s.mailbox B).closed))
      rw [hm]
      exact (hpush.head hlook rfl).head henter rfl
    · rw [Caller.alone, publish, if_neg (Bool.eq_false_iff.1 hm), mailbox, hB.ring]
      rfl

theorem callsAlone_close (hB : B.Lossless) (free : s.LetsIn (.close .arrived)) :
    s.CallsAlone B (.close .arrived) := by
  have henter : (s.join (.close .arrived)).advance? B (.close .arrived) =
      some (.close .inside, s.join (.close .arrived)) := by
    apply if_neg
    have free : (s.callers.any fun c => c.sharesGate || c.ownsGate) = false := free
    rw [join, List.any_append, free]
    nofun
  let shut : Shared β := { s with closed := true }
  let cleared : Shared β :=
    { shut with queue := s.queue.clear.2, discarded := s.discarded ++ s.queue.items }
  let tallied : Shared β := { cleared with dropped := s.dropped + s.queue.clear.1 }
  let rung : Shared β := { tallied with bell := B.ring s.bell }
  let k := s.queue.clear.1
  have hring : Proceeds B tallied (.close (.tallied k)) rung (.close (.done k)) := .last rfl rfl
  have htally : Proceeds B cleared (.close (.cleared k)) rung (.close (.done k)) :=
    hring.head rfl rfl
  have hclear : Proceeds B shut (.close .shut) rung (.close (.done k)) := htally.head rfl rfl
  have hshut : Proceeds B s (.close .inside) rung (.close (.done k)) := hclear.head rfl rfl
  refine ⟨rung, hshut.head henter rfl, (List.append_nil _).symm, ?_⟩
  rw [Caller.alone, close, mailbox, hB.ring]
  rfl

theorem proceeds_drain (B : Bell β) (s : Shared β) (count : Nat) :
    Proceeds B s (.drain count false)
      { s with queue := .empty, handed := s.handed ++ s.queue.items }
      (.drain (count + s.queue.items.length) true) := by
  induction hq : s.queue.items generalizing s count with
  | nil =>
    have ht : (s.join (.drain count false)).take? = none := take?_eq_none_iff.2 hq
    have hdone : (s.join (.drain count false)).advance? B (.drain count false) =
        some (.drain count true, s.join (.drain count false)) := by
      rw [advance?, ht]
    have he : s.queue = .empty := congrArg Queue.mk hq
    rw [← he, List.append_nil]
    exact .last hdone rfl
  | cons n rest ih =>
    let t : Shared β := { s with queue := ⟨rest⟩, handed := s.handed ++ [n] }
    have ht : (s.join (.drain count false)).take? = some (n, t.join (.drain count false)) := by
      have hpop : s.queue.pop? = some (n, ⟨rest⟩) := Queue.pop?_eq_some_iff.2 hq
      rw [take?, join, hpop]
      rfl
    have hnext : (s.join (.drain count false)).advance? B (.drain count false) =
        some (.drain (count + 1) false, t.join (.drain count false)) := by
      rw [advance?, ht]
    have hlater := ih t (count + 1) rfl
    rw [List.append_assoc, Nat.add_assoc, Nat.add_comm 1] at hlater
    exact hlater.head hnext rfl

structure ServesAlone (B : Bell β) (s : Shared β) : Prop where
  call (c : Caller) (new : c.isNew = true) (free : s.LetsIn c) : s.CallsAlone B c
  /-- A consumer that wakes drains the mailbox. A second ring may be left to it. -/
  wake (away : s.consumer ≠ .draining) (m : Mailbox) (hm : (s.mailbox B).wake? = some m) :
    ∃ (ms : List Move) (t : Shared β), s.run B (.poll :: ms) = some t ∧ t.consumer = .away ∧
      t.callers = s.callers ∧ t.handed = s.handed ++ (m.drain []).items ∧
      t.mailbox B = { (m.drain []).mailbox with wakeup := B.isRung (B.poll s.bell).2 }
  wait (away : s.consumer ≠ .draining) (hm : (s.mailbox B).wake? = none) :
    ∃ t : Shared β, s.step? B .poll = some t ∧ t.consumer = .waiting ∧ t.callers = s.callers ∧
      t.handed = s.handed ∧
      t.mailbox B = { s.mailbox B with wakeup := B.isRung (B.poll s.bell).2 }

/-- Whoever is let in and not interfered with finds a mailbox that has one caller at a time. -/
theorem servesAlone (hB : B.Lossless) (s : Shared β) : s.ServesAlone B := by
  constructor
  case call =>
    intro c new free
    rcases Caller.eq_of_isNew new with ⟨n, rfl⟩ | rfl | rfl
    · exact callsAlone_publish hB n free
    · exact callsAlone_close hB free
    · exact ⟨_, proceeds_drain B s 0, rfl, rfl⟩
  case wake =>
    intro away m hm
    obtain ⟨hb, rfl⟩ := wake?_eq_some_iff.1 hm
    obtain ⟨ms, hr⟩ := emptied_of_rung away hb
    exact ⟨ms, _, hr, rfl, rfl, rfl, rfl⟩
  case wait =>
    intro away hm
    have hb : B.isRung s.bell = false := by
      cases hb : B.isRung s.bell with
      | false => rfl
      | true =>
        have hm' : (s.mailbox B).wake? = some _ := if_pos hb
        cases hm'.symm.trans hm
    refine ⟨s.poll B, if_neg away, ?_, rfl, rfl, rfl⟩
    rw [poll, hb]
    rfl

end Shared

end MarketFeed.Mailbox
