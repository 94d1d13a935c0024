import Mathlib.Algebra.BigOperators.Group.List.Basic
import Mathlib.Algebra.Ring.Nat
import Mathlib.Data.List.Perm.Basic
import MarketFeed.Proofs.Mailbox.Wakeup

namespace MarketFeed.Mailbox

namespace Caller

def putIn? : Caller → Option Notification
  | publish n .pushed | publish n .counted | publish n (.done true) => some n
  | _ => none

def isUncounted : Caller → Bool
  | publish _ .pushed => true
  | _ => false

def isRejected : Caller → Bool
  | publish _ (.done false) => true
  | _ => false

def cleared : Caller → Nat
  | close (.cleared k) | close (.tallied k) | close (.done k) => k
  | _ => 0

def untallied : Caller → Nat
  | close (.cleared k) => k
  | _ => 0

def isDone : Caller → Bool
  | publish _ (.done _) | close (.done _) | drain _ true => true
  | _ => false

/-- What the caller knows of the mailbox: it is open, it is closed, or it is closed and empty. -/
def Knows (closed : Bool) (items : List Notification) : Caller → Prop
  | publish _ .admitted => closed = false
  | close .shut => closed = true
  | close (.cleared _) | close (.tallied _) | close (.done _) => closed = true ∧ items = []
  | _ => True

theorem not_sharesGate_of_ownsGate {c : Caller} (h : c.ownsGate = true) :
    c.sharesGate = false := by
  cases c with
  | close stage => rfl
  | _ => cases h

theorem Knows.of_alive {closed : Bool} {items items' : List Notification} {c : Caller}
    (h : c.Knows closed items) (alive : ¬ (closed = true ∧ items = [])) :
    c.Knows closed items' := by
  cases c with
  | publish n stage => cases stage <;> exact h
  | close stage =>
    cases stage with
    | cleared k => exact absurd h alive
    | tallied k => exact absurd h alive
    | done k => exact absurd h alive
    | _ => exact h
  | drain count done => trivial

/-- Who shuts the mailbox has the gate for itself, so nobody has just found it open. -/
theorem Knows.shut {closed : Bool} {items : List Notification} {c : Caller}
    (h : c.Knows closed items) (hs : c.sharesGate = false) : c.Knows true items := by
  cases c with
  | publish n stage =>
    cases stage with
    | admitted => cases hs
    | _ => trivial
  | close stage =>
    cases stage with
    | shut => rfl
    | cleared k => exact ⟨rfl, h.2⟩
    | tallied k => exact ⟨rfl, h.2⟩
    | done k => exact ⟨rfl, h.2⟩
    | _ => trivial
  | drain count done => trivial

theorem Knows.clear {closed : Bool} {items : List Notification} {c : Caller}
    (h : c.Knows closed items) : c.Knows closed [] := by
  cases c with
  | publish n stage => cases stage <;> exact h
  | close stage =>
    cases stage with
    | cleared k => exact ⟨h.1, rfl⟩
    | tallied k => exact ⟨h.1, rfl⟩
    | done k => exact ⟨h.1, rfl⟩
    | _ => exact h
  | drain count done => trivial

theorem settled_of_isDone {c : Caller} (h : c.isDone = true) :
    c.isUncounted = false ∧ c.untallied = 0 := by
  cases c with
  | publish n stage =>
    cases stage with
    | done taken => exact ⟨rfl, rfl⟩
    | _ => cases h
  | close stage =>
    cases stage with
    | done k => exact ⟨rfl, rfl⟩
    | _ => cases h
  | drain count done => exact ⟨rfl, rfl⟩

theorem knows_of_isNew {c : Caller} (h : c.isNew = true) (closed : Bool)
    (items : List Notification) : c.Knows closed items := by
  rcases eq_of_isNew h with ⟨n, rfl⟩ | rfl | rfl <;> trivial

theorem outside_of_isNew {c : Caller} (h : c.isNew = true) :
    c.ownsGate = false ∧ c.sharesGate = false := by
  rcases eq_of_isNew h with ⟨n, rfl⟩ | rfl | rfl <;> exact ⟨rfl, rfl⟩

end Caller

/-- A closer inside the gate keeps all publishers out of it. -/
def GateKept (cs : List Caller) : Prop :=
  ∀ c ∈ cs, ∀ d ∈ cs, c.ownsGate = true → d.sharesGate = false

theorem GateKept.join {cs : List Caller} (h : GateKept cs) {c : Caller} (hc : c.isNew = true) :
    GateKept (cs ++ [c]) := by
  obtain ⟨ho, hs⟩ := Caller.outside_of_isNew hc
  intro x hx y hy hxo
  rcases List.mem_append.1 hx with hx | hx
  · rcases List.mem_append.1 hy with hy | hy
    · exact h x hx y hy hxo
    · exact List.mem_singleton.1 hy ▸ hs
  · rw [List.mem_singleton.1 hx, ho] at hxo
    cases hxo

theorem GateKept.set {cs : List Caller} (h : GateKept cs) {place : Nat} {c : Caller}
    (hc : cs[place]? = some c) (c' : Caller)
    (ho : c'.ownsGate = true → c.ownsGate = true ∨ ∀ d ∈ cs, d.sharesGate = false)
    (hs : c'.sharesGate = true → c.sharesGate = true ∨ ∀ d ∈ cs, d.ownsGate = false) :
    GateKept (cs.set place c') := by
  have hmem : c ∈ cs := List.mem_of_getElem? hc
  intro x hx y hy hxo
  rcases List.mem_or_eq_of_mem_set hx with hx | hx
  · rcases List.mem_or_eq_of_mem_set hy with hy | hy
    · exact h x hx y hy hxo
    · rw [hy]
      apply Bool.eq_false_iff.2
      intro hys
      rcases hs hys with hcs | hfree
      · rw [h x hx c hmem hxo] at hcs
        cases hcs
      · rw [hfree x hx] at hxo
        cases hxo
  · rw [hx] at hxo
    rcases List.mem_or_eq_of_mem_set hy with hy | hy
    · rcases ho hxo with hco | hfree
      · exact h c hmem y hy hco
      · exact hfree y hy
    · exact hy ▸ Caller.not_sharesGate_of_ownsGate hxo

namespace Shared

variable {β : Type} {B : Bell β} {s t : Shared β}

/-- What is left in a mailbox, and what those at work know of it. -/
structure Guarded (s : Shared β) : Prop where
  gate : GateKept s.callers
  knows : ∀ c ∈ s.callers, c.Knows s.closed s.queue.items
  kept : s.discarded ≠ [] → s.closed = true ∧ s.queue.items = []
  accounts : s.accepted = s.handed ++ s.discarded ++ s.queue.items

theorem guarded_fresh (b : β) : Guarded ({ bell := b } : Shared β) where
  gate _ hc := absurd hc List.not_mem_nil
  knows _ hc := absurd hc List.not_mem_nil
  kept h := absurd rfl h
  accounts := rfl

theorem Guarded.quiet (h : s.Guarded) (gate : GateKept t.callers)
    (knows : ∀ c ∈ t.callers, c.Knows s.closed s.queue.items) (hc : t.closed = s.closed)
    (hq : t.queue = s.queue) (ha : t.accepted = s.accepted) (hh : t.handed = s.handed)
    (hd : t.discarded = s.discarded) : t.Guarded where
  gate := gate
  knows := by rw [hc, hq]; exact knows
  kept := by rw [hd, hc, hq]; exact h.kept
  accounts := by rw [ha, hh, hd, hq]; exact h.accounts

theorem Guarded.discarded_eq_nil (h : s.Guarded)
    (alive : ¬ (s.closed = true ∧ s.queue.items = [])) : s.discarded = [] :=
  Classical.byContradiction fun hx => alive (h.kept hx)

/-- A mailbox that was cleared has nothing to take. -/
theorem Guarded.take (h : s.Guarded) {n : Notification} (hq : s.queue.items = n :: t.queue.items)
    (gate : GateKept t.callers)
    (knows : ∀ c ∈ t.callers, c.Knows s.closed s.queue.items) (hc : t.closed = s.closed)
    (ha : t.accepted = s.accepted) (hh : t.handed = s.handed ++ [n])
    (hd : t.discarded = s.discarded) : t.Guarded := by
  have alive : ¬ (s.closed = true ∧ s.queue.items = []) := by
    intro hx
    rw [hq] at hx
    cases hx.2
  have hnone := h.discarded_eq_nil alive
  constructor
  case gate => exact gate
  case knows =>
    intro c hm
    rw [hc]
    exact (knows c hm).of_alive alive
  case kept =>
    intro hx
    exact absurd (hd.trans hnone) hx
  case accounts =>
    have hacc := h.accounts
    rw [hnone, hq] at hacc
    rw [ha, hh, hd, hnone, hacc]
    simp only [List.append_nil, List.append_assoc, List.singleton_append]

theorem forall_mem_set {cs : List Caller} {P : Caller → Prop} (h : ∀ c ∈ cs, P c) {place : Nat}
    {c : Caller} (hc : P c) : ∀ x ∈ cs.set place c, P x := by
  intro x hx
  rcases List.mem_or_eq_of_mem_set hx with hx | rfl
  · exact h x hx
  · exact hc

theorem Guarded.advance (h : s.Guarded) {place : Nat} {c c' : Caller}
    (hc : s.callers[place]? = some c) (ha : Advance B s c c' t) :
    Guarded { t with callers := s.callers.set place c' } := by
  have hmem : c ∈ s.callers := List.mem_of_getElem? hc
  have hknows := h.knows c hmem
  have set {d : Caller} (hd : d.Knows s.closed s.queue.items) :
      ∀ x ∈ s.callers.set place d, x.Knows s.closed s.queue.items := forall_mem_set h.knows hd
  cases ha with
  | enter n free =>
    have hgate := h.gate.set hc (.publish n .inside) nofun fun _ => .inr fun d hd =>
      Bool.eq_false_iff.2 (List.any_eq_false.1 free d hd)
    exact h.quiet hgate (set trivial) rfl rfl rfl rfl rfl
  | findOpen n hopen =>
    have hgate := h.gate.set hc (.publish n .admitted) nofun fun _ => .inl rfl
    exact h.quiet hgate (set hopen) rfl rfl rfl rfl rfl
  | findShut n hshut =>
    have hgate := h.gate.set hc (.publish n .refused) nofun fun _ => .inl rfl
    exact h.quiet hgate (set trivial) rfl rfl rfl rfl rfl
  | push n =>
    -- it was let in, and nobody could close the mailbox since
    have hopen : s.closed = false := hknows
    have alive : ¬ (s.closed = true ∧ s.queue.items = []) := by
      intro hx
      rw [hopen] at hx
      cases hx.1
    constructor
    case gate => exact h.gate.set hc _ nofun nofun
    case knows => exact forall_mem_set (fun d hd => (h.knows d hd).of_alive alive) trivial
    case kept => exact fun hx => absurd (h.discarded_eq_nil alive) hx
    case accounts =>
      change s.accepted ++ [n] = s.handed ++ s.discarded ++ (s.queue.items ++ [n])
      rw [h.accounts, List.append_assoc _ s.queue.items]
  | drop n =>
    exact h.quiet (h.gate.set hc _ nofun nofun) (set trivial) rfl rfl rfl rfl rfl
  | count n =>
    exact h.quiet (h.gate.set hc _ nofun nofun) (set trivial) rfl rfl rfl rfl rfl
  | ring n =>
    exact h.quiet (h.gate.set hc _ nofun nofun) (set trivial) rfl rfl rfl rfl rfl
  | lock free =>
    have hgate := h.gate.set hc (.close .inside) (fun _ => .inr fun d hd =>
      (Bool.or_eq_false_iff.1 (Bool.eq_false_iff.2 (List.any_eq_false.1 free d hd))).1) nofun
    exact h.quiet hgate (set trivial) rfl rfl rfl rfl rfl
  | shut =>
    constructor
    case gate => exact h.gate.set hc _ (fun _ => .inl rfl) nofun
    case knows =>
      exact forall_mem_set (fun d hd => (h.knows d hd).shut (h.gate _ hmem d hd rfl)) rfl
    case kept => exact fun hx => ⟨rfl, (h.kept hx).2⟩
    case accounts => exact h.accounts
  | clear =>
    have hshut : s.closed = true := hknows
    constructor
    case gate => exact h.gate.set hc _ nofun nofun
    case knows => exact forall_mem_set (fun d hd => (h.knows d hd).clear) ⟨hshut, rfl⟩
    case kept => exact fun _ => ⟨hshut, rfl⟩
    case accounts =>
      change s.accepted = s.handed ++ (s.discarded ++ s.queue.items) ++ []
      rw [h.accounts, List.append_nil, List.append_assoc]
  | tally k =>
    exact h.quiet (h.gate.set hc _ nofun nofun) (set hknows) rfl rfl rfl rfl rfl
  | ringShut k =>
    exact h.quiet (h.gate.set hc _ nofun nofun) (set hknows) rfl rfl rfl rfl rfl
  | take count n t ht =>
    obtain ⟨hq, he⟩ := take?_eq_some ht
    rw [he]
    exact h.take hq (h.gate.set hc _ nofun nofun) (set trivial) rfl rfl rfl rfl
  | finish count hq =>
    exact h.quiet (h.gate.set hc _ nofun nofun) (set trivial) rfl rfl rfl rfl rfl

theorem Guarded.step (h : s.Guarded) (hs : Step B s t) : t.Guarded := by
  cases hs with
  | join c hc =>
    refine h.quiet (h.gate.join hc) ?_ rfl rfl rfl rfl rfl
    intro x hx
    rcases List.mem_append.1 hx with hx | hx
    · exact h.knows x hx
    · rw [List.mem_singleton.1 hx]
      exact Caller.knows_of_isNew hc _ _
  | advance place c c' t hc ha => exact h.advance hc ha
  | take hd n t ht =>
    obtain ⟨hq, he⟩ := take?_eq_some ht
    have hcallers : t.callers = s.callers := by rw [he]
    apply h.take hq
    case gate => exact hcallers ▸ h.gate
    case knows => exact hcallers ▸ h.knows
    all_goals rw [he]
  | _ => exact h.quiet h.gate h.knows rfl rfl rfl rfl rfl

theorem exists_others {cs : List Caller} {place : Nat} {c : Caller} (hc : cs[place]? = some c) :
    ∃ others, cs.Perm (c :: others) ∧ ∀ c', (cs.set place c').Perm (c' :: others) := by
  obtain ⟨hlt, rfl⟩ := List.getElem?_eq_some_iff.1 hc
  refine ⟨cs.eraseIdx place, ?_, fun c' => List.set_perm_cons_eraseIdx hlt c'⟩
  exact (List.getElem_cons_eraseIdx_perm hlt).symm

/-- What the counts of a mailbox and its calls say of the notifications. -/
structure Tallied (s : Shared β) (cs : List Caller) : Prop where
  accepted : s.accepted.Perm (cs.filterMap Caller.putIn?)
  published : s.published + cs.countP Caller.isUncounted = s.accepted.length
  discarded : (cs.map Caller.cleared).sum = s.discarded.length
  dropped : s.dropped + (cs.map Caller.untallied).sum =
    cs.countP Caller.isRejected + s.discarded.length

theorem tallied_fresh (b : β) : Tallied ({ bell := b } : Shared β) [] where
  accepted := .refl _
  published := rfl
  discarded := rfl
  dropped := rfl

theorem Tallied.perm {cs ds : List Caller} (h : s.Tallied cs) (hp : cs.Perm ds) :
    s.Tallied ds where
  accepted := h.accepted.trans (hp.filterMap _)
  published := by rw [← hp.countP_eq]; exact h.published
  discarded := by rw [← (hp.map _).sum_eq]; exact h.discarded
  dropped := by rw [← hp.countP_eq, ← (hp.map _).sum_eq]; exact h.dropped

theorem Tallied.caller {c c' : Caller} {others : List Caller} (h : s.Tallied (c :: others))
    (ha : Advance B s c c' t) : t.Tallied (c' :: others) := by
  have hpub := h.published
  have hdis := h.discarded
  have hdrop := h.dropped
  cases ha with
  | push n =>
    constructor
    case accepted => exact (List.perm_append_singleton n _).trans (h.accepted.cons n)
    case published =>
      rw [List.countP_cons_of_pos rfl, List.length_append, ← hpub]
      rfl
    case discarded => exact hdis
    case dropped => exact hdrop
  | drop n =>
    constructor
    case accepted => exact h.accepted
    case published => exact hpub
    case discarded => exact hdis
    case dropped =>
      simp only [List.countP_cons, List.map_cons, List.sum_cons, Caller.isRejected,
        Caller.untallied, Bool.false_eq_true, if_true, if_false] at hdrop ⊢
      omega
  | count n =>
    constructor
    case accepted => exact h.accepted
    case published =>
      simp only [List.countP_cons, Caller.isUncounted, Bool.false_eq_true, if_true, if_false]
        at hpub ⊢
      omega
    case discarded => exact hdis
    case dropped => exact hdrop
  | clear =>
    constructor
    case accepted => exact h.accepted
    case published => exact hpub
    case discarded =>
      simp only [List.map_cons, List.sum_cons, Caller.cleared, Queue.clear,
        List.length_append] at hdis ⊢
      omega
    case dropped =>
      simp only [List.countP_cons, List.map_cons, List.sum_cons, Caller.isRejected,
        Caller.untallied, Queue.clear, List.length_append, Bool.false_eq_true, if_false] at hdrop ⊢
      omega
  | tally k =>
    constructor
    case accepted => exact h.accepted
    case published => exact hpub
    case discarded => exact hdis
    case dropped =>
      simp only [List.countP_cons, List.map_cons, List.sum_cons, Caller.isRejected,
        Caller.untallied, Bool.false_eq_true, if_false] at hdrop ⊢
      omega
  | take count n t ht =>
    rw [(take?_eq_some ht).2]
    exact ⟨h.accepted, hpub, hdis, hdrop⟩
  | _ => exact ⟨h.accepted, hpub, hdis, hdrop⟩

theorem Tallied.of_eq {cs : List Caller} (h : s.Tallied cs) (ha : t.accepted = s.accepted)
    (hp : t.published = s.published) (hx : t.discarded = s.discarded)
    (hd : t.dropped = s.dropped) : t.Tallied cs where
  accepted := by rw [ha]; exact h.accepted
  published := by rw [ha, hp]; exact h.published
  discarded := by rw [hx]; exact h.discarded
  dropped := by rw [hx, hd]; exact h.dropped

theorem Tallied.cons {cs : List Caller} (h : s.Tallied cs) {c : Caller} (hc : c.isNew = true) :
    s.Tallied (c :: cs) := by
  obtain ⟨hacc, hpub, hdis, hdrop⟩ := h
  have hz : s.dropped + (0 + (cs.map Caller.untallied).sum) =
      cs.countP Caller.isRejected + s.discarded.length := by rw [Nat.zero_add, hdrop]
  rcases Caller.eq_of_isNew hc with ⟨n, rfl⟩ | rfl | rfl <;>
    exact ⟨hacc, hpub, (Nat.zero_add _).trans hdis, hz⟩

theorem Tallied.step (h : s.Tallied s.callers) (hs : Step B s t) : t.Tallied t.callers := by
  cases hs with
  | join c hc =>
    have hnew := (h.cons hc).perm (List.perm_append_singleton c s.callers).symm
    exact hnew.of_eq rfl rfl rfl rfl
  | advance place c c' t hc ha =>
    obtain ⟨others, hs, ht⟩ := exists_others hc
    exact (((h.perm hs).caller ha).perm (ht c').symm).of_eq rfl rfl rfl rfl
  | take hd n t ht =>
    rw [(take?_eq_some ht).2]
    exact h.of_eq rfl rfl rfl rfl
  | _ => exact h.of_eq rfl rfl rfl rfl

theorem Guarded.in_order (h : s.Guarded) (hs : Step B s t) :
    s.accepted <+: t.accepted ∧ s.handed ++ s.discarded <+: t.handed ++ t.discarded := by
  have taken {n : Notification} {u : Shared β} (hu : s.take? = some (n, u)) :
      s.accepted <+: u.accepted ∧ s.handed ++ s.discarded <+: u.handed ++ u.discarded := by
    obtain ⟨hq, he⟩ := take?_eq_some hu
    have hnone : s.discarded = [] := by
      apply h.discarded_eq_nil
      intro hx
      rw [hx.2] at hq
      cases hq
    rw [he, hnone, List.append_nil, List.append_nil]
    exact ⟨List.prefix_rfl, List.prefix_append _ _⟩
  cases hs with
  | advance place c c' t hc ha =>
    cases ha with
    | push n => exact ⟨List.prefix_append _ _, List.prefix_rfl⟩
    | clear =>
      refine ⟨List.prefix_rfl, ?_⟩
      change s.handed ++ s.discarded <+: s.handed ++ (s.discarded ++ s.queue.items)
      rw [← List.append_assoc]
      exact List.prefix_append _ _
    | take count n t ht =>
      have htaken := taken ht
      exact htaken
    | _ => exact ⟨List.prefix_rfl, List.prefix_rfl⟩
  | take hd n t ht => exact taken ht
  | _ => exact ⟨List.prefix_rfl, List.prefix_rfl⟩

theorem Advance.not_isDone {c c' : Caller} (ha : Advance B s c c' t) : c.isDone = false := by
  cases ha <;> rfl

theorem Step.returned (hs : Step B s t) {c : Caller} (hc : c ∈ s.callers)
    (hd : c.isDone = true) : c ∈ t.callers := by
  cases hs with
  | join c' hc' => exact List.mem_append_left _ hc
  | advance place d d' t hp ha =>
    obtain ⟨i, hi⟩ := List.mem_iff_getElem?.1 hc
    have hne : place ≠ i := by
      rintro rfl
      obtain rfl : d = c := Option.some.inj (hp.symm.trans hi)
      rw [ha.not_isDone] at hd
      cases hd
    exact List.mem_iff_getElem?.2 ⟨i, (List.getElem?_set_ne hne).trans hi⟩
  | take hx n t ht =>
    rw [(take?_eq_some ht).2]
    exact hc
  | _ => exact hc

/-- The accounts of a mailbox. What it ever took in is what its publishers put in; it was handed
over, discarded, or is still pending, and it leaves in the order in which it came. When a closer has
returned nothing is pending, then and ever after. When every call has returned, what is counted as
published was handed over, discarded or is pending, and what is counted as dropped was discarded or
turned away. -/
structure Accounts (B : Bell β) (s : Shared β) : Prop where
  accepted : s.accepted = s.handed ++ s.discarded ++ s.queue.items
  putIn : s.accepted.Perm (s.callers.filterMap Caller.putIn?)
  order : ∀ ms t, s.run B ms = some t →
    s.accepted <+: t.accepted ∧ s.handed ++ s.discarded <+: t.handed ++ t.discarded
  emptied : ∀ k, Caller.close (.done k) ∈ s.callers →
    ∀ ms t, s.run B ms = some t → t.closed = true ∧ t.queue.items = []
  cleared : (s.callers.map Caller.cleared).sum = s.discarded.length
  published : (∀ c ∈ s.callers, c.isDone = true) →
    s.published = s.handed.length + s.discarded.length + s.queue.size
  dropped : (∀ c ∈ s.callers, c.isDone = true) →
    s.dropped = s.callers.countP Caller.isRejected + s.discarded.length

theorem Guarded.order (h : s.Guarded) {ms : List Move} (hr : s.run B ms = some t) :
    s.accepted <+: t.accepted ∧ s.handed ++ s.discarded <+: t.handed ++ t.discarded := by
  have hinv : t.Guarded ∧
      s.accepted <+: t.accepted ∧ s.handed ++ s.discarded <+: t.handed ++ t.discarded := by
    refine run_induction (P := fun u => u.Guarded ∧
      s.accepted <+: u.accepted ∧ s.handed ++ s.discarded <+: u.handed ++ u.discarded)
      (fun u v hu hs => ?_) hr ⟨h, List.prefix_rfl, List.prefix_rfl⟩
    obtain ⟨hacc, hleft⟩ := hu.1.in_order hs
    exact ⟨hu.1.step hs, hu.2.1.trans hacc, hu.2.2.trans hleft⟩
  exact hinv.2

theorem Guarded.emptied (h : s.Guarded) {k : Nat} (hk : Caller.close (.done k) ∈ s.callers)
    {ms : List Move} (hr : s.run B ms = some t) : t.closed = true ∧ t.queue.items = [] := by
  have hinv : t.Guarded ∧ Caller.close (.done k) ∈ t.callers :=
    run_induction (P := fun u => u.Guarded ∧ Caller.close (.done k) ∈ u.callers)
      (fun u v hu hs => ⟨hu.1.step hs, hs.returned hu.2 rfl⟩) hr ⟨h, hk⟩
  exact hinv.1.knows _ hinv.2

theorem Tallied.settled {cs : List Caller} (h : s.Tallied cs) (hd : ∀ c ∈ cs, c.isDone = true) :
    s.published = s.accepted.length ∧
      s.dropped = cs.countP Caller.isRejected + s.discarded.length := by
  have hu : cs.countP Caller.isUncounted = 0 := by
    apply List.countP_eq_zero.2
    intro c hc
    exact Bool.eq_false_iff.1 (Caller.settled_of_isDone (hd c hc)).1
  have ht : (cs.map Caller.untallied).sum = 0 := by
    apply List.sum_eq_zero
    intro k hk
    obtain ⟨c, hc, rfl⟩ := List.mem_map.1 hk
    exact (Caller.settled_of_isDone (hd c hc)).2
  have hpub := h.published
  have hdrop := h.dropped
  rw [hu] at hpub
  rw [ht] at hdrop
  exact ⟨hpub, hdrop⟩

/-- Whatever is done at once to a mailbox, nothing of what it took in is lost or counted twice. -/
theorem all_accounted_for {b : β} {ms : List Move}
    (hr : Shared.run B { bell := b } ms = some s) : s.Accounts B := by
  have hg : s.Guarded := run_induction (fun _ _ h hs => h.step hs) hr (guarded_fresh b)
  have ht : s.Tallied s.callers :=
    run_induction (P := fun u => u.Tallied u.callers) (fun _ _ h hs => h.step hs) hr
      (tallied_fresh b)
  constructor
  case accepted => exact hg.accounts
  case putIn => exact ht.accepted
  case order => exact fun _ _ hr => hg.order hr
  case emptied => exact fun _ hk _ _ hr => hg.emptied hk hr
  case cleared => exact ht.discarded
  case published =>
    intro hd
    rw [(ht.settled hd).1, hg.accounts, List.length_append, List.length_append]
    rfl
  case dropped => exact fun hd => (ht.settled hd).2

/-- Two notifications come in and one of them is handed over. While the mailbox is closed a third is
on its way, which comes too late; then it is closed again. -/
def closingTime : List Move :=
  [.publish (.ofCallback .frontConnected), .publish (.ofCallback (.frontDisconnected 1)),
    .advance 0, .advance 1, .advance 1, .advance 0, .advance 0, .advance 1, .drain, .advance 2,
    .publish (.ofCallback .frontConnected), .advance 0, .advance 0, .close, .advance 4, .advance 4,
    .advance 4, .advance 1, .advance 3, .advance 3, .advance 4, .advance 1, .advance 2, .advance 4,
    .advance 3, .close, .advance 5, .advance 5, .advance 5, .advance 5, .advance 5]

theorem all_accounted_for_of_closing_time :
    ∃ s : Shared Chime, Shared.run chime { bell := {} } closingTime = some s ∧
      s.callers.all Caller.isDone = true ∧ s.handed = [.ofCallback .frontConnected] ∧
      s.discarded = [.ofCallback (.frontDisconnected 1)] ∧ s.published = 2 ∧ s.dropped = 2 ∧
      s.Accounts chime := by
  obtain ⟨s, hs, he⟩ := Option.map_eq_some_iff.1
    (rfl : (Shared.run chime { bell := {} } closingTime).map
      (fun s => (s.callers.all Caller.isDone, s.handed, s.discarded, s.published, s.dropped)) =
        some (true, [.ofCallback .frontConnected], [.ofCallback (.frontDisconnected 1)], 2, 2))
  obtain ⟨hdone, he⟩ := Prod.mk.inj he
  obtain ⟨hhanded, he⟩ := Prod.mk.inj he
  obtain ⟨hdiscarded, he⟩ := Prod.mk.inj he
  obtain ⟨hpublished, hdropped⟩ := Prod.mk.inj he
  exact ⟨s, hs, hdone, hhanded, hdiscarded, hpublished, hdropped, all_accounted_for hs⟩

end Shared

end MarketFeed.Mailbox
