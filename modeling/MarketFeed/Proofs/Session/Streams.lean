import MarketFeed.Proofs.Session.Table

namespace MarketFeed.Session

variable {σ : Type} {V : Vendor σ} {vendor : σ} {s t u : Session σ} {m : Move} {ms : List Move}
  {kind : EventKind} {number : Nat}

/-- A registration is known by its number, which no later one has. -/
structure Numbered (s : Session σ) : Prop where
  listeners : ∀ kind r, s.listeners.find? kind = some r → r.number < s.registrations
  drained : ∀ n r, (n, some r) ∈ s.drained → r.number < s.registrations

theorem Numbered.number_lt (h : s.Numbered) (hm : s.step? V m = some t) {n : Notification}
    {r : Registration} (hx : (n, some r) ∈ t.drained) : r.number < s.registrations := by
  rw [drained_of_step? hm, List.mem_append] at hx
  rcases hx with hx | hx
  · exact h.drained n r hx
  · simp only [Option.mem_toList, Option.map_eq_some_iff, Prod.mk.injEq] at hx
    obtain ⟨n', -, rfl, hr⟩ := hx
    exact h.listeners _ r hr

theorem Numbered.step (h : s.Numbered) (hs : s.Sound V vendor) (hm : s.step? V m = some t) :
    t.Numbered where
  listeners kind r hr := by
    rcases (KindChange.of_step? hs hm kind).comes hr with hr | ⟨hn, ht⟩
    · exact Nat.lt_of_lt_of_le (h.listeners kind r hr) (registrations_le_of_step? hs hm)
    · omega
  drained n r hx := Nat.lt_of_lt_of_le (h.number_lt hm hx) (registrations_le_of_step? hs hm)

/-- A registration stands in the table, under its kind and no other. -/
structure Attached (s : Session σ) (kind : EventKind) (number : Nat) : Prop where
  stands : ∃ l, s.listeners.find? kind = some ⟨number, l⟩
  only : ∀ k r, s.listeners.find? k = some r → r.number = number → k = kind
  old : number < s.registrations
  present : s.isGone = false

structure Left (s : Session σ) (number : Nat) : Prop where
  absent : s.isGone = true ∨ ∀ k r, s.listeners.find? k = some r → r.number ≠ number
  old : number < s.registrations

theorem Attached.keep (h : s.Attached kind number) (hs : s.Sound V vendor)
    (hm : s.step? V m = some t) (he : s.ends kind m = false) : t.Attached kind number := by
  have hk := KindChange.of_step? hs hm kind
  rw [he] at hk
  cases hk with
  | keep hl hn hg =>
    apply Attached.mk (hl ▸ h.stands) ?_ (Nat.lt_of_lt_of_le h.old hn) (hg.trans h.present)
    rintro k r hr rfl
    exact h.only k r ((KindChange.of_step? hs hm k).stood hr h.old) rfl

theorem Attached.leave (h : s.Attached kind number) (hs : s.Sound V vendor)
    (hm : s.step? V m = some t) (he : s.ends kind m = true) : t.Left number := by
  have hk := KindChange.of_step? hs hm kind
  apply Left.mk ?_ (Nat.lt_of_lt_of_le h.old (registrations_le_of_step? hs hm))
  -- only the kind it stood under could still have it
  have honly (k : EventKind) (r : Registration) (hr : t.listeners.find? k = some r)
      (hn : r.number = number) : k = kind := by
    subst hn
    exact h.only k r ((KindChange.of_step? hs hm k).stood hr h.old) rfl
  rw [he] at hk
  cases hk with
  | put l hl hn hg =>
    apply Or.inr
    intro k r hr hx
    rw [honly k r hr hx, hl, Option.some.injEq] at hr
    have hnew : r.number = s.registrations := hr ▸ rfl
    have hold := h.old
    omega
  | remove hl hn =>
    apply Or.inr
    intro k r hr hx
    rw [honly k r hr hx, hl] at hr
    cases hr
  | go hl hn hg => exact .inl hg

theorem Left.step (h : s.Left number) (hs : s.Sound V vendor) (hm : s.step? V m = some t) :
    t.Left number := by
  apply Left.mk
  case absent =>
    rcases h.absent with hg | ha
    · exact .inl (gone_of_step? hg hm).1
    · apply Or.inr
      rintro k r hr rfl
      exact ha k r ((KindChange.of_step? hs hm k).stood hr h.old) rfl
  case old => exact Nat.lt_of_lt_of_le h.old (registrations_le_of_step? hs hm)

theorem Attached.given (h : s.Attached kind number) (hm : s.step? V m = some t) :
    t.given number =
      s.given number ++ (s.dispatched? m).toList.filter fun n => n.kind = kind := by
  rw [given_of_step? number hm]
  apply congrArg (s.given number ++ ·)
  apply List.filter_congr
  intro n _
  rw [Bool.eq_iff_iff, has_number_iff, decide_eq_true_iff]
  constructor
  · rintro ⟨r, hr, hn⟩
    exact h.only n.kind r hr hn
  · intro hn
    obtain ⟨l, hl⟩ := h.stands
    exact ⟨⟨number, l⟩, hn ▸ hl, rfl⟩

theorem Left.given (h : s.Left number) (hm : s.step? V m = some t) :
    t.given number = s.given number := by
  have hnone : ((s.dispatched? m).toList.filter fun n =>
      (s.listeners.find? n.kind).any fun r => r.number == number) = [] := by
    rcases h.absent with hg | ha
    · rw [(gone_of_step? hg hm).2]
      rfl
    · rw [List.filter_eq_nil_iff]
      intro n _ hn
      obtain ⟨r, hr, hn⟩ := has_number_iff.1 hn
      exact ha n.kind r hr hn
  rw [given_of_step? number hm, hnone, List.append_nil]

/-- The moves that come before the first one that ends what was registered for a kind. -/
def upTo (V : Vendor σ) (kind : EventKind) : Session σ → List Move → List Move
  | _, [] => []
  | s, m :: ms =>
    if s.ends kind m then []
    else m :: ((s.step? V m).map fun t => upTo V kind t ms).getD []

/-- All that the pump takes out of the mailbox in a run. -/
def dispatched (V : Vendor σ) : Session σ → List Move → List Notification
  | _, [] => []
  | s, m :: ms =>
    (s.dispatched? m).toList ++ ((s.step? V m).map fun t => dispatched V t ms).getD []

theorem upTo_cons (V : Vendor σ) (h : s.step? V m = some t) :
    s.upTo V kind (m :: ms) = if s.ends kind m then [] else m :: t.upTo V kind ms := by
  rw [upTo, h]
  rfl

theorem dispatched_cons (h : s.step? V m = some t) :
    s.dispatched V (m :: ms) = (s.dispatched? m).toList ++ t.dispatched V ms := by
  rw [dispatched, h]
  rfl

theorem drained_of_run (hr : s.run V ms = some t) :
    t.drained.map (·.1) = s.drained.map (·.1) ++ s.dispatched V ms := by
  induction ms generalizing s with
  | nil =>
    cases hr
    exact (List.append_nil _).symm
  | cons m ms ih =>
    obtain ⟨u, hm, hr⟩ := step_and_run hr
    rw [ih hr, drained_of_step? hm, dispatched_cons hm, List.map_append, List.append_assoc]
    cases s.dispatched? m <;> rfl

theorem Numbered.run (h : s.Numbered) (hs : s.Sound V vendor) (hr : s.run V ms = some t) :
    t.Numbered := by
  have hinv : t.Sound V vendor ∧ t.Numbered :=
    step_induction (P := fun u => u.Sound V vendor ∧ u.Numbered)
      (fun u m v hu hm => ⟨hu.1.change (.of_step? hm), hu.2.step hu.1 hm⟩) hr ⟨hs, h⟩
  exact hinv.2

theorem Left.run (h : s.Left number) (hs : s.Sound V vendor) (hr : s.run V ms = some t) :
    t.Left number ∧ t.given number = s.given number := by
  have hinv : t.Sound V vendor ∧ t.Left number ∧ t.given number = s.given number := by
    apply step_induction
      (P := fun u => u.Sound V vendor ∧ u.Left number ∧ u.given number = s.given number) ?_ hr
      ⟨hs, h, rfl⟩
    rintro u m v ⟨hs, hl, hg⟩ hm
    exact ⟨hs.change (.of_step? hm), hl.step hs hm, (hl.given hm).trans hg⟩
  exact hinv.2

/-- A registration is given the notifications of its kind that are dispatched up to the first move
that ends it, and none after. -/
theorem Attached.run (h : s.Attached kind number) (hs : s.Sound V vendor)
    (hr : s.run V ms = some t) :
    t.given number =
        s.given number ++ (s.dispatched V (s.upTo V kind ms)).filter (fun n => n.kind = kind) ∧
      ((s.upTo V kind ms = ms ∧ t.Attached kind number) ∨
        (s.upTo V kind ms ≠ ms ∧ t.Left number)) := by
  induction ms generalizing s with
  | nil =>
    cases hr
    exact ⟨(List.append_nil _).symm, .inl ⟨rfl, h⟩⟩
  | cons m ms ih =>
    obtain ⟨u, hm, hr⟩ := step_and_run hr
    have hu : u.Sound V vendor := hs.change (.of_step? hm)
    rw [upTo_cons V hm]
    cases he : s.ends kind m with
    | true =>
      have hleft := h.leave hs hm he
      obtain ⟨ht, hg⟩ := hleft.run hu hr
      rw [if_pos rfl]
      refine ⟨?_, .inr ⟨(List.cons_ne_nil m ms).symm, ht⟩⟩
      rw [hg, h.given hm, not_dispatched_of_ends he]
      rfl
    | false =>
      have hkeep := h.keep hs hm he
      obtain ⟨hg, ht⟩ := ih hkeep hu hr
      rw [if_neg Bool.false_ne_true, dispatched_cons hm, List.filter_append, hg, h.given hm,
        List.append_assoc]
      refine ⟨rfl, ?_⟩
      rw [Ne, List.cons_inj_right]
      exact ht

/-- A listener that does nothing, so that what it is given is done with at the next step. -/
structure Silent (s : Session σ) (number : Nat) : Prop where
  listeners : ∀ kind r, s.listeners.find? kind = some r → r.number = number →
    r.listener.rounds = []
  acts : ∀ count n r acts answers, s.pump = .dispatching count n r acts answers →
    r.number = number → acts = []
  old : number < s.registrations

theorem Silent.step (h : s.Silent number) (hs : s.Sound V vendor) (hm : s.step? V m = some t) :
    t.Silent number := by
  apply Silent.mk
  case listeners =>
    rintro k r hr rfl
    exact h.listeners k r ((KindChange.of_step? hs hm k).stood hr h.old) rfl
  case acts =>
    intro count n r acts answers hp hn
    cases Change.of_step? hm with
    | host t hu => exact h.acts count n r acts answers (hu.frame.1.symm.trans hp) hn
    | dispatch count' n' m r' log hp' hm' hl =>
      cases hp
      rw [Listener.acts, h.listeners _ r hl hn]
      rfl
    | continueDispatch count' n' r' act acts' answers' answers'' u hp' hu =>
      cases hp
      have hno := h.acts _ _ _ _ _ hp' hn
      cases hno
    | endCompletion sub outcome acts' answers' answers'' log t hp' he =>
      cases he <;> cases hp
    | endDrain count' log t hp' hm' he => cases he <;> cases hp
    | _ => first | cases hp | exact h.acts count n r acts answers hp hn
  case old => exact Nat.lt_of_lt_of_le h.old (registrations_le_of_step? hs hm)

theorem Silent.run (h : s.Silent number) (hs : s.Sound V vendor) (hr : s.run V ms = some t) :
    t.Silent number := by
  have hinv : t.Sound V vendor ∧ t.Silent number :=
    step_induction (P := fun u => u.Sound V vendor ∧ u.Silent number)
      (fun u m v hu hm => ⟨hu.1.change (.of_step? hm), hu.2.step hu.1 hm⟩) hr ⟨hs, h⟩
  exact hinv.2

theorem Numbered.registered (h : s.Numbered) (hs : s.Sound V vendor) {l : Listener}
    (hr : s.registration? m = some (kind, l)) (hm : s.step? V m = some t) :
    t.Attached kind s.registrations ∧ t.given s.registrations = [] ∧
      (l.rounds = [] → t.Silent s.registrations) := by
  have hstands := registered_of_step? hr hm
  have honly (k : EventKind) (r : Registration) (hk : t.listeners.find? k = some r)
      (hn : r.number = s.registrations) : k = kind ∧ r = ⟨s.registrations, l⟩ := by
    have hw := within_of_step? hm k r hk
    rw [hr, registering, Listeners.find?_register] at hw
    split at hw
    · rename_i he
      exact ⟨he.symm, (Option.some.inj hw).symm⟩
    · have hlt := h.listeners k r hw
      omega
  have hgiven : t.given s.registrations = [] := by
    rw [given, List.filterMap_eq_nil_iff]
    rintro ⟨n, r?⟩ hx
    cases r? with
    | none => rfl
    | some r =>
      have hlt := h.number_lt hm hx
      simp only [Option.any_some, beq_iff_eq, Nat.ne_of_lt hlt, if_false]
  have hnot : t.listeners.find? kind ≠ s.listeners.find? kind := by
    intro he
    have hlt := h.listeners kind _ (he ▸ hstands)
    exact Nat.lt_irrefl _ hlt
  have hnew : t.registrations = s.registrations + 1 ∧ t.isGone = false := by
    have hk := KindChange.of_step? hs hm kind
    generalize s.ends kind m = ended at hk
    cases hk with
    | keep hl hn hg => exact absurd hl hnot
    | put l' hl hn hg => exact ⟨hn, hg⟩
    | remove hl hn =>
      rw [hl] at hstands
      cases hstands
    | go hl hn hg => exact absurd hl hnot
  have hold : s.registrations < t.registrations := by omega
  refine ⟨⟨⟨l, hstands⟩, fun k r hk hn => (honly k r hk hn).1, hold, hnew.2⟩, hgiven, ?_⟩
  intro hrounds
  apply Silent.mk
  case listeners =>
    intro k r hk hn
    rw [(honly k r hk hn).2]
    exact hrounds
  case acts =>
    intro count n r acts answers hp hn
    have hx : (n, some r) ∈ t.drained := by
      rw [Session.drained, hp]
      exact List.mem_append_right _ (List.mem_singleton_self _)
    exact absurd hn (Nat.ne_of_lt (h.number_lt hm hx))
  case old => exact hold

end MarketFeed.Session
