import MarketFeed.Vendor
import Mathlib.Data.List.Induction

namespace MarketFeed.Vendor

namespace Call

def isCreate : Call → Bool
  | create _ => true
  | _ => false

/-- Calls that make sense only on a handle that was started. -/
def needsStart : Call → Bool
  | tradingDay | subscribe .. | unsubscribe .. | login .. | logout .. => true
  | _ => false

end Call

namespace Exchange

def opens : Exchange → Bool
  | ⟨.create _, .returned (.ok _)⟩ => true
  | _ => false

def starts : Exchange → Bool
  | ⟨.init, .returned _⟩ => true
  | _ => false

def closes : Exchange → Bool
  | ⟨.release, _⟩ => true
  | _ => false

theorem isCreate_of_opens {e : Exchange} (h : e.opens = true) : e.call.isCreate = true := by
  obtain ⟨c, r⟩ := e
  cases c <;> first | rfl | cases h

theorem not_isCreate_of_closes {e : Exchange} (h : e.closes = true) :
    e.call.isCreate = false := by
  obtain ⟨c, r⟩ := e
  cases c <;> first | rfl | cases h

end Exchange

/-- One handle at most is ever created, it is used only between its creation and its release, and
what needs the gateway's own thread comes after a start that returned. -/
structure HandleProtocol (es : List Exchange) : Prop where
  opened_once : es.countP Exchange.opens ≤ 1
  closed_once : es.countP Exchange.closes ≤ 1
  opened_before : ∀ before e after, es = before ++ e :: after → e.call.isCreate = false →
    ∃ x ∈ before, x.opens = true
  open_before : ∀ before e after, es = before ++ e :: after → e.call.isCreate = false →
    ∀ x ∈ before, x.closes = false
  started_before : ∀ before e after, es = before ++ e :: after → e.call.needsStart = true →
    ∃ x ∈ before, x.starts = true

/-- A call is forbidden if the protocol would be broken by one of the ways in which it can end. -/
def Forbidden (es : List Exchange) (c : Call) : Prop :=
  ∃ r : Reply c.Answer, ¬ HandleProtocol (es ++ [⟨c, r⟩])

def permits (es : List Exchange) (c : Call) : Bool :=
  if c.isCreate then !es.any Exchange.opens
  else es.any Exchange.opens && !es.any Exchange.closes &&
    (!c.needsStart || es.any Exchange.starts)

theorem handleProtocol_nil : HandleProtocol [] where
  opened_once := Nat.zero_le _
  closed_once := Nat.zero_le _
  opened_before before _ _ h := by simp at h
  open_before before _ _ h := by simp at h
  started_before before _ _ h := by simp at h

theorem not_isCreate_of_needsStart {c : Call} (h : c.needsStart = true) : c.isCreate = false := by
  cases c <;> first | rfl | cases h

theorem permits_create {es : List Exchange} {c : Call} (hc : c.isCreate = true) :
    permits es c = true ↔ ∀ x ∈ es, x.opens = false := by
  simp only [permits, hc, if_true, Bool.not_eq_true', List.any_eq_false, Bool.not_eq_true]

theorem permits_other {es : List Exchange} {c : Call} (hc : c.isCreate = false) :
    permits es c = true ↔
      (∃ x ∈ es, x.opens = true) ∧ (∀ x ∈ es, x.closes = false) ∧
        (c.needsStart = true → ∃ x ∈ es, x.starts = true) := by
  cases hn : c.needsStart <;>
    simp [permits, hc, hn, and_assoc]

theorem snoc_eq_append_cons {α : Type} {xs before after : List α} {a x : α}
    (h : xs ++ [a] = before ++ x :: after) :
    (before = xs ∧ x = a) ∨ ∃ rest, xs = before ++ x :: rest := by
  cases after using List.reverseRecOn with
  | nil =>
    obtain ⟨h₁, h₂⟩ := List.append_inj' h rfl
    exact .inl ⟨h₁.symm, (List.singleton_inj.1 h₂).symm⟩
  | append_singleton rest y =>
    rw [← List.cons_append, ← List.append_assoc] at h
    exact .inr ⟨rest, (List.append_inj' h rfl).1⟩

theorem countP_eq_zero {p : Exchange → Bool} {es : List Exchange} (h : ∀ x ∈ es, p x = false) :
    es.countP p = 0 :=
  List.countP_eq_zero.2 fun x hx => Bool.eq_false_iff.1 (h x hx)

theorem HandleProtocol.snoc {es : List Exchange} {e : Exchange} (h : HandleProtocol es)
    (hp : permits es e.call = true) : HandleProtocol (es ++ [e]) where
  opened_once := by
    rw [List.countP_append, List.countP_singleton]
    cases ho : e.opens with
    | false => exact h.opened_once
    | true =>
      have hz := countP_eq_zero ((permits_create (Exchange.isCreate_of_opens ho)).1 hp)
      rw [hz]
      decide
  closed_once := by
    rw [List.countP_append, List.countP_singleton]
    cases ho : e.closes with
    | false => exact h.closed_once
    | true =>
      have hz := countP_eq_zero ((permits_other (Exchange.not_isCreate_of_closes ho)).1 hp).2.1
      rw [hz]
      decide
  opened_before before x after hs hc := by
    rcases snoc_eq_append_cons hs with ⟨rfl, rfl⟩ | ⟨rest, he⟩
    · exact ((permits_other hc).1 hp).1
    · exact h.opened_before before x rest he hc
  open_before before x after hs hc := by
    rcases snoc_eq_append_cons hs with ⟨rfl, rfl⟩ | ⟨rest, he⟩
    · exact ((permits_other hc).1 hp).2.1
    · exact h.open_before before x rest he hc
  started_before before x after hs hc := by
    rcases snoc_eq_append_cons hs with ⟨rfl, rfl⟩ | ⟨rest, he⟩
    · exact ((permits_other (not_isCreate_of_needsStart hc)).1 hp).2.2 hc
    · exact h.started_before before x rest he hc

theorem forbidden_iff {es : List Exchange} (h : HandleProtocol es) (c : Call) :
    Forbidden es c ↔ permits es c = false := by
  apply Iff.intro
  · rintro ⟨r, hr⟩
    cases hp : permits es c with
    | false => rfl
    | true => exact absurd (h.snoc (e := ⟨c, r⟩) hp) hr
  · intro hp
    cases hc : c.isCreate with
    | true =>
      cases c with
      | create flowDir =>
        apply Exists.intro (.returned (.ok ()))
        intro hx
        have hn : ¬ ∀ x ∈ es, x.opens = false := by
          intro ha
          rw [(permits_create hc).2 ha] at hp
          cases hp
        have hpos : 0 < es.countP Exchange.opens := by
          apply Nat.pos_of_ne_zero
          intro hz
          exact hn fun x hx => Bool.eq_false_iff.2 (List.countP_eq_zero.1 hz x hx)
        have hle := hx.opened_once
        simp only [List.countP_append, List.countP_singleton, Exchange.opens, if_true] at hle
        omega
      | _ => cases hc
    | false =>
      apply Exists.intro (.panicked .other)
      intro hx
      have ho := hx.opened_before es ⟨c, _⟩ [] rfl hc
      have hcl := hx.open_before es ⟨c, _⟩ [] rfl hc
      have hst := hx.started_before es ⟨c, _⟩ [] rfl
      rw [(permits_other hc).2 ⟨ho, hcl, hst⟩] at hp
      cases hp

end MarketFeed.Vendor
