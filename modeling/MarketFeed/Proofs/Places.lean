import Mathlib.Data.List.Basic

namespace MarketFeed

variable {β γ : Type} {l : List β} {i j : Nat} {b b' : β}

theorem getElem?_set_cases (h : (l.set i b')[j]? = some b) :
    (i = j ∧ b = b') ∨ (i ≠ j ∧ l[j]? = some b) := by
  by_cases hij : i = j
  · subst hij
    have hi : i < l.length := l.length_set ▸ (List.getElem?_eq_some_iff.1 h).1
    rw [List.getElem?_set_self hi] at h
    exact .inl ⟨rfl, (Option.some.inj h).symm⟩
  · rw [List.getElem?_set_ne hij] at h
    exact .inr ⟨hij, h⟩

theorem getElem?_concat_cases (h : (l ++ [b'])[j]? = some b) :
    l[j]? = some b ∨ (j = l.length ∧ b = b') := by
  rcases Nat.lt_trichotomy j l.length with hlt | rfl | hgt
  · rw [List.getElem?_append_left hlt] at h
    exact .inl h
  · rw [List.getElem?_concat_length] at h
    exact .inr ⟨rfl, (Option.some.inj h).symm⟩
  · rw [List.getElem?_eq_none (by rw [List.length_append]; exact hgt)] at h
    cases h

theorem set_concat_length (l : List β) (b b' : β) : (l ++ [b]).set l.length b' = l ++ [b'] := by
  rw [List.set_append_right _ _ (Nat.le_refl _), Nat.sub_self]
  rfl

theorem map_set_of_eq (h : l[i]? = some b) {f : β → γ} (hf : f b' = f b) :
    (l.set i b').map f = l.map f := by
  obtain ⟨hi, rfl⟩ := List.getElem?_eq_some_iff.1 h
  rw [List.map_set, hf, ← List.getElem_map f (h := by rwa [List.length_map]), List.set_getElem_self]

theorem countP_cons_eq_add (f : β → Bool) (b : β) (l : List β) :
    (b :: l).countP f = l.countP f + (f b).toNat := by
  rw [List.countP_cons]
  cases f b <;> rfl

theorem countP_set_add (h : l[i]? = some b) (f : β → Bool) (b' : β) :
    (l.set i b').countP f + (f b).toNat = l.countP f + (f b').toNat := by
  induction l generalizing i with
  | nil => cases h
  | cons x l ih =>
    rw [countP_cons_eq_add]
    cases i with
    | zero =>
      cases h
      rw [List.set_cons_zero, countP_cons_eq_add, Nat.add_right_comm]
    | succ i =>
      rw [List.set_cons_succ, countP_cons_eq_add, Nat.add_right_comm, ih h, Nat.add_right_comm]

theorem countP_set_le (h : l[i]? = some b) {f : β → Bool} (hf : f b' = true → f b = true) :
    (l.set i b').countP f ≤ l.countP f := by
  have hset := countP_set_add h f b'
  have hle : (f b').toNat ≤ (f b).toNat := by
    cases hb' : f b' with
    | false => exact Nat.zero_le _
    | true => exact Nat.le_of_eq (congrArg Bool.toNat (hf hb').symm)
  omega

theorem le_countP_set (h : l[i]? = some b) {f : β → Bool} (hf : f b = true → f b' = true) :
    l.countP f ≤ (l.set i b').countP f := by
  have hset := countP_set_add h f b'
  have hle : (f b).toNat ≤ (f b').toNat := by
    cases hb : f b with
    | false => exact Nat.zero_le _
    | true => exact Nat.le_of_eq (congrArg Bool.toNat (hf hb).symm)
  omega

theorem countP_pos_of_getElem? {f : β → Bool} (h : l[i]? = some b) (hb : f b = true) :
    0 < l.countP f := List.countP_pos_iff.2 ⟨b, List.mem_of_getElem? h, hb⟩

/-- What is there at most once is in one place. -/
theorem eq_of_countP_le_one {f : β → Bool} (h : l.countP f ≤ 1) (hi : l[i]? = some b)
    (hj : l[j]? = some b') (hb : f b = true) (hb' : f b' = true) : i = j := by
  induction l generalizing i j with
  | nil => cases hi
  | cons x l ih =>
    rw [countP_cons_eq_add] at h
    cases i with
    | zero =>
      cases j with
      | zero => rfl
      | succ j =>
        cases hi
        have := countP_pos_of_getElem? (l := l) hj hb'
        rw [hb, Bool.toNat_true] at h
        omega
    | succ i =>
      cases j with
      | zero =>
        cases hj
        have := countP_pos_of_getElem? (l := l) hi hb
        rw [hb', Bool.toNat_true] at h
        omega
      | succ j => exact congrArg Nat.succ (ih (Nat.le_trans (Nat.le_add_right _ _) h) hi hj)

end MarketFeed
