import Mathlib.Data.List.Forall2
import Mathlib.Data.List.Induction

namespace MarketFeed.Queue

variable {α : Type}

/-- What comes from one source, in a list of items with the numbers of their sources. -/
def share (n : Nat) (xs : List (Nat × α)) : List α := (xs.filter (·.1 = n)).map (·.2)

theorem share_append (n : Nat) (xs ys : List (Nat × α)) :
    share n (xs ++ ys) = share n xs ++ share n ys := by
  rw [share, List.filter_append, List.map_append]
  rfl

theorem share_marked (n : Nat) (as : List α) : share n (as.map (n, ·)) = as := by
  rw [share, List.filter_eq_self.2, List.map_map]
  · exact List.map_id _
  · intro x hx
    obtain ⟨a, -, rfl⟩ := List.mem_map.1 hx
    exact decide_eq_true rfl

theorem share_eq_nil {n : Nat} {xs : List (Nat × α)} (h : ∀ x ∈ xs, x.1 ≠ n) :
    share n xs = [] := by
  rw [share, List.map_eq_nil_iff, List.filter_eq_nil_iff]
  exact fun x hx he => h x hx (of_decide_eq_true he)

theorem share_marked_of_ne {n m : Nat} (h : m ≠ n) (as : List α) :
    share n (as.map (m, ·)) = [] := by
  apply share_eq_nil
  intro x hx
  obtain ⟨a, -, rfl⟩ := List.mem_map.1 hx
  exact h

/-- A list that several others make up, each kept in its order: its items can be marked with the
numbers of the lists they come from. -/
def Interleaves (lists : List (List α)) (l : List α) : Prop :=
  ∃ xs : List (Nat × α), xs.map (·.2) = l ∧ (∀ x ∈ xs, x.1 < lists.length) ∧
    ∀ n as, lists[n]? = some as → share n xs = as

variable {lists : List (List α)} {l : List α}

theorem Interleaves.concat (h : Interleaves lists l) (as : List α) :
    Interleaves (lists ++ [as]) (l ++ as) := by
  obtain ⟨xs, rfl, hlt, hshare⟩ := h
  refine ⟨xs ++ as.map (lists.length, ·), ?_, ?_, ?_⟩
  · rw [List.map_append, List.map_map]
    exact congrArg _ (List.map_id _)
  · intro x hx
    rw [List.length_append]
    rcases List.mem_append.1 hx with hx | hx
    · exact Nat.lt_add_right 1 (hlt x hx)
    · obtain ⟨a, -, rfl⟩ := List.mem_map.1 hx
      exact Nat.lt_add_one _
  · intro n bs hn
    rw [share_append]
    rcases Nat.lt_trichotomy n lists.length with hlt' | rfl | hgt
    · rw [List.getElem?_append_left hlt'] at hn
      rw [hshare n bs hn, share_marked_of_ne (Nat.ne_of_gt hlt'), List.append_nil]
    · rw [List.getElem?_concat_length] at hn
      cases hn
      rw [share_marked, share_eq_nil fun x hx => Nat.ne_of_lt (hlt x hx), List.nil_append]
    · rw [List.getElem?_eq_none (by rw [List.length_append]; exact hgt)] at hn
      cases hn

theorem interleaves_flatten (lists : List (List α)) : Interleaves lists lists.flatten := by
  induction lists using List.reverseRecOn with
  | nil => exact ⟨[], rfl, nofun, nofun⟩
  | append_singleton lists as ih =>
    rw [List.flatten_append, List.flatten_singleton]
    exact ih.concat as

theorem share_eq_getD {xs : List (Nat × α)} (hlt : ∀ x ∈ xs, x.1 < lists.length)
    (hshare : ∀ n as, lists[n]? = some as → share n xs = as) (n : Nat) :
    share n xs = lists[n]?.getD [] := by
  cases hn : lists[n]? with
  | some as => exact hshare n as hn
  | none =>
    apply share_eq_nil
    rintro x hx rfl
    rw [List.getElem?_eq_getElem (hlt x hx)] at hn
    cases hn

def Owned (owner : α → Nat) (lists : List (List α)) : Prop :=
  ∀ n as, lists[n]? = some as → ∀ a ∈ as, owner a = n

variable {owner : α → Nat}

theorem Interleaves.filter_eq (h : Interleaves lists l) (ho : Owned owner lists) (n : Nat) :
    l.filter (owner · = n) = lists[n]?.getD [] := by
  obtain ⟨xs, rfl, hlt, hshare⟩ := h
  have howner : ∀ x ∈ xs, owner x.2 = x.1 := by
    intro x hx
    have hget := List.getElem?_eq_getElem (hlt x hx)
    have hmem : x.2 ∈ share x.1 xs :=
      List.mem_map_of_mem (List.mem_filter.2 ⟨hx, decide_eq_true rfl⟩)
    rw [hshare _ _ hget] at hmem
    exact ho _ _ hget _ hmem
  have hfilter : (xs.map (·.2)).filter (owner · = n) = share n xs := by
    rw [List.filter_map, share]
    congr 1
    apply List.filter_congr
    intro x hx
    rw [Function.comp_apply, howner x hx]
  rw [hfilter, share_eq_getD hlt hshare]

theorem filter_cons_of_owner {a : α} {n : Nat} (h : owner a = n) (l : List α) :
    (a :: l).filter (owner · = n) = a :: l.filter (owner · = n) :=
  List.filter_cons_of_pos (decide_eq_true h)

theorem filter_cons_of_not_owner {a : α} {n : Nat} (h : owner a ≠ n) (l : List α) :
    (a :: l).filter (owner · = n) = l.filter (owner · = n) :=
  List.filter_cons_of_neg fun hd => h (of_decide_eq_true hd)

theorem mem_of_filter_eq {l₁ l₂ : List α} {a : α} (ha : a ∈ l₁)
    (h : ∀ n, l₁.filter (owner · = n) = l₂.filter (owner · = n)) : a ∈ l₂ := by
  have hf : a ∈ l₁.filter (owner · = owner a) := List.mem_filter.2 ⟨ha, decide_eq_true rfl⟩
  rw [h] at hf
  exact (List.mem_filter.1 hf).1

/-- Of the lists that are sorted by a key, only one has given items of each key in their order. -/
theorem eq_of_filter_eq {l₁ l₂ : List α} (h₁ : l₁.Pairwise (owner · ≤ owner ·))
    (h₂ : l₂.Pairwise (owner · ≤ owner ·))
    (h : ∀ n, l₁.filter (owner · = n) = l₂.filter (owner · = n)) : l₁ = l₂ := by
  induction l₁ generalizing l₂ with
  | nil =>
    cases l₂ with
    | nil => rfl
    | cons b l₂ => exact nomatch mem_of_filter_eq List.mem_cons_self fun n => (h n).symm
  | cons a l₁ ih =>
    cases l₂ with
    | nil => exact nomatch mem_of_filter_eq List.mem_cons_self h
    | cons b l₂ =>
      obtain ⟨hle₁, hp₁⟩ := List.pairwise_cons.1 h₁
      obtain ⟨hle₂, hp₂⟩ := List.pairwise_cons.1 h₂
      -- each head is somewhere in the other list, so their keys are the same
      have hab : owner a = owner b := by
        apply Nat.le_antisymm
        · rcases List.mem_cons.1 (mem_of_filter_eq List.mem_cons_self fun n => (h n).symm) with
            rfl | hb
          · exact Nat.le_refl _
          · exact hle₁ b hb
        · rcases List.mem_cons.1 (mem_of_filter_eq List.mem_cons_self h) with rfl | ha
          · exact Nat.le_refl _
          · exact hle₂ a ha
      obtain ⟨rfl, -⟩ : a = b ∧ _ := by
        have hn := h (owner b)
        rw [filter_cons_of_owner hab, filter_cons_of_owner rfl] at hn
        exact List.cons.inj hn
      refine congrArg (a :: ·) (ih hp₁ hp₂ fun n => ?_)
      have hn := h n
      by_cases ha : owner a = n
      · rw [filter_cons_of_owner ha, filter_cons_of_owner ha] at hn
        exact (List.cons.inj hn).2
      · rwa [filter_cons_of_not_owner ha, filter_cons_of_not_owner ha] at hn

theorem pairwise_flatten_of_owned (ho : Owned owner lists) :
    lists.flatten.Pairwise (owner · ≤ owner ·) := by
  rw [List.pairwise_flatten]
  constructor
  · intro as has
    obtain ⟨n, hn⟩ := List.mem_iff_getElem?.1 has
    exact List.pairwise_of_forall_mem_list fun a ha b hb =>
      Nat.le_of_eq ((ho n as hn a ha).trans (ho n as hn b hb).symm)
  · rw [List.pairwise_iff_getElem]
    intro i j hi hj hij a ha b hb
    rw [ho i _ (List.getElem?_eq_getElem hi) a ha, ho j _ (List.getElem?_eq_getElem hj) b hb]
    exact Nat.le_of_lt hij

def inOrder (owner : α → Nat) (a b : α) : Bool := owner a ≤ owner b

theorem inOrder_trans (owner : α → Nat) (a b c : α) (hab : inOrder owner a b = true)
    (hbc : inOrder owner b c = true) : inOrder owner a c = true :=
  decide_eq_true (Nat.le_trans (of_decide_eq_true hab) (of_decide_eq_true hbc))

theorem inOrder_total (owner : α → Nat) (a b : α) :
    (inOrder owner a b || inOrder owner b a) = true := by
  rw [Bool.or_eq_true, inOrder, inOrder, decide_eq_true_iff, decide_eq_true_iff]
  exact Nat.le_total _ _

theorem pairwise_mergeSort_inOrder (owner : α → Nat) (l : List α) :
    (l.mergeSort (inOrder owner)).Pairwise (owner · ≤ owner ·) :=
  (List.pairwise_mergeSort (inOrder_trans owner) (inOrder_total owner) l).imp of_decide_eq_true

theorem filter_mergeSort_inOrder (owner : α → Nat) (l : List α) (n : Nat) :
    (l.mergeSort (inOrder owner)).filter (owner · = n) = l.filter (owner · = n) := by
  have hpair : (l.filter (owner · = n)).Pairwise fun a b => inOrder owner a b = true := by
    apply List.pairwise_of_forall_mem_list
    intro a ha b hb
    have ha := of_decide_eq_true (List.mem_filter.1 ha).2
    have hb := of_decide_eq_true (List.mem_filter.1 hb).2
    exact decide_eq_true (Nat.le_of_eq (ha.trans hb.symm))
  have hsub : (l.filter (owner · = n)).Sublist (l.mergeSort (inOrder owner)) :=
    List.sublist_mergeSort (inOrder_trans owner) (inOrder_total owner) hpair List.filter_sublist
  have hperm := (List.mergeSort_perm l (inOrder owner)).filter (owner · = n)
  have hfilter := hsub.filter (owner · = n)
  simp only [List.filter_filter, Bool.and_self] at hfilter
  exact (hfilter.eq_of_length hperm.length_eq.symm).symm

/-- A stable sort by the source takes an interleaving apart. -/
theorem Interleaves.mergeSort_eq (h : Interleaves lists l) (ho : Owned owner lists) :
    l.mergeSort (inOrder owner) = lists.flatten := by
  apply eq_of_filter_eq (pairwise_mergeSort_inOrder owner l) (pairwise_flatten_of_owned ho)
  intro n
  rw [filter_mergeSort_inOrder, h.filter_eq ho, (interleaves_flatten lists).filter_eq ho]

theorem filter_eq_map_share (n : Nat) (xs : List (Nat × α)) :
    xs.filter (·.1 = n) = (share n xs).map (n, ·) := by
  rw [share, List.map_map]
  refine (List.map_id _).symm.trans (List.map_congr_left fun x hx => ?_)
  have hn : x.1 = n := of_decide_eq_true (List.mem_filter.1 hx).2
  rw [← hn]
  rfl

theorem perm_of_share_eq {xs ys : List (Nat × α)} (h : ∀ n, share n xs = share n ys) :
    xs.Perm ys := by
  have hsort : xs.mergeSort (inOrder Prod.fst) = ys.mergeSort (inOrder Prod.fst) := by
    apply eq_of_filter_eq (pairwise_mergeSort_inOrder _ xs) (pairwise_mergeSort_inOrder _ ys)
    intro n
    rw [filter_mergeSort_inOrder, filter_mergeSort_inOrder, filter_eq_map_share,
      filter_eq_map_share, h]
  have hys := List.mergeSort_perm ys (inOrder Prod.fst)
  rw [← hsort] at hys
  exact (List.mergeSort_perm xs (inOrder Prod.fst)).symm.trans hys

theorem Interleaves.perm (h : Interleaves lists l) : l.Perm lists.flatten := by
  obtain ⟨xs, rfl, hx⟩ := h
  obtain ⟨ys, he, hy⟩ := interleaves_flatten lists
  rw [← he]
  refine (perm_of_share_eq fun n => ?_).map _
  rw [share_eq_getD hx.1 hx.2, share_eq_getD hy.1 hy.2]

theorem Interleaves.of_append {l' : List α} (h : Interleaves lists (l ++ l')) :
    ∃ parts, List.Forall₂ (· <+: ·) parts lists ∧ Interleaves parts l := by
  obtain ⟨xs, he, hlt, hshare⟩ := h
  obtain ⟨ys, zs, rfl, rfl, rfl⟩ := List.map_eq_append_iff.1 he
  have hlen : ((List.range lists.length).map (share · ys)).length = lists.length := by
    rw [List.length_map, List.length_range]
  refine ⟨(List.range lists.length).map (share · ys), ?_, ys, rfl, ?_, ?_⟩
  · rw [List.forall₂_iff_get]
    refine ⟨hlen, fun n _ hn => ?_⟩
    rw [List.get_eq_getElem, List.get_eq_getElem, List.getElem_map, List.getElem_range,
      ← hshare n _ (List.getElem?_eq_getElem hn), share_append]
    exact List.prefix_append _ _
  · intro x hx
    rw [hlen]
    exact hlt x (List.mem_append_left _ hx)
  · intro n as hn
    rw [List.getElem?_map, Option.map_eq_some_iff] at hn
    obtain ⟨m, hm, rfl⟩ := hn
    rw [(List.getElem?_eq_some_iff.1 hm).2.symm, List.getElem_range]

end MarketFeed.Queue
