import MarketFeed.Json.Lexer

namespace MarketFeed.Json

theorem Digit.ofChar?_toChar (d : Digit) : Digit.ofChar? d.toChar = some d := by
  revert d
  decide

theorem Digit.toChar_of_ofChar? {c : Char} {d : Digit} (h : Digit.ofChar? c = some d) :
    d.toChar = c := by
  rw [Digit.ofChar?] at h
  split at h
  · rename_i hc
    cases h
    rw [Digit.toChar, Nat.add_sub_cancel' hc.1, Char.ofNat_toNat]
  · cases h

theorem spanDigits_map_toChar (ds : List Digit) : spanDigits (ds.map Digit.toChar) = (ds, []) := by
  induction ds with
  | nil => rfl
  | cons d ds ih => simp only [List.map_cons, spanDigits, Digit.ofChar?_toChar, ih]

theorem appendDigits_append (n : Nat) (ds ds' : List Digit) :
    appendDigits n (ds ++ ds') = appendDigits (appendDigits n ds) ds' := List.foldl_append

theorem digitsOf_of_lt {n : Nat} (h : n < 10) : digitsOf n = [Fin.ofNat 10 n] := by
  rw [digitsOf, if_pos h]

theorem digitsOf_of_le {n : Nat} (h : 10 ≤ n) :
    digitsOf n = digitsOf (n / 10) ++ [Fin.ofNat 10 n] := by
  rw [digitsOf, if_neg (Nat.not_lt.2 h)]

theorem appendDigits_digitsOf (n : Nat) : appendDigits 0 (digitsOf n) = n := by
  induction n using Nat.strongRecOn with
  | ind n ih =>
    rcases Nat.lt_or_ge n 10 with h | h
    · rw [digitsOf_of_lt h]
      simp [appendDigits, Nat.mod_eq_of_lt h]
    · rw [digitsOf_of_le h, appendDigits_append, ih (n / 10) (by omega)]
      simp only [appendDigits, List.foldl_cons, List.foldl_nil, Fin.ofNat]
      omega

theorem exists_digitsOf (n : Nat) : ∃ d ds, digitsOf n = d :: ds ∧ (d = 0 → ds = []) := by
  induction n using Nat.strongRecOn with
  | ind n ih =>
    rcases Nat.lt_or_ge n 10 with h | h
    · exact ⟨_, [], digitsOf_of_lt h, fun _ => rfl⟩
    · obtain ⟨d, ds, he, hz⟩ := ih (n / 10) (by omega)
      refine ⟨d, ds ++ [Fin.ofNat 10 n], by rw [digitsOf_of_le h, he, List.cons_append], ?_⟩
      intro hd
      -- the digits of a positive number do not begin with zero
      have hv := appendDigits_digitsOf (n / 10)
      rw [he, hz hd, hd] at hv
      simp [appendDigits] at hv
      omega

namespace Lexer

theorem isNumberChar_of_digit {c : Char} {d : Digit} (h : Digit.ofChar? c = some d) :
    isNumberChar c = true := by
  simp [isNumberChar, h]

end Lexer

namespace Literal

open Lexer (isNumberChar isNumberChar_of_digit)

theorem chars_spanDigits {cs rest : List Char} {ds : List Digit} (h : spanDigits cs = (ds, rest)) :
    ∃ taken, cs = taken ++ rest ∧ taken.length = ds.length ∧
      ∀ c ∈ taken, (Digit.ofChar? c).isSome = true := by
  induction cs generalizing ds with
  | nil =>
    cases h
    exact ⟨[], rfl, rfl, fun _ hc => nomatch hc⟩
  | cons c cs ih =>
    rw [spanDigits] at h
    cases hd : Digit.ofChar? c with
    | none =>
      simp only [hd, Prod.mk.injEq] at h
      obtain ⟨rfl, rfl⟩ := h
      exact ⟨[], rfl, rfl, fun _ hc => nomatch hc⟩
    | some d =>
      simp only [hd, Prod.mk.injEq] at h
      obtain ⟨rfl, rfl⟩ := h
      obtain ⟨taken, he, hl, ht⟩ := ih rfl
      refine ⟨c :: taken, by rw [List.cons_append, ← he], by simp [hl], ?_⟩
      intro c' hc'
      rcases List.mem_cons.1 hc' with rfl | hc'
      · rw [hd]; rfl
      · exact ht c' hc'

theorem isNumberChar_of_spanDigits {cs rest : List Char} {ds : List Digit}
    (h : spanDigits cs = (ds, rest)) (hr : ∀ c ∈ rest, isNumberChar c = true) :
    ∀ c ∈ cs, isNumberChar c = true := by
  obtain ⟨taken, rfl, -, ht⟩ := chars_spanDigits h
  intro c hc
  rcases List.mem_append.1 hc with hc | hc
  · obtain ⟨d, hd⟩ := Option.isSome_iff_exists.1 (ht c hc)
    exact isNumberChar_of_digit hd
  · exact hr c hc

theorem isNumberChar_of_cons {c : Char} {cs : List Char} (hc : isNumberChar c = true)
    (h : ∀ c ∈ cs, isNumberChar c = true) : ∀ c' ∈ c :: cs, isNumberChar c' = true :=
  List.forall_mem_cons.2 ⟨hc, h⟩

theorem isNumberChar_of_readExponent? {cs : List Char} {e : Option Int}
    (h : readExponent? cs = some e) : ∀ c ∈ cs, isNumberChar c = true := by
  cases cs with
  | nil => exact fun _ hc => nomatch hc
  | cons c cs =>
    unfold readExponent? at h
    dsimp only at h
    split at h
    · rename_i hc
      have hcs : ∀ c ∈ cs, isNumberChar c = true := by
        have hn : ∀ c ∈ ([] : List Char), isNumberChar c = true := fun _ h => nomatch h
        split at h
        · rename_i hs
          split at hs
          · exact isNumberChar_of_cons (by decide) (isNumberChar_of_spanDigits hs hn)
          · exact isNumberChar_of_cons (by decide) (isNumberChar_of_spanDigits hs hn)
          · exact isNumberChar_of_spanDigits hs hn
        · cases h
      refine isNumberChar_of_cons ?_ hcs
      rcases hc with rfl | rfl <;> decide
    · cases h

theorem isNumberChar_of_readFraction? {cs rest : List Char} {ds : List Digit}
    (h : readFraction? cs = some (ds, rest)) (hr : ∀ c ∈ rest, isNumberChar c = true) :
    ∀ c ∈ cs, isNumberChar c = true := by
  rw [readFraction?.eq_def] at h
  split at h
  · rename_i cs
    split at h
    · rename_i d ds' rest' hs
      cases h
      exact isNumberChar_of_cons (by decide) (isNumberChar_of_spanDigits hs hr)
    · cases h
  · cases h
    exact hr

theorem chars_readUnsigned? {negative : Bool} {cs : List Char} {n : Literal}
    (h : readUnsigned? negative cs = some n) :
    (∀ c ∈ cs, isNumberChar c = true) ∧
      ∃ c rest, cs = c :: rest ∧ (Digit.ofChar? c).isSome = true := by
  rw [readUnsigned?] at h
  split at h
  · cases h
  · rename_i d ds rest hs
    split at h
    · cases h
    · obtain ⟨⟨fraction, rest'⟩, hf, h⟩ := Option.bind_eq_some_iff.1 h
      obtain ⟨e, he, -⟩ := Option.bind_eq_some_iff.1 h
      refine ⟨isNumberChar_of_spanDigits hs
        (isNumberChar_of_readFraction? hf (isNumberChar_of_readExponent? he)), ?_⟩
      obtain ⟨taken, rfl, hl, ht⟩ := chars_spanDigits hs
      cases taken with
      | nil => cases hl
      | cons c taken => exact ⟨c, taken ++ rest, rfl, ht c List.mem_cons_self⟩

/-- A literal begins with its sign or with a digit, and no other characters than those of numbers
stand in it. -/
theorem chars_ofChars? {cs : List Char} {n : Literal} (h : ofChars? cs = some n) :
    (∀ c ∈ cs, isNumberChar c = true) ∧
      ∃ c rest, cs = c :: rest ∧ (c = '-' ∨ (Digit.ofChar? c).isSome = true) := by
  rw [ofChars?.eq_def] at h
  split at h
  · rename_i cs
    exact ⟨isNumberChar_of_cons (by decide) (chars_readUnsigned? h).1, '-', cs, rfl, .inl rfl⟩
  · obtain ⟨hc, c, rest, he, hd⟩ := chars_readUnsigned? h
    exact ⟨hc, c, rest, he, .inr hd⟩

theorem readUnsigned?_digitsOf (negative : Bool) (n : Nat) :
    readUnsigned? negative ((digitsOf n).map Digit.toChar) =
      some ⟨negative, digitsOf n, [], none⟩ := by
  obtain ⟨d, ds, he, hz⟩ := exists_digitsOf n
  have hl : ¬(d = 0 ∧ ds ≠ []) := fun h => h.2 (hz h.1)
  rw [readUnsigned?, spanDigits_map_toChar, he]
  simp only [hl, if_false]
  rfl

theorem ofChars?_chars_ofInt (i : Int) : ofChars? (ofInt i).chars = some (ofInt i) := by
  have hc : (ofInt i).chars =
      (if i < 0 then ['-'] else []) ++ (digitsOf i.natAbs).map Digit.toChar := by
    simp [ofInt, chars]
  rw [hc]
  by_cases hi : i < 0
  · rw [if_pos hi, ofInt, decide_eq_true hi]
    exact readUnsigned?_digitsOf true i.natAbs
  · rw [if_neg hi, ofInt, decide_eq_false hi, List.nil_append, ofChars?.eq_def]
    split
    · rename_i cs he
      -- a digit is no sign
      obtain ⟨d, ds, hd, -⟩ := exists_digitsOf i.natAbs
      rw [hd, List.map_cons, List.cons.injEq] at he
      have := Digit.ofChar?_toChar d
      rw [he.1] at this
      cases this
    · exact readUnsigned?_digitsOf false i.natAbs

theorem toInt?_ofInt (i : Int) : (ofInt i).toInt? = some i := by
  have hf : ¬((ofInt i).fraction ≠ [] ∨ (ofInt i).exponent.isSome = true) := by simp [ofInt]
  rw [toInt?, if_neg hf]
  simp only [ofInt, appendDigits_digitsOf, decide_eq_true_eq]
  by_cases hi : i < 0
  · rw [if_pos hi, if_neg (by omega)]
    congr 1
    omega
  · rw [if_neg hi]
    congr 1
    omega

theorem toInt32?_ofInt (n : Int32) : (ofInt n.toInt).toInt32? = some n := by
  have hl := n.le_toInt
  have hu := n.toInt_lt
  rw [toInt32?, toInt?_ofInt, Option.bind_eq_bind, Option.bind_some, if_pos (by omega),
    Int32.ofInt_toInt]

end Literal

end MarketFeed.Json
