import Mathlib.Data.Nat.Digits.Defs
import MarketFeed.Request.Address

namespace MarketFeed.Address

def numeral (digits : List Char) : Nat :=
  Nat.ofDigits 10 (digits.reverse.map fun c => c.toNat - '0'.toNat)

/-- A port: decimal digits, at least one, for a number of sixteen bits. -/
def IsPort (port : List Char) : Prop :=
  ∃ digits, (port = digits ∨ port = '+' :: digits) ∧ digits ≠ [] ∧
    (∀ c ∈ digits, c.isDigit = true) ∧ numeral digits ≤ 65535

def WellFormed (address : String) : Prop :=
  ∃ transport ∈ ["tcp://", "udp://"], ∃ host port,
    address.toList = transport.toList ++ host ++ ':' :: port ∧ host ≠ [] ∧ IsPort port

theorem afterTransport?_eq_some_iff {address rest : List Char} :
    afterTransport? address = some rest ↔
      ∃ transport ∈ ["tcp://", "udp://"], address = transport.toList ++ rest := by
  constructor
  · intro h
    unfold afterTransport? at h
    split at h
    · cases h
      exact ⟨"tcp://", .head _, rfl⟩
    · cases h
      exact ⟨"udp://", .tail _ (.head _), rfl⟩
    · cases h
  · rintro ⟨transport, ht, rfl⟩
    rcases List.mem_cons.1 ht with rfl | ht
    · rfl
    · rw [List.mem_singleton.1 ht]
      rfl

theorem splitLastColon?_of_not_mem {cs : List Char} (h : ':' ∉ cs) :
    splitLastColon? cs = none := by
  induction cs with
  | nil => rfl
  | cons c cs ih =>
    obtain ⟨hc, hcs⟩ := not_or.1 (mt List.mem_cons.2 h)
    rw [splitLastColon?, ih hcs]
    exact if_neg (Ne.symm hc)

theorem splitLastColon?_append (host : List Char) {port : List Char} (h : ':' ∉ port) :
    splitLastColon? (host ++ ':' :: port) = some (host, port) := by
  induction host with
  | nil =>
    rw [List.nil_append, splitLastColon?, splitLastColon?_of_not_mem h]
    rfl
  | cons c host ih => rw [List.cons_append, splitLastColon?, ih]

theorem eq_append_of_splitLastColon? {cs host port : List Char}
    (h : splitLastColon? cs = some (host, port)) : cs = host ++ ':' :: port := by
  induction cs generalizing host with
  | nil => cases h
  | cons c cs ih =>
    rw [splitLastColon?] at h
    cases hs : splitLastColon? cs with
    | some r =>
      obtain ⟨host', port'⟩ := r
      rw [hs] at h
      cases h
      exact congrArg (c :: ·) (ih hs)
    | none =>
      rw [hs] at h
      obtain ⟨rfl, h⟩ := Option.ite_none_right_eq_some.1 h
      cases h
      rfl

theorem digit?_eq (c : Char) :
    digit? c = if c.isDigit = true then some (c.toNat - '0'.toNat) else none := by
  have hd : c.isDigit = true ↔ '0' ≤ c ∧ c ≤ '9' := by
    simp only [Char.isDigit, Bool.and_eq_true, decide_eq_true_eq]
    rfl
  rw [digit?, if_congr hd rfl rfl]

theorem numeral_cons (c : Char) (cs : List Char) :
    numeral (c :: cs) = (c.toNat - '0'.toNat) * 10 ^ cs.length + numeral cs := by
  rw [numeral, List.reverse_cons, List.map_append, Nat.ofDigits_append, List.length_map,
    List.length_reverse, List.map_singleton, Nat.ofDigits_singleton, Nat.mul_comm, Nat.add_comm]
  rfl

/-- Digits are read from the left, each after all the number that stands before it. -/
theorem decimal?_eq_some_iff {n m : Nat} {cs : List Char} :
    decimal? n cs = some m ↔
      (∀ c ∈ cs, c.isDigit = true) ∧ m = n * 10 ^ cs.length + numeral cs := by
  induction cs generalizing n with
  | nil =>
    have hz : n * 10 ^ ([] : List Char).length + numeral [] = n := by simp [numeral]
    rw [decimal?, Option.some.injEq, hz]
    exact ⟨fun h => ⟨nofun, h.symm⟩, fun h => h.2.symm⟩
  | cons c cs ih =>
    rw [decimal?, digit?_eq]
    by_cases hc : c.isDigit = true
    · rw [if_pos hc, Option.bind_some, ih, List.forall_mem_cons, numeral_cons, List.length_cons,
        pow_succ, and_assoc]
      have he : (n * 10 + (c.toNat - '0'.toNat)) * 10 ^ cs.length + numeral cs =
          n * (10 ^ cs.length * 10) + ((c.toNat - '0'.toNat) * 10 ^ cs.length + numeral cs) := by
        ring
      rw [he]
      exact ⟨fun h => ⟨hc, h⟩, fun h => h.2⟩
    · rw [if_neg hc]
      exact ⟨nofun, fun h => absurd (h.1 c (.head _)) hc⟩

theorem decimal?_of_isDigit {cs : List Char} (h : ∀ c ∈ cs, c.isDigit = true) :
    decimal? 0 cs = some (numeral cs) :=
  decimal?_eq_some_iff.2 ⟨h, by rw [Nat.zero_mul, Nat.zero_add]⟩

def digitsOf (port : List Char) : List Char :=
  match port with
  | '+' :: rest => rest
  | _ => port

theorem port?_eq (port : List Char) :
    port? port = if digitsOf port = [] then none
      else (decimal? 0 (digitsOf port)).filter (· < 65536) := rfl

theorem digitsOf_of_isDigit {digits : List Char} (h : ∀ c ∈ digits, c.isDigit = true) :
    digitsOf digits = digits := by
  unfold digitsOf
  split
  · cases h '+' (.head _)
  · rfl

theorem eq_digitsOf (port : List Char) : port = digitsOf port ∨ port = '+' :: digitsOf port := by
  unfold digitsOf
  split
  · exact .inr rfl
  · exact .inl rfl

theorem port?_ne_none_iff {port : List Char} : port? port ≠ none ↔ IsPort port := by
  rw [port?_eq]
  constructor
  · intro h
    obtain ⟨n, hn⟩ := Option.ne_none_iff_exists'.1 h
    obtain ⟨hne, hn⟩ := Option.ite_none_left_eq_some.1 hn
    obtain ⟨hd, hlt⟩ := Option.filter_eq_some_iff.1 hn
    obtain ⟨hdigits, rfl⟩ := decimal?_eq_some_iff.1 hd
    rw [Nat.zero_mul, Nat.zero_add, decide_eq_true_eq] at hlt
    exact ⟨digitsOf port, eq_digitsOf port, hne, hdigits, Nat.le_of_lt_succ hlt⟩
  · rintro ⟨digits, hp, hne, hd, hle⟩
    have hdigits : digitsOf port = digits := by
      rcases hp with rfl | rfl
      · exact digitsOf_of_isDigit hd
      · rfl
    rw [hdigits, if_neg hne, decimal?_of_isDigit hd]
    have hkept : (some (numeral digits)).filter (· < 65536) = some (numeral digits) :=
      Option.filter_some_pos (decide_eq_true (Nat.lt_succ_of_le hle))
    rw [hkept]
    nofun

theorem colon_not_mem_of_isPort {port : List Char} (h : IsPort port) : ':' ∉ port := by
  obtain ⟨digits, hp, -, hd, -⟩ := h
  have hdigits : ':' ∉ digits := fun hm => nomatch hd ':' hm
  rcases hp with rfl | rfl
  · exact hdigits
  · exact fun hm => hdigits (List.mem_of_ne_of_mem (by decide) hm)

theorem check_eq_ok_iff {address : String} : check address = .ok () ↔ WellFormed address := by
  rw [check]
  constructor
  · intro h
    cases ht : afterTransport? address.toList with
    | none =>
      rw [ht] at h
      cases h
    | some rest =>
      cases hs : splitLastColon? rest with
      | none =>
        simp only [ht, hs] at h
        cases h
      | some r =>
        obtain ⟨host, port⟩ := r
        simp only [ht, hs] at h
        have hok : ¬ (host = [] ∨ port? port = none) := by
          intro hbad
          rw [if_pos hbad] at h
          cases h
        obtain ⟨hh, hp⟩ := not_or.1 hok
        obtain ⟨transport, hmem, ha⟩ := afterTransport?_eq_some_iff.1 ht
        rw [eq_append_of_splitLastColon? hs, ← List.append_assoc] at ha
        exact ⟨transport, hmem, host, port, ha, hh, port?_ne_none_iff.1 hp⟩
  · rintro ⟨transport, ht, host, port, ha, hh, hp⟩
    have hafter : afterTransport? address.toList = some (host ++ ':' :: port) := by
      rw [afterTransport?_eq_some_iff]
      exact ⟨transport, ht, ha.trans (List.append_assoc _ _ _)⟩
    simp only [hafter, splitLastColon?_append host (colon_not_mem_of_isPort hp)]
    exact if_neg (not_or.2 ⟨hh, port?_ne_none_iff.2 hp⟩)

end MarketFeed.Address
