import MarketFeed.Proofs.Json.Reader

namespace MarketFeed.Json

/-- What is read where a piece was written. -/
def Piece.reread : Piece → Piece
  | .char c =>
    if c.toNat < 0x20 ∧ c ∉ ['\x08', '\x0c', '\n', '\r', '\t'] then .unit (UInt16.ofNat c.toNat)
    else .char c
  | .unit u => .unit u

def Text.reread (t : Text) : Text := t.map Piece.reread

def Token.reread : Token → Token
  | .text t => .text t.reread
  | t => t

def Value.reread : Value → Value
  | .text t => .text t.reread
  | .array items => .array (items.map Value.reread)
  | .object members => .object (members.map fun m => (m.1.reread, m.2.reread))
  | v => v
termination_by v => sizeOf v
decreasing_by
  · have := List.sizeOf_lt_of_mem ‹_›
    simp only [Value.array.sizeOf_spec]
    omega
  · rename_i hm
    have := List.sizeOf_lt_of_mem hm
    have : sizeOf m = 1 + sizeOf m.1 + sizeOf m.2 := by cases m; rfl
    simp only [Value.object.sizeOf_spec]
    omega

theorem hexValue?_hexDigit {n : Nat} (h : n < 16) : Lexer.hexValue? (hexDigit n) = some n := by
  have hf : ∀ d : Fin 16, Lexer.hexValue? (hexDigit d) = some d.val := by decide
  exact hf ⟨n, h⟩

theorem exists_hexUnit {n : Nat} (h : n < 0x10000) :
    ∃ hex, hexUnit n = '\\' :: 'u' :: hex ∧ hex.length = 4 ∧ hexNumber? hex = some n := by
  refine ⟨_, rfl, rfl, ?_⟩
  have hd (k : Nat) : Lexer.hexValue? (hexDigit (k % 16)) = some (k % 16) :=
    hexValue?_hexDigit (Nat.mod_lt k (by decide))
  simp [hexNumber?, hd]
  omega

theorem spelled_hexUnit {n : Nat} (h : n < 0x10000) :
    Piece.Spelled (.unit (UInt16.ofNat n)) (hexUnit n) := by
  obtain ⟨hex, he, hl, hn⟩ := exists_hexUnit h
  rw [he]
  exact .unit hl hn

theorem Piece.spelled_written (p : Piece) : p.reread.Spelled p.written := by
  cases p with
  | unit u =>
    have h := spelled_hexUnit u.toNat_lt
    rwa [UInt16.ofNat_toNat] at h
  | char c =>
    unfold Piece.written
    dsimp only
    split_ifs with h₁ h₂ h₃ h₄ h₅ h₆ h₇ h₈
    -- the characters with a short escape
    iterate 7
      · subst c
        exact .short rfl
    · rw [Piece.reread, if_pos ⟨h₈, by simp [h₃, h₄, h₅, h₆, h₇]⟩]
      exact spelled_hexUnit (by omega)
    · rw [Piece.reread, if_neg fun h => h₈ h.1]
      exact .plain (Nat.not_lt.1 h₈) h₁ h₂

theorem Text.spelled_written (t : Text) : t.reread.Spelled (t.flatMap Piece.written) := by
  induction t with
  | nil => exact .nil
  | cons p t ih => exact .cons p.spelled_written ih

theorem Token.spelled_written (t : Token)
    (h : ∀ n, t = .number n → Literal.ofChars? n.chars = some n) : t.reread.Spelled t.written := by
  cases t with
  | openBrace | closeBrace | openBracket | closeBracket | colon | comma => exact .mark rfl
  | null => exact .null
  | bool b => exact .bool b
  | number n => exact .number (h n rfl)
  | text t => exact .text t.spelled_written

theorem spelled_written {ts : List Token}
    (h : ∀ n, .number n ∈ ts → Literal.ofChars? n.chars = some n) :
    Spelled (ts.map Token.reread) (ts.flatMap Token.written) := by
  induction ts with
  | nil => exact .nil blank_nil
  | cons t ts ih =>
    have ht := t.spelled_written fun n hn => h n (hn ▸ List.mem_cons_self)
    exact .cons blank_nil ht (ih fun n hn => h n (List.mem_cons_of_mem t hn))

theorem Value.tokens_reread (v : Value) : v.reread.tokens = v.tokens.map Token.reread := by
  induction v with
  | null | bool | number | text => simp [Value.reread, Value.tokens, Token.reread]
  | array items ih =>
    have hi : tokensOfItems (items.map Value.reread) = (tokensOfItems items).map Token.reread := by
      induction items with
      | nil => rfl
      | cons v vs ihs =>
        have hv := ih v List.mem_cons_self
        cases vs with
        | nil => simp [tokensOfItems, hv, Token.reread]
        | cons w vs =>
          have hvs := ihs fun u hu => ih u (List.mem_cons_of_mem v hu)
          rw [List.map_cons] at hvs
          simp [tokensOfItems, hv, hvs, Token.reread]
    simp [Value.reread, Value.tokens, hi, Token.reread]
  | object members ih =>
    have hm : tokensOfMembers (members.map fun m => (m.1.reread, m.2.reread)) =
        (tokensOfMembers members).map Token.reread := by
      induction members with
      | nil => rfl
      | cons m ms ihs =>
        have hv := ih m List.mem_cons_self
        cases ms with
        | nil => simp [tokensOfMembers, hv, Token.reread]
        | cons n ms =>
          have hms := ihs fun u hu => ih u (List.mem_cons_of_mem m hu)
          rw [List.map_cons] at hms
          simp [tokensOfMembers, hv, hms, Token.reread]
    simp [Value.reread, Value.tokens, hm, Token.reread]

/-- A value is read back from its compact writing, if its numbers are. -/
theorem Value.read?_compact {v : Value}
    (h : ∀ n, .number n ∈ v.tokens → Literal.ofChars? n.chars = some n) :
    Value.read? v.compact = some v.reread := by
  rw [Value.read?_eq_some_iff, Value.Spells, Value.tokens_reread, Value.compact, String.toList_ofList]
  exact spelled_written h

theorem chars?_unit {u : UInt16} (hl : isLead u = false) (ht : isTrail u = false) (t : Text) :
    Text.chars? (.unit u :: t) = t.chars?.map (Char.ofNat u.toNat :: ·) := by
  cases t with
  | nil => simp [Text.chars?, hl, ht]
  | cons p t => cases p <;> simp [Text.chars?, hl, ht]

theorem chars?_cons_reread (c : Char) (t : Text) :
    Text.chars? ((Piece.char c).reread :: t) = t.chars?.map (c :: ·) := by
  rw [Piece.reread]
  split
  · rename_i hc
    have hu : (UInt16.ofNat c.toNat).toNat = c.toNat := UInt16.toNat_ofNat_of_lt' (by
      have : UInt16.size = 65536 := rfl
      omega)
    -- a control lies below the units that come in pairs
    have hl : isLead (UInt16.ofNat c.toNat) = false := by
      simp [isLead, UInt16.le_iff_toNat_le, hu]
      omega
    have ht : isTrail (UInt16.ofNat c.toNat) = false := by
      simp [isTrail, UInt16.le_iff_toNat_le, hu]
      omega
    rw [chars?_unit hl ht, hu, Char.ofNat_toNat]
  · rw [Text.chars?]

theorem Text.toString?_reread_ofString (s : String) :
    (Text.ofString s).reread.toString? = some s := by
  have hc (cs : List Char) : (Text.reread (cs.map .char)).chars? = some cs := by
    induction cs with
    | nil => rfl
    | cons c cs ih =>
      have h := chars?_cons_reread c (Text.reread (cs.map .char))
      rwa [ih] at h
  rw [Text.toString?, Text.ofString, hc, Option.map_some, String.ofList_toList]

end MarketFeed.Json
