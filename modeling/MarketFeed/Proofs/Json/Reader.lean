import MarketFeed.Proofs.Json.Lexer

namespace MarketFeed.Json

@[elab_as_elim, induction_eliminator]
theorem Value.induction {P : Value → Prop} (null : P .null) (bool : ∀ b, P (.bool b))
    (number : ∀ n, P (.number n)) (text : ∀ t, P (.text t))
    (array : ∀ items, (∀ v ∈ items, P v) → P (.array items))
    (object : ∀ members, (∀ m ∈ members, P m.2) → P (.object members)) : ∀ v, P v
  | .null => null
  | .bool b => bool b
  | .number n => number n
  | .text t => text t
  | .array items =>
    array items fun v _ => Value.induction null bool number text array object v
  | .object members =>
    object members fun m _ => Value.induction null bool number text array object m.2
termination_by v => sizeOf v
decreasing_by
  · rename_i hv
    have := List.sizeOf_lt_of_mem hv
    simp only [Value.array.sizeOf_spec]
    omega
  · rename_i hm
    have := List.sizeOf_lt_of_mem hm
    have : sizeOf m = 1 + sizeOf m.1 + sizeOf m.2 := by cases m; rfl
    simp only [Value.object.sizeOf_spec]
    omega

namespace Value

def itemTokens (v : Value) : List Token := v.tokens ++ [.comma]

def memberTokens (m : Text × Value) : List Token := .text m.1 :: .colon :: m.2.tokens ++ [.comma]

theorem tokensOfItems_concat (vs : List Value) (v : Value) :
    tokensOfItems (vs ++ [v]) = vs.flatMap itemTokens ++ v.tokens ++ [.closeBracket] := by
  induction vs with
  | nil => rfl
  | cons w vs ih =>
    rw [List.cons_append, tokensOfItems, ih, List.flatMap_cons]
    · simp [itemTokens]
    · simp

theorem tokensOfMembers_concat (ms : List (Text × Value)) (k : Text) (v : Value) :
    tokensOfMembers (ms ++ [(k, v)]) =
      ms.flatMap memberTokens ++ .text k :: .colon :: v.tokens ++ [.closeBrace] := by
  induction ms with
  | nil => rfl
  | cons m ms ih =>
    rw [List.cons_append, tokensOfMembers, ih, List.flatMap_cons]
    · simp [memberTokens]
    · simp

end Value

open Value (itemTokens memberTokens)

/-- The tokens from the opening of a container up to the place where its next value comes. -/
def Frame.opening : Frame → List Token
  | array items => .openBracket :: items.reverse.flatMap itemTokens
  | object members key =>
    .openBrace :: members.reverse.flatMap memberTokens ++ [.text key, .colon]

def openings (outer : List Frame) : List Token := outer.reverse.flatMap Frame.opening

theorem openings_cons (f : Frame) (outer : List Frame) :
    openings (f :: outer) = openings outer ++ f.opening := by
  simp [openings]

namespace Reader

def hasRead : Reader → List Token
  | value outer => openings outer
  | firstItem outer => openings outer ++ [.openBracket]
  | firstKey outer => openings outer ++ [.openBrace]
  | key members outer => openings outer ++ .openBrace :: members.reverse.flatMap memberTokens
  | colon members k outer =>
    openings outer ++ .openBrace :: members.reverse.flatMap memberTokens ++ [.text k]
  | after v outer => openings outer ++ v.tokens

theorem hasRead_feedValue {outer : List Frame} {t : Token} {r : Reader}
    (h : feedValue outer t = some r) : r.hasRead = openings outer ++ [t] := by
  cases t with
  | closeBrace | closeBracket | colon | comma => cases h
  | _ => cases h; rfl

theorem hasRead_feed {r r' : Reader} {t : Token} (h : r.feed t = some r') :
    r'.hasRead = r.hasRead ++ [t] := by
  unfold feed at h
  split at h
  · exact hasRead_feedValue h
  · cases h
    simp [hasRead, Value.tokens, Value.tokensOfItems]
  · have hr := hasRead_feedValue h
    rwa [openings_cons] at hr
  all_goals cases h
  · simp [hasRead, Value.tokens, Value.tokensOfMembers]
  · simp [hasRead]
  · simp [hasRead]
  · simp [hasRead, openings_cons, Frame.opening]
  · simp [hasRead, openings_cons, Frame.opening, itemTokens]
  · simp [hasRead, openings_cons, Frame.opening, Value.tokens, Value.tokensOfItems_concat]
  · simp [hasRead, openings_cons, Frame.opening, memberTokens]
  · simp [hasRead, openings_cons, Frame.opening, Value.tokens, Value.tokensOfMembers_concat]

theorem hasRead_foldlM {r r' : Reader} {ts : List Token} (h : ts.foldlM feed r = some r') :
    r'.hasRead = r.hasRead ++ ts := by
  induction ts generalizing r with
  | nil =>
    cases h
    rw [List.append_nil]
  | cons t ts ih =>
    rw [List.foldlM_cons] at h
    obtain ⟨r₁, h₁, h⟩ := Option.bind_eq_some_iff.1 h
    rw [ih h, hasRead_feed h₁, List.append_assoc]
    rfl

theorem feed_firstItem {outer : List Frame} {t : Token} (h : t ≠ .closeBracket) :
    feed (firstItem outer) t = feed (value (.array [] :: outer)) t := by
  rw [feed, feed]
  exact h

theorem exists_head_tokens (v : Value) : ∃ t ts, v.tokens = t :: ts ∧ t ≠ .closeBracket := by
  cases v with
  | null | bool | number | text | array | object => exact ⟨_, _, rfl, by simp⟩

theorem exists_head_tokensOfItems (v : Value) (vs : List Value) :
    ∃ t ts, Value.tokensOfItems (v :: vs) = t :: ts ∧ t ≠ .closeBracket := by
  obtain ⟨t, ts, ht, hc⟩ := exists_head_tokens v
  cases vs with
  | nil => exact ⟨t, _, by rw [Value.tokensOfItems, ht, List.cons_append], hc⟩
  | cons w vs => exact ⟨t, _, by rw [Value.tokensOfItems, ht, List.cons_append]; simp, hc⟩

theorem exists_head_tokensOfMembers (m : Text × Value) (ms : List (Text × Value)) :
    ∃ k ts, Value.tokensOfMembers (m :: ms) = .text k :: ts := by
  cases ms with
  | nil => exact ⟨m.1, _, rfl⟩
  | cons n ms => exact ⟨m.1, _, rfl⟩

theorem foldlM_items {items : List Value}
    (h : ∀ v ∈ items, ∀ outer, v.tokens.foldlM feed (value outer) = some (after v outer))
    (hi : items ≠ []) (before : List Value) (outer : List Frame) :
    (Value.tokensOfItems items).foldlM feed (value (.array before :: outer)) =
      some (after (.array (before.reverse ++ items)) outer) := by
  induction items generalizing before with
  | nil => exact absurd rfl hi
  | cons v vs ih =>
    have hv := h v List.mem_cons_self (.array before :: outer)
    cases vs with
    | nil => simp [Value.tokensOfItems, hv, feed]
    | cons w vs =>
      have hvs := ih (fun u hu => h u (List.mem_cons_of_mem v hu)) (by simp) (v :: before)
      simp [Value.tokensOfItems, hv, feed, hvs]

theorem foldlM_members {members : List (Text × Value)}
    (h : ∀ m ∈ members, ∀ outer, m.2.tokens.foldlM feed (value outer) = some (after m.2 outer))
    (hm : members ≠ []) (before : List (Text × Value)) (outer : List Frame) :
    (Value.tokensOfMembers members).foldlM feed (key before outer) =
      some (after (.object (before.reverse ++ members)) outer) := by
  induction members generalizing before with
  | nil => exact absurd rfl hm
  | cons m ms ih =>
    obtain ⟨k, v⟩ := m
    have hv := h (k, v) List.mem_cons_self (.object before k :: outer)
    cases ms with
    | nil => simp [Value.tokensOfMembers, hv, feed]
    | cons m ms =>
      have hms := ih (fun n hn => h n (List.mem_cons_of_mem _ hn)) (by simp) ((k, v) :: before)
      simp [Value.tokensOfMembers, hv, feed, hms]

theorem foldlM_tokens (v : Value) (outer : List Frame) :
    v.tokens.foldlM feed (value outer) = some (after v outer) := by
  induction v generalizing outer with
  | null | bool | number | text => rfl
  | array items ih =>
    cases items with
    | nil => rfl
    | cons v vs =>
      have hi := foldlM_items ih (by simp) [] outer
      obtain ⟨t, ts, ht, hc⟩ := exists_head_tokensOfItems v vs
      rw [ht, List.foldlM_cons] at hi
      rw [Value.tokens, ht]
      change (t :: ts).foldlM feed (firstItem outer) = _
      rw [List.foldlM_cons, feed_firstItem hc]
      exact hi
  | object members ih =>
    cases members with
    | nil => rfl
    | cons m ms =>
      have hm := foldlM_members ih (by simp) [] outer
      obtain ⟨k, ts, ht⟩ := exists_head_tokensOfMembers m ms
      rw [ht, List.foldlM_cons] at hm
      rw [Value.tokens, ht]
      exact hm

end Reader

theorem Value.ofTokens?_eq_some_iff {ts : List Token} {v : Value} :
    Value.ofTokens? ts = some v ↔ ts = v.tokens := by
  constructor
  · intro h
    rw [Value.ofTokens?] at h
    split at h
    · rename_i hr
      cases h
      exact (Reader.hasRead_foldlM hr).symm
    · cases h
  · rintro rfl
    rw [Value.ofTokens?, Reader.foldlM_tokens]

theorem apart_cons {t : Token} {ts : List Token} (ht : t.runsOn = false) (h : Apart ts) :
    Apart (t :: ts) := List.isChain_cons.2 ⟨fun _ _ => .inl ht, h⟩

theorem apart_cons_cons (t : Token) {u : Token} {ts : List Token} (hu : u.runsOn = false)
    (h : Apart ts) : Apart (t :: u :: ts) :=
  List.isChain_cons.2 ⟨fun _ hw => .inr (Option.some.inj hw ▸ hu), apart_cons hu h⟩

/-- The tokens of a value, before a token that cannot run into them. -/
theorem apart_tokens_append (v : Value) {t : Token} {ts : List Token} (ht : t.runsOn = false)
    (h : Apart ts) : Apart (v.tokens ++ t :: ts) := by
  induction v generalizing t ts with
  | null => exact apart_cons_cons _ ht h
  | bool b => exact apart_cons_cons _ ht h
  | number n => exact apart_cons_cons _ ht h
  | text s => exact apart_cons_cons _ ht h
  | array items ih =>
    have hi : Apart (Value.tokensOfItems items ++ t :: ts) := by
      induction items with
      | nil => exact apart_cons rfl (apart_cons ht h)
      | cons v vs ihs =>
        have hv := @ih v List.mem_cons_self
        cases vs with
        | nil =>
          rw [Value.tokensOfItems, List.append_assoc]
          exact hv rfl (apart_cons ht h)
        | cons w vs =>
          rw [Value.tokensOfItems, List.append_assoc]
          · exact hv rfl (ihs fun u hu => ih u (List.mem_cons_of_mem v hu))
          · simp
    exact apart_cons rfl hi
  | object members ih =>
    have hm : Apart (Value.tokensOfMembers members ++ t :: ts) := by
      induction members with
      | nil => exact apart_cons rfl (apart_cons ht h)
      | cons m ms ihs =>
        obtain ⟨k, v⟩ := m
        have hv := @ih (k, v) List.mem_cons_self
        cases ms with
        | nil =>
          rw [Value.tokensOfMembers, List.append_assoc]
          exact apart_cons rfl (apart_cons rfl (hv rfl (apart_cons ht h)))
        | cons n ms =>
          rw [Value.tokensOfMembers, List.append_assoc]
          · exact apart_cons rfl (apart_cons rfl
              (hv rfl (ihs fun u hu => ih u (List.mem_cons_of_mem _ hu))))
          · simp
    exact apart_cons rfl hm

theorem apart_tokens (v : Value) : Apart v.tokens :=
  List.IsChain.left_of_append (apart_tokens_append v (t := .comma) rfl (List.isChain_nil))

/-- A value is read from exactly the texts that spell it. -/
theorem Value.read?_eq_some_iff {s : String} {v : Value} :
    Value.read? s = some v ↔ v.Spells s := by
  constructor
  · intro h
    obtain ⟨ts, ht, hv⟩ := Option.bind_eq_some_iff.1 h
    rw [Value.Spells, ← Value.ofTokens?_eq_some_iff.1 hv]
    exact spelled_of_tokens? ht
  · intro h
    rw [Value.read?, tokens?_of_spelled h (apart_tokens v)]
    exact Value.ofTokens?_eq_some_iff.2 rfl

end MarketFeed.Json
