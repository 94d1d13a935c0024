import MarketFeed.Proofs.Record.Layout
import MarketFeed.Record.Payload

namespace MarketFeed

namespace Layout

variable {key : String} {columns : List Column} {row : List Cell}

theorem Fits.exists_text (h : Fits (⟨key, .text⟩ :: columns) row) :
    ∃ s rest, row = .text s :: rest ∧ Fits columns rest := by
  cases h with
  | cons hc hs =>
    cases hc with
    | text s => exact ⟨s, _, rfl, hs⟩

theorem Fits.exists_int (h : Fits (⟨key, .int⟩ :: columns) row) :
    ∃ n rest, row = .int n :: rest ∧ Fits columns rest := by
  cases h with
  | cons hc hs =>
    cases hc with
    | int n => exact ⟨n, _, rfl, hs⟩

theorem Fits.eq_nil (h : Fits [] row) : row = [] := List.forall₂_nil_left_iff.1 h

theorem fits_textColumns_iff {keys : List String} :
    Fits (textColumns keys) row ↔
      ∃ texts : List String, row = texts.map .text ∧ texts.length = keys.length := by
  induction keys generalizing row with
  | nil =>
    constructor
    · intro h
      exact ⟨[], h.eq_nil, rfl⟩
    · rintro ⟨texts, rfl, hl⟩
      cases List.length_eq_zero_iff.1 hl
      exact .nil
  | cons key keys ih =>
    constructor
    · intro h
      obtain ⟨s, rest, rfl, hr⟩ := h.exists_text
      obtain ⟨texts, rfl, hl⟩ := ih.1 hr
      exact ⟨s :: texts, rfl, congrArg (· + 1) hl⟩
    · rintro ⟨texts, rfl, hl⟩
      cases texts with
      | nil => cases hl
      | cons s texts => exact .cons (.text s) (ih.2 ⟨texts, rfl, Nat.succ.inj hl⟩)

/-- Every record is written, and read back as it was; and no two are written alike. -/
structure RoundTrips {α : Type} (L : Layout α) : Prop where
  readBack (a : α) : ∃ s, L.write? a = some s ∧ L.read? s = some a
  injective {a b : α} {s : String} (ha : L.write? a = some s) (hb : L.write? b = some s) : a = b

theorem Faithful.roundTrips {α : Type} {L : Layout α} (hL : L.Faithful)
    (hr : ∀ c ∈ L.columns, c.type ≠ .real) (hk : (L.columns.map Column.key).Nodup) :
    L.RoundTrips where
  readBack := hL.exists_write? hr hk
  injective {a b s} ha hb := by
    obtain ⟨s', hs, hra⟩ := hL.exists_write? hr hk a
    obtain ⟨s'', hs', hrb⟩ := hL.exists_write? hr hk b
    cases hs.symm.trans ha
    cases hs'.symm.trans hb
    exact Option.some.inj (hra.symm.trans hrb)

end Layout

open Layout

theorem LoginRequest.faithful : LoginRequest.layout.Faithful where
  ofRow?_toRow _ := rfl
  fits _ := fits_textColumns_iff.2 ⟨[_, _, _, _, _, _, _, _], rfl, rfl⟩
  complete h := by
    obtain ⟨texts, rfl, hl⟩ := fits_textColumns_iff.1 h
    match texts, hl with
    | [a, b, c, d, e, f, g, i], _ => exact ⟨⟨a, b, c, d, e, f, g, i⟩, rfl⟩

theorem LogoutUser.faithful : LogoutUser.layout.Faithful where
  ofRow?_toRow _ := rfl
  fits _ := fits_textColumns_iff.2 ⟨[_, _], rfl, rfl⟩
  complete h := by
    obtain ⟨texts, rfl, hl⟩ := fits_textColumns_iff.1 h
    match texts, hl with
    | [a, b], _ => exact ⟨⟨a, b⟩, rfl⟩

theorem NameServerUser.faithful : NameServerUser.layout.Faithful where
  ofRow?_toRow _ := rfl
  fits _ := fits_textColumns_iff.2 ⟨[_, _, _], rfl, rfl⟩
  complete h := by
    obtain ⟨texts, rfl, hl⟩ := fits_textColumns_iff.1 h
    match texts, hl with
    | [a, b, c], _ => exact ⟨⟨a, b, c⟩, rfl⟩

theorem Instrument.faithful : Instrument.layout.Faithful where
  ofRow?_toRow _ := rfl
  fits _ := fits_textColumns_iff.2 ⟨[_], rfl, rfl⟩
  complete h := by
    obtain ⟨texts, rfl, hl⟩ := fits_textColumns_iff.1 h
    match texts, hl with
    | [a], _ => exact ⟨⟨a⟩, rfl⟩

theorem QuoteRequest.faithful : QuoteRequest.layout.Faithful where
  ofRow?_toRow _ := rfl
  fits _ := fits_textColumns_iff.2 ⟨[_, _, _, _, _, _], rfl, rfl⟩
  complete h := by
    obtain ⟨texts, rfl, hl⟩ := fits_textColumns_iff.1 h
    match texts, hl with
    | [a, b, c, d, e, f], _ => exact ⟨⟨a, b, c, d, e, f⟩, rfl⟩

theorem ErrorInfo.faithful : ErrorInfo.layout.Faithful where
  ofRow?_toRow _ := rfl
  fits _ := .cons (.int _) (.cons (.text _) .nil)
  complete h := by
    obtain ⟨code, _, rfl, h₁⟩ := h.exists_int
    obtain ⟨message, _, rfl, h₂⟩ := h₁.exists_text
    cases h₂.eq_nil
    exact ⟨⟨code, message⟩, rfl⟩

theorem LoginReply.faithful : LoginReply.layout.Faithful where
  ofRow?_toRow _ := rfl
  fits _ := .cons (.text _) (.cons (.text _) (.cons (.text _) (.cons (.text _) (.cons (.text _)
    (.cons (.int _) (.cons (.int _) (.cons (.text _) .nil)))))))
  complete h := by
    obtain ⟨tradingDay, _, rfl, h₁⟩ := h.exists_text
    obtain ⟨loginTime, _, rfl, h₂⟩ := h₁.exists_text
    obtain ⟨brokerId, _, rfl, h₃⟩ := h₂.exists_text
    obtain ⟨userId, _, rfl, h₄⟩ := h₃.exists_text
    obtain ⟨systemName, _, rfl, h₅⟩ := h₄.exists_text
    obtain ⟨frontId, _, rfl, h₆⟩ := h₅.exists_int
    obtain ⟨sessionId, _, rfl, h₇⟩ := h₆.exists_int
    obtain ⟨maxOrderRef, _, rfl, h₈⟩ := h₇.exists_text
    cases h₈.eq_nil
    exact ⟨⟨tradingDay, loginTime, brokerId, userId, systemName, frontId, sessionId, maxOrderRef⟩,
      rfl⟩

/-- The text that a record of texts and integers is written as is read as that record, whatever its
texts and integers are, and it is no other record's. -/
theorem payloads_roundTrip :
    LoginRequest.layout.RoundTrips ∧ LogoutUser.layout.RoundTrips ∧
      NameServerUser.layout.RoundTrips ∧ ErrorInfo.layout.RoundTrips ∧
      LoginReply.layout.RoundTrips ∧ Instrument.layout.RoundTrips ∧
      QuoteRequest.layout.RoundTrips :=
  ⟨LoginRequest.faithful.roundTrips (by decide) (by decide),
    LogoutUser.faithful.roundTrips (by decide) (by decide),
    NameServerUser.faithful.roundTrips (by decide) (by decide),
    ErrorInfo.faithful.roundTrips (by decide) (by decide),
    LoginReply.faithful.roundTrips (by decide) (by decide),
    Instrument.faithful.roundTrips (by decide) (by decide),
    QuoteRequest.faithful.roundTrips (by decide) (by decide)⟩

end MarketFeed
