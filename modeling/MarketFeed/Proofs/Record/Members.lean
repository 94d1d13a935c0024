import MarketFeed.Proofs.Record.Payload
import MarketFeed.Settings

namespace MarketFeed

open Json

theorem exists_of_forall₂_of_mem {α β : Type} {R : α → β → Prop} {as : List α} {bs : List β}
    {a : α} (h : List.Forall₂ R as bs) (ha : a ∈ as) : ∃ b ∈ bs, R a b := by
  induction h with
  | nil => cases ha
  | cons hr _ ih =>
    cases ha with
    | head => exact ⟨_, List.mem_cons_self, hr⟩
    | tail _ ha =>
      obtain ⟨b, hb, hr⟩ := ih ha
      exact ⟨b, List.mem_cons_of_mem _ hb, hr⟩

theorem exists_forall₂ {α β : Type} {R : α → β → Prop} {as : List α} (h : ∀ a ∈ as, ∃ b, R a b) :
    ∃ bs, List.Forall₂ R as bs := by
  induction as with
  | nil => exact ⟨[], .nil⟩
  | cons a as ih =>
    obtain ⟨⟨b, hb⟩, has⟩ := List.forall_mem_cons.1 h
    obtain ⟨bs, hbs⟩ := ih has
    exact ⟨b :: bs, .cons hb hbs⟩

namespace Layout

variable {α : Type} {L : Layout α} {ms ms' : List (Text × Value)} {key : String} {c : Column}
  {cell : Cell} {leniency : Leniency} {s : String}

def keys (L : Layout α) : List String := L.columns.map Column.key

/-- Members in another order, with members under other keys put in and taken out. -/
inductive Rearranged (L : Layout α) : List (Text × Value) → List (Text × Value) → Prop where
  | permute {ms ms' : List (Text × Value)} (h : ms.Perm ms') : Rearranged L ms ms'
  | insert {ms : List (Text × Value)} {k : Text} {key : String} (v : Value)
      (hk : k.toString? = some key) (hu : key ∉ L.keys) : Rearranged L ms ((k, v) :: ms)
  | remove {ms : List (Text × Value)} {k : Text} {key : String} (v : Value)
      (hk : k.toString? = some key) (hu : key ∉ L.keys) : Rearranged L ((k, v) :: ms) ms
  | trans {ms ms' ms'' : List (Text × Value)} (h : Rearranged L ms ms')
      (h' : Rearranged L ms' ms'') : Rearranged L ms ms''

/-- Whether and as what an object is accepted depends on the members under the keys of the layout
only; none of these keys may come twice. -/
structure ReadsKnown (L : Layout α) : Prop where
  rearranged {ms ms' : List (Text × Value)} {s s' : String} (h : Rearranged L ms ms')
    (hs : (Value.object ms).Spells s) (hs' : (Value.object ms').Spells s') : L.read? s = L.read? s'
  repeated {ms : List (Text × Value)} {s key : String} (hs : (Value.object ms).Spells s)
    (hk : key ∈ L.keys) (h : 2 ≤ (valuesUnder key ms).length) : L.read? s = none

/-- Instead of the columns whose keys are missing, a record has what it has in a blank one. -/
structure FillsIn (L : Layout α) (blank : α) : Prop where
  filled {ms : List (Text × Value)} {s : String} (hs : (Value.object ms).Spells s)
    (hn : Named ms)
    (h : ∀ c ∈ L.columns, valuesUnder c.key ms = [] ∨
      ∃ v cell, valuesUnder c.key ms = [v] ∧ c.type.read? v = some cell) :
    ∃ a, L.read? s = some a ∧ ∀ (i : Nat) (c : Column), L.columns[i]? = some c →
      (valuesUnder c.key ms = [] → (L.toRow a)[i]? = (L.toRow blank)[i]?) ∧
      ∀ v, valuesUnder c.key ms = [v] → (L.toRow a)[i]? = c.type.read? v

structure NeedsAll (L : Layout α) : Prop where
  missing {ms : List (Text × Value)} {s key : String} (hs : (Value.object ms).Spells s)
    (hk : key ∈ L.keys) (h : valuesUnder key ms = []) : L.read? s = none

structure RefusesNull (L : Layout α) : Prop where
  null {ms : List (Text × Value)} {s key : String} (hs : (Value.object ms).Spells s)
    (hk : key ∈ L.keys) (h : Value.null ∈ valuesUnder key ms) : L.read? s = none

structure TakesNull (L : Layout α) : Prop where
  null {ms ms' : List (Text × Value)} {k : Text} {s s' key : String}
    (hk : k.toString? = some key) (hL : key ∈ L.keys) (h : valuesUnder key (ms ++ ms') = [])
    (hs : (Value.object (ms ++ (k, .null) :: ms')).Spells s)
    (hs' : (Value.object (ms ++ ms')).Spells s') : L.read? s = L.read? s'

theorem row?_object_eq_none (hk : key ∈ L.keys)
    (h : ∀ c ∈ L.columns, c.key = key → ∀ cell, ¬ Gives L.leniency ms c cell) :
    L.row? (.object ms) = none := by
  obtain ⟨c, hc, rfl⟩ := List.mem_map.1 hk
  rw [Option.eq_none_iff_forall_ne_some]
  intro row hr
  obtain ⟨cell, -, hg⟩ := exists_of_forall₂_of_mem (row?_object_eq_some_iff.1 hr).2 hc
  exact h c hc rfl cell hg

theorem read?_object_eq_none (hs : (Value.object ms).Spells s) (hk : key ∈ L.keys)
    (h : ∀ c ∈ L.columns, c.key = key → ∀ cell, ¬ Gives L.leniency ms c cell) :
    L.read? s = none := by
  rw [read?_eq_of_spells hs, ofValue?, row?_object_eq_none hk h, Option.bind_none]

theorem Gives.congr (h : (valuesUnder c.key ms).Perm (valuesUnder c.key ms'))
    (hg : Gives leniency ms c cell) : Gives leniency ms' c cell := by
  cases hg with
  | present hv hr => exact .present (List.perm_singleton.1 (hv ▸ h).symm) hr
  | missing hv hl he => exact .missing (List.perm_nil.1 (hv ▸ h).symm) hl he

theorem row?_congr (hn : Named ms ↔ Named ms')
    (h : ∀ c ∈ L.columns, (valuesUnder c.key ms).Perm (valuesUnder c.key ms')) :
    L.row? (.object ms) = L.row? (.object ms') := by
  apply Option.ext
  intro row
  rw [row?_object_eq_some_iff, row?_object_eq_some_iff, hn]
  constructor
  · rintro ⟨hn, hg⟩
    exact ⟨hn, ((List.forall₂_and_left _ _).2 ⟨h, hg⟩).imp fun _ _ hc => hc.2.congr hc.1⟩
  · rintro ⟨hn, hg⟩
    exact ⟨hn, ((List.forall₂_and_left _ _).2 ⟨h, hg⟩).imp fun _ _ hc => hc.2.congr hc.1.symm⟩

theorem read?_object_congr {s' : String} (hs : (Value.object ms).Spells s)
    (hs' : (Value.object ms').Spells s') (h : L.row? (.object ms) = L.row? (.object ms')) :
    L.read? s = L.read? s' := by
  rw [read?_eq_of_spells hs, read?_eq_of_spells hs', ofValue?, ofValue?, h]

theorem named_cons_iff {k : Text} (hk : k.toString? = some key) (v : Value) :
    Named ((k, v) :: ms) ↔ Named ms := by
  rw [Named, List.forall_mem_cons, hk]
  exact and_iff_right rfl

theorem row?_cons {k : Text} (hk : k.toString? = some key) (hu : key ∉ L.keys) (v : Value) :
    L.row? (.object ((k, v) :: ms)) = L.row? (.object ms) := by
  apply row?_congr (named_cons_iff hk v)
  intro c hc
  rw [valuesUnder_cons_of_ne]
  intro he
  cases hk.symm.trans he
  exact hu (List.mem_map_of_mem hc)

theorem row?_eq_of_rearranged (h : Rearranged L ms ms') :
    L.row? (.object ms) = L.row? (.object ms') := by
  induction h with
  | permute h =>
    apply row?_congr
    · exact ⟨fun hn m hm => hn m (h.mem_iff.2 hm), fun hn m hm => hn m (h.mem_iff.1 hm)⟩
    · exact fun c _ => h.filterMap _
  | insert v hk hu => exact (row?_cons hk hu v).symm
  | remove v hk hu => exact row?_cons hk hu v
  | trans _ _ ih ih' => exact ih.trans ih'

theorem readsKnown (L : Layout α) : L.ReadsKnown where
  rearranged h hs hs' := read?_object_congr hs hs' (row?_eq_of_rearranged h)
  repeated hs hk h := by
    apply read?_object_eq_none hs hk
    rintro c - rfl cell (⟨hv, -⟩ | ⟨hv, -, -⟩)
    all_goals simp [hv] at h

theorem needsAll (h : L.leniency.allowsMissingKey = false) : L.NeedsAll where
  missing hs hk hv := by
    apply read?_object_eq_none hs hk
    rintro c - rfl cell (⟨hv', -⟩ | ⟨-, hl, -⟩)
    · rw [hv] at hv'
      cases hv'
    · rw [h] at hl
      cases hl

theorem refusesNull (h : ∀ c ∈ L.columns, c.type.read? .null = none) : L.RefusesNull where
  null hs hk hv := by
    apply read?_object_eq_none hs hk
    rintro c hc rfl cell (⟨hv', hr⟩ | ⟨hv', -, -⟩)
    · rw [hv'] at hv
      cases List.mem_singleton.1 hv
      rw [h c hc] at hr
      cases hr
    · rw [hv'] at hv
      cases hv

theorem valuesUnder_append (key : String) (ms ms' : List (Text × Value)) :
    valuesUnder key (ms ++ ms') = valuesUnder key ms ++ valuesUnder key ms' :=
  List.filterMap_append

/-- An optional column gives the same cell for a `null` as for nothing. -/
theorem gives_null_iff {k : Text} (hk : k.toString? = some key)
    (h : valuesUnder key (ms ++ ms') = []) (hl : leniency.allowsMissingKey = true)
    (hc : c.type.read? .null = some c.type.empty) :
    Gives leniency (ms ++ (k, .null) :: ms') c cell ↔ Gives leniency (ms ++ ms') c cell := by
  by_cases he : c.key = key
  · subst he
    have hv : valuesUnder c.key (ms ++ (k, .null) :: ms') = [.null] := by
      rw [valuesUnder_append, List.append_eq_nil_iff] at h
      rw [valuesUnder_append, h.1, valuesUnder_cons_of_eq hk, h.2, List.nil_append]
    constructor
    · rintro (⟨hv', hr⟩ | ⟨hv', -, -⟩)
      · cases hv.symm.trans hv'
        exact .missing h hl (Option.some.inj (hr.symm.trans hc))
      · cases hv.symm.trans hv'
    · rintro (⟨hv', -⟩ | ⟨-, -, he⟩)
      · cases h.symm.trans hv'
      · exact .present hv (he ▸ hc)
  · have hv : valuesUnder c.key (ms ++ (k, .null) :: ms') = valuesUnder c.key (ms ++ ms') := by
      rw [valuesUnder_append, valuesUnder_append, valuesUnder_cons_of_ne]
      rw [hk, ne_eq, Option.some.injEq]
      exact fun h => he h.symm
    have hp : (valuesUnder c.key (ms ++ (k, .null) :: ms')).Perm (valuesUnder c.key (ms ++ ms')) :=
      .of_eq hv
    exact ⟨fun hg => hg.congr hp, fun hg => hg.congr hp.symm⟩

theorem takesNull (hl : L.leniency.allowsMissingKey = true)
    (h : ∀ c ∈ L.columns, c.type.read? .null = some c.type.empty) : L.TakesNull where
  null {ms ms' k s s' key} hk _ hv hs hs' := by
    apply read?_object_congr hs hs'
    have hn : Named (ms ++ (k, .null) :: ms') ↔ Named (ms ++ ms') := by
      rw [Named, List.forall_mem_append, Named, List.forall_mem_append]
      exact and_congr_right fun _ => named_cons_iff hk .null
    apply Option.ext
    intro row
    rw [row?_object_eq_some_iff, row?_object_eq_some_iff, hn]
    apply and_congr_right
    intro
    constructor
    · intro hg
      exact ((List.forall₂_and_left _ _).2 ⟨h, hg⟩).imp fun _ _ hc =>
        (gives_null_iff hk hv hl hc.1).1 hc.2
    · intro hg
      exact ((List.forall₂_and_left _ _).2 ⟨h, hg⟩).imp fun _ _ hc =>
        (gives_null_iff hk hv hl hc.1).2 hc.2

theorem Faithful.fillsIn {blank : α} (hL : L.Faithful)
    (hl : L.leniency.allowsMissingKey = true)
    (hb : L.toRow blank = L.columns.map fun c => c.type.empty) : L.FillsIn blank where
  filled {ms s} hs hn h := by
    have hc (c : Column) (hc : c ∈ L.columns) : ∃ cell, Gives L.leniency ms c cell := by
      rcases h c hc with hv | ⟨v, cell, hv, hr⟩
      · exact ⟨_, .missing hv hl rfl⟩
      · exact ⟨cell, .present hv hr⟩
    obtain ⟨row, hg⟩ := exists_forall₂ hc
    obtain ⟨a, rfl⟩ := hL.complete (hg.imp fun _ _ hg => hg.holds)
    refine ⟨a, (hL.read?_object_eq_some_iff hs).2 ⟨hn, hg⟩, ?_⟩
    intro i c hi
    obtain ⟨hlt, rfl⟩ := List.getElem?_eq_some_iff.1 hi
    have hlt' : i < (L.toRow a).length := hg.length_eq ▸ hlt
    have hgi : Gives L.leniency ms L.columns[i] (L.toRow a)[i] := hg.get hlt hlt'
    rw [List.getElem?_eq_getElem hlt']
    constructor
    · intro hv
      rw [hb, List.getElem?_map, hi, Option.map_some]
      cases hgi with
      | present hv' _ => cases hv.symm.trans hv'
      | missing _ _ he => rw [he]
    · intro v hv
      cases hgi with
      | present hv' hr =>
        cases hv.symm.trans hv'
        exact hr.symm
      | missing hv' _ _ => cases hv.symm.trans hv'

theorem Fits.exists_textCell {columns : List Column} {row : List Cell}
    (h : Fits (⟨key, .optionalText⟩ :: columns) row) :
    ∃ o rest, row = Settings.textCell o :: rest ∧ Fits columns rest := by
  cases h with
  | cons hc hs =>
    cases hc with
    | optionalText s => exact ⟨some s, _, rfl, hs⟩
    | absentText => exact ⟨none, _, rfl, hs⟩

theorem Fits.exists_flagCell {columns : List Column} {row : List Cell}
    (h : Fits (⟨key, .optionalFlag⟩ :: columns) row) :
    ∃ o rest, row = Settings.flagCell o :: rest ∧ Fits columns rest := by
  cases h with
  | cons hc hs =>
    cases hc with
    | optionalFlag b => exact ⟨some b, _, rfl, hs⟩
    | absentFlag => exact ⟨none, _, rfl, hs⟩

end Layout

open Layout

theorem CellType.Holds.textCell (o : Option String) :
    CellType.optionalText.Holds (Settings.textCell o) := by
  cases o <;> constructor

theorem CellType.Holds.flagCell (o : Option Bool) :
    CellType.optionalFlag.Holds (Settings.flagCell o) := by
  cases o <;> constructor

theorem Settings.cellText?_textCell (o : Option String) : cellText? (textCell o) = some o := by
  cases o <;> rfl

theorem Settings.cellFlag?_flagCell (o : Option Bool) : cellFlag? (flagCell o) = some o := by
  cases o <;> rfl

theorem Settings.faithful : Settings.layout.Faithful where
  ofRow?_toRow s := by
    simp only [layout, cellText?_textCell, cellFlag?_flagCell]
    rfl
  fits s := .cons (.textCell _) (.cons (.textCell _) (.cons (.textCell _)
    (.cons (.textCell _) (.cons (.flagCell _) .nil))))
  complete h := by
    obtain ⟨flowDir, _, rfl, h₁⟩ := h.exists_textCell
    obtain ⟨frontAddress, _, rfl, h₂⟩ := h₁.exists_textCell
    obtain ⟨nameServerAddress, _, rfl, h₃⟩ := h₂.exists_textCell
    obtain ⟨workerName, _, rfl, h₄⟩ := h₃.exists_textCell
    obtain ⟨verbose, _, rfl, h₅⟩ := h₄.exists_flagCell
    cases h₅.eq_nil
    exact ⟨⟨flowDir, frontAddress, nameServerAddress, workerName, verbose⟩, rfl⟩

theorem Settings.ofJson_cases (complaint : String → String) (json : String) :
    (∃ settings, layout.read? json = some settings ∧ ofJson complaint json = .ok settings) ∨
      (layout.read? json = none ∧
        ofJson complaint json = .error (.configuration ("JSON error: " ++ complaint json))) := by
  rw [ofJson]
  cases layout.read? json with
  | none => exact .inr ⟨rfl, rfl⟩
  | some settings => exact .inl ⟨settings, rfl, rfl⟩

/-- Records and settings depend on the known members of an object only. What a record lets be missing
is filled in with empty texts, and in settings with nothing; other records need all their keys. Only
settings take `null`. -/
theorem records_readKnown :
    (LoginRequest.layout.ReadsKnown ∧ LogoutUser.layout.ReadsKnown ∧
      NameServerUser.layout.ReadsKnown ∧ ErrorInfo.layout.ReadsKnown ∧
      LoginReply.layout.ReadsKnown ∧ Instrument.layout.ReadsKnown ∧ Tick.layout.ReadsKnown ∧
      QuoteRequest.layout.ReadsKnown ∧ Settings.layout.ReadsKnown) ∧
    (LoginRequest.layout.FillsIn {} ∧ LogoutUser.layout.FillsIn {} ∧
      NameServerUser.layout.FillsIn {} ∧ Settings.layout.FillsIn {}) ∧
    (ErrorInfo.layout.NeedsAll ∧ LoginReply.layout.NeedsAll ∧ Instrument.layout.NeedsAll ∧
      Tick.layout.NeedsAll ∧ QuoteRequest.layout.NeedsAll) ∧
    (LoginRequest.layout.RefusesNull ∧ LogoutUser.layout.RefusesNull ∧
      NameServerUser.layout.RefusesNull ∧ ErrorInfo.layout.RefusesNull ∧
      LoginReply.layout.RefusesNull ∧ Instrument.layout.RefusesNull ∧ Tick.layout.RefusesNull ∧
      QuoteRequest.layout.RefusesNull) ∧
    Settings.layout.TakesNull ∧
    ∀ complaint json,
      (∃ settings, Settings.layout.read? json = some settings ∧
        Settings.ofJson complaint json = .ok settings) ∨
      (Settings.layout.read? json = none ∧
        ∃ detail, Settings.ofJson complaint json = .error (.configuration detail)) := by
  refine ⟨⟨readsKnown _, readsKnown _, readsKnown _, readsKnown _, readsKnown _, readsKnown _,
    readsKnown _, readsKnown _, readsKnown _⟩, ⟨?_, ?_, ?_, ?_⟩,
    ⟨needsAll rfl, needsAll rfl, needsAll rfl, needsAll rfl, needsAll rfl⟩, ?_, ?_, ?_⟩
  · exact LoginRequest.faithful.fillsIn rfl rfl
  · exact LogoutUser.faithful.fillsIn rfl rfl
  · exact NameServerUser.faithful.fillsIn rfl rfl
  · exact Settings.faithful.fillsIn rfl rfl
  · refine ⟨refusesNull ?_, refusesNull ?_, refusesNull ?_, refusesNull ?_, refusesNull ?_,
      refusesNull ?_, refusesNull ?_, refusesNull ?_⟩
    all_goals decide
  · exact takesNull rfl (by decide)
  · intro complaint json
    rcases Settings.ofJson_cases complaint json with h | ⟨h, he⟩
    · exact .inl h
    · exact .inr ⟨h, _, he⟩

-- The key inside the unknown member is not a key of the record.
example : LogoutUser.layout.read?
    "\x7b\"x\":[1,\x7b\"UserID\":null\x7d], \"UserID\":\"a\"\x7d" = some ⟨"", "a"⟩ := by
  decide

end MarketFeed
