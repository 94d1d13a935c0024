import Mathlib.Data.List.Forall2
import MarketFeed.Proofs.Json.Compact
import MarketFeed.Record.Layout

namespace MarketFeed

open Json

theorem mapM_eq_some_iff {α β : Type} {f : α → Option β} {as : List α} {bs : List β} :
    as.mapM f = some bs ↔ List.Forall₂ (fun a b => f a = some b) as bs := by
  induction as generalizing bs with
  | nil => cases bs <;> simp
  | cons a as ih =>
    rw [List.mapM_cons]
    constructor
    · intro h
      obtain ⟨b, hb, h⟩ := Option.bind_eq_some_iff.1 h
      obtain ⟨bs', hbs, h⟩ := Option.bind_eq_some_iff.1 h
      cases h
      exact .cons hb (ih.1 hbs)
    · intro h
      cases h with
      | cons hb hbs => simp [hb, ih.2 hbs]

inductive CellType.Holds : CellType → Cell → Prop where
  | text (s : String) : CellType.Holds .text (.text s)
  | int (n : Int32) : CellType.Holds .int (.int n)
  | real (x : Binary64) : CellType.Holds .real (.real x)
  | optionalText (s : String) : CellType.Holds .optionalText (.text s)
  | absentText : CellType.Holds .optionalText .absent
  | optionalFlag (b : Bool) : CellType.Holds .optionalFlag (.flag b)
  | absentFlag : CellType.Holds .optionalFlag .absent

theorem CellType.holds_empty (t : CellType) : t.Holds t.empty := by
  cases t <;> constructor

theorem CellType.holds_of_read? {t : CellType} {v : Value} {c : Cell} (h : t.read? v = some c) :
    t.Holds c := by
  rw [CellType.read?.eq_def] at h
  split at h
  · obtain ⟨s, -, rfl⟩ := Option.map_eq_some_iff.1 h
    exact .text s
  · obtain ⟨n, -, rfl⟩ := Option.map_eq_some_iff.1 h
    exact .int n
  · obtain ⟨x, -, rfl⟩ := Option.map_eq_some_iff.1 h
    exact .real x
  · obtain ⟨s, -, rfl⟩ := Option.map_eq_some_iff.1 h
    exact .optionalText s
  · cases h
    exact .absentText
  · cases h
    exact .optionalFlag _
  · cases h
    exact .absentFlag
  · cases h

namespace Layout

variable {α : Type} {L : Layout α} {ms ms' : List (Text × Value)} {row : List Cell} {a : α}

/-- What an object has under a key, as often as the key occurs. -/
def valuesUnder (key : String) (ms : List (Text × Value)) : List Value :=
  ms.filterMap fun m => if m.1.toString? = some key then some m.2 else none

def Named (ms : List (Text × Value)) : Prop := ∀ m ∈ ms, m.1.toString?.isSome = true

/-- The cell that an object gives a column: from the one member under its key, or an empty one
instead of a member that may be missing. -/
inductive Gives (leniency : Leniency) (ms : List (Text × Value)) (c : Column) (cell : Cell) :
    Prop where
  | present {v : Value} (h : valuesUnder c.key ms = [v]) (hr : c.type.read? v = some cell)
  | missing (h : valuesUnder c.key ms = []) (hl : leniency.allowsMissingKey = true)
      (he : cell = c.type.empty)

theorem named_and_membersAt {named : List (String × Value)} (h : namedMembers? ms = some named) :
    Named ms ∧ ∀ key, membersAt key named = valuesUnder key ms := by
  replace h := mapM_eq_some_iff.1 h
  induction h with
  | nil => exact ⟨List.forall_mem_nil _, fun _ => rfl⟩
  | @cons m m' ms named hm _ ih =>
    obtain ⟨k, hk, rfl⟩ := Option.map_eq_some_iff.1 hm
    refine ⟨List.forall_mem_cons.2 ⟨by rw [hk]; rfl, ih.1⟩, fun key => ?_⟩
    have ht := ih.2 key
    rw [membersAt, valuesUnder] at ht ⊢
    simp only [List.filterMap_cons, hk, Option.some.injEq, ht]

theorem exists_namedMembers? (h : Named ms) : ∃ named, namedMembers? ms = some named := by
  induction ms with
  | nil => exact ⟨[], rfl⟩
  | cons m ms ih =>
    obtain ⟨hm, hms⟩ := List.forall_mem_cons.1 h
    obtain ⟨k, hk⟩ := Option.isSome_iff_exists.1 hm
    obtain ⟨named, hn⟩ := ih hms
    rw [namedMembers?] at hn ⊢
    exact ⟨(k, m.2) :: named, by simp [List.mapM_cons, hk, hn]⟩

theorem cellOfMembers?_eq_some_iff {leniency : Leniency} {named : List (String × Value)}
    {c : Column} {cell : Cell} (h : membersAt c.key named = valuesUnder c.key ms) :
    cellOfMembers? leniency named c = some cell ↔ Gives leniency ms c cell := by
  rw [cellOfMembers?, h]
  constructor
  · intro hc
    split at hc
    · rename_i hv
      split at hc
      · rename_i hl
        cases hc
        exact .missing hv hl rfl
      · cases hc
    · rename_i v hv
      exact .present hv hc
    · cases hc
  · rintro (⟨hv, hr⟩ | ⟨hv, hl, he⟩)
    · rw [hv]
      exact hr
    · rw [hv, he]
      exact if_pos hl

theorem row?_object_eq_some_iff :
    L.row? (.object ms) = some row ↔
      Named ms ∧ List.Forall₂ (Gives L.leniency ms) L.columns row := by
  constructor
  · intro h
    obtain ⟨named, hn, h⟩ := Option.bind_eq_some_iff.1 h
    obtain ⟨hms, hm⟩ := named_and_membersAt hn
    exact ⟨hms, (mapM_eq_some_iff.1 h).imp fun c _ hc => (cellOfMembers?_eq_some_iff (hm c.key)).1 hc⟩
  · rintro ⟨hms, h⟩
    obtain ⟨named, hn⟩ := exists_namedMembers? hms
    obtain ⟨-, hm⟩ := named_and_membersAt hn
    rw [row?, hn]
    exact mapM_eq_some_iff.2 (h.imp fun c _ hc => (cellOfMembers?_eq_some_iff (hm c.key)).2 hc)

theorem Gives.holds {leniency : Leniency} {c : Column} {cell : Cell}
    (h : Gives leniency ms c cell) : c.type.Holds cell := by
  cases h with
  | present _ hr => exact CellType.holds_of_read? hr
  | missing _ _ he => exact he ▸ c.type.holds_empty

def Fits (columns : List Column) (row : List Cell) : Prop :=
  List.Forall₂ (fun c cell => c.type.Holds cell) columns row

/-- Records and rows of the right kinds of cell stand for each other. -/
structure Faithful (L : Layout α) : Prop where
  ofRow?_toRow (a : α) : L.ofRow? (L.toRow a) = some a
  fits (a : α) : Fits L.columns (L.toRow a)
  complete {row : List Cell} (h : Fits L.columns row) : ∃ a, L.toRow a = row

theorem Faithful.ofRow?_eq_some_iff (hL : L.Faithful) (h : Fits L.columns row) :
    L.ofRow? row = some a ↔ L.toRow a = row := by
  obtain ⟨b, rfl⟩ := hL.complete h
  rw [hL.ofRow?_toRow, Option.some.injEq]
  constructor
  · rintro rfl
    rfl
  · intro hr
    have hb := hL.ofRow?_toRow a
    rw [hr, hL.ofRow?_toRow] at hb
    exact Option.some.inj hb

theorem read?_eq_of_spells {v : Value} {s : String} (h : v.Spells s) :
    L.read? s = L.ofValue? v := by
  rw [read?, Value.read?_eq_some_iff.2 h, Option.bind_some]

theorem Faithful.read?_object_eq_some_iff {s : String} (hL : L.Faithful)
    (hs : (Value.object ms).Spells s) :
    L.read? s = some a ↔
      Named ms ∧ List.Forall₂ (Gives L.leniency ms) L.columns (L.toRow a) := by
  rw [read?_eq_of_spells hs, ofValue?, Option.bind_eq_some_iff, ← row?_object_eq_some_iff]
  constructor
  · rintro ⟨row, hr, ha⟩
    have hf : Fits L.columns row := (row?_object_eq_some_iff.1 hr).2.imp fun _ _ hg => hg.holds
    rwa [(hL.ofRow?_eq_some_iff hf).1 ha]
  · intro h
    exact ⟨L.toRow a, h, hL.ofRow?_toRow a⟩

theorem valuesUnder_cons_of_eq {m : Text × Value} {key : String}
    (h : m.1.toString? = some key) (ms : List (Text × Value)) :
    valuesUnder key (m :: ms) = m.2 :: valuesUnder key ms := by
  simp [valuesUnder, h]

theorem valuesUnder_cons_of_ne {m : Text × Value} {key : String}
    (h : m.1.toString? ≠ some key) (ms : List (Text × Value)) :
    valuesUnder key (m :: ms) = valuesUnder key ms := by
  simp [valuesUnder, h]

theorem Gives.cons_of_ne {leniency : Leniency} {c : Column} {cell : Cell} {m : Text × Value}
    (h : Gives leniency ms c cell) (hm : m.1.toString? ≠ some c.key) :
    Gives leniency (m :: ms) c cell := by
  cases h with
  | present hv hr => exact .present (by rw [valuesUnder_cons_of_ne hm, hv]) hr
  | missing hv hl he => exact .missing (by rw [valuesUnder_cons_of_ne hm, hv]) hl he

/-- The members that a written object is read back with. -/
def membersBack (columns : List Column) (values : List Value) : List (Text × Value) :=
  ((columns.map fun c => Text.ofString c.key).zip values).map fun m => (m.1.reread, m.2.reread)

theorem membersBack_cons (c : Column) (columns : List Column) (v : Value) (values : List Value) :
    membersBack (c :: columns) (v :: values) =
      ((Text.ofString c.key).reread, v.reread) :: membersBack columns values := rfl

theorem named_membersBack (columns : List Column) (values : List Value) :
    Named (membersBack columns values) := by
  intro m hm
  obtain ⟨m', hm', rfl⟩ := List.mem_map.1 hm
  obtain ⟨c, -, hc⟩ := List.mem_map.1 (List.of_mem_zip hm').1
  rw [← hc, Text.toString?_reread_ofString]
  rfl

theorem valuesUnder_membersBack {columns : List Column} {key : String}
    (h : key ∉ columns.map Column.key) (values : List Value) :
    valuesUnder key (membersBack columns values) = [] := by
  induction columns generalizing values with
  | nil => rfl
  | cons c columns ih =>
    cases values with
    | nil => rfl
    | cons v values =>
      rw [List.map_cons, List.mem_cons, not_or] at h
      rw [membersBack_cons, valuesUnder_cons_of_ne, ih h.2]
      rw [Text.toString?_reread_ofString, ne_eq, Option.some.injEq]
      exact fun he => h.1 he.symm

theorem exists_value? {t : CellType} {cell : Cell} (h : t.Holds cell) (ht : t ≠ .real) :
    ∃ v, cell.value? = some v ∧ t.read? v.reread = some cell ∧
      ∀ n, .number n ∈ v.tokens → Literal.ofChars? n.chars = some n := by
  have hs (s : String) : Value.reread (.ofString s) = .text (Text.ofString s).reread := by
    simp [Value.ofString, Value.reread]
  cases h with
  | real x => exact absurd rfl ht
  | text s =>
    refine ⟨_, rfl, ?_, by simp [Value.ofString, Value.tokens]⟩
    rw [hs, CellType.read?, Text.toString?_reread_ofString, Option.map_some]
  | optionalText s =>
    refine ⟨_, rfl, ?_, by simp [Value.ofString, Value.tokens]⟩
    rw [hs, CellType.read?, Text.toString?_reread_ofString, Option.map_some]
  | int n =>
    refine ⟨_, rfl, ?_, by simp [Value.ofInt, Value.tokens, Literal.ofChars?_chars_ofInt]⟩
    rw [Value.ofInt, Value.reread, CellType.read?, Literal.toInt32?_ofInt, Option.map_some]
    all_goals simp
  | absentText | absentFlag =>
    exact ⟨.null, rfl, by simp [Value.reread, CellType.read?], by simp [Value.tokens]⟩
  | optionalFlag b =>
    exact ⟨.bool b, rfl, by simp [Value.reread, CellType.read?], by simp [Value.tokens]⟩

theorem exists_values (leniency : Leniency) {columns : List Column} {row : List Cell}
    (h : List.Forall₂ (fun c cell => c.type.Holds cell) columns row)
    (hr : ∀ c ∈ columns, c.type ≠ .real) (hk : (columns.map Column.key).Nodup) :
    ∃ values, row.mapM Cell.value? = some values ∧
      (∀ v ∈ values, ∀ n, .number n ∈ v.tokens → Literal.ofChars? n.chars = some n) ∧
      List.Forall₂ (Gives leniency (membersBack columns values)) columns row := by
  induction h with
  | nil => exact ⟨[], rfl, List.forall_mem_nil _, .nil⟩
  | @cons c cell columns row hc _ ih =>
    obtain ⟨v, hv, hb, hn⟩ := exists_value? hc (hr c List.mem_cons_self)
    obtain ⟨hkc, hks⟩ := List.nodup_cons.1 hk
    obtain ⟨values, hvs, hns, hg⟩ := ih (fun c hc => hr c (List.mem_cons_of_mem _ hc)) hks
    refine ⟨v :: values, by simp [List.mapM_cons, hv, hvs],
      List.forall_mem_cons.2 ⟨hn, hns⟩, ?_⟩
    rw [membersBack_cons]
    constructor
    · refine .present ?_ hb
      rw [valuesUnder_cons_of_eq (Text.toString?_reread_ofString c.key),
        valuesUnder_membersBack hkc]
    · -- the keys of the other columns are different
      have hne (c' : Column) (hc' : c' ∈ columns) :
          (Text.ofString c.key).reread.toString? ≠ some c'.key := by
        rw [Text.toString?_reread_ofString, ne_eq, Option.some.injEq]
        intro he
        exact hkc (he ▸ List.mem_map_of_mem hc')
      exact ((List.forall₂_and_left _ _).2 ⟨hne, hg⟩).imp fun c' cell' h => h.2.cons_of_ne h.1

theorem number_mem_tokensOfMembers {n : Literal} (h : .number n ∈ Value.tokensOfMembers ms) :
    ∃ m ∈ ms, .number n ∈ m.2.tokens := by
  induction ms with
  | nil => simp [Value.tokensOfMembers] at h
  | cons m ms ih =>
    cases ms with
    | nil => exact ⟨m, List.mem_cons_self, by simpa [Value.tokensOfMembers] using h⟩
    | cons m' ms =>
      rw [Value.tokensOfMembers] at h
      · rcases List.mem_append.1 h with h | h
        · exact ⟨m, List.mem_cons_self, by simpa using h⟩
        · obtain ⟨m'', hm, hn⟩ := ih (by simpa using h)
          exact ⟨m'', List.mem_cons_of_mem m hm, hn⟩
      · simp

/-- A record without reals is written, and read back as it was. -/
theorem Faithful.exists_write? (hL : L.Faithful) (hr : ∀ c ∈ L.columns, c.type ≠ .real)
    (hk : (L.columns.map Column.key).Nodup) (a : α) :
    ∃ s, L.write? a = some s ∧ L.read? s = some a := by
  obtain ⟨values, hv, hn, hg⟩ := exists_values L.leniency (hL.fits a) hr hk
  let v : Value := .object ((L.columns.map fun c => Text.ofString c.key).zip values)
  refine ⟨v.compact, by simp [write?, toValue?, hv, v], ?_⟩
  have hb : Value.read? v.compact = some (.object (membersBack L.columns values)) := by
    rw [Value.read?_compact]
    · simp [v, Value.reread, membersBack]
    · intro n hm
      obtain ⟨m, hm, hn'⟩ := number_mem_tokensOfMembers (by simpa [v, Value.tokens] using hm)
      exact hn m.2 (List.of_mem_zip hm).2 n hn'
  rw [read?, hb, Option.bind_some, ofValue?,
    row?_object_eq_some_iff.2 ⟨named_membersBack _ _, hg⟩]
  exact hL.ofRow?_toRow a

end Layout

end MarketFeed
