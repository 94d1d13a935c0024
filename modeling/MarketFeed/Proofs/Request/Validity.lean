import MarketFeed.Proofs.Request.Address
import MarketFeed.Request.Validity

namespace MarketFeed

def ArgumentCheck (r : Except Failure Unit) : Prop :=
  ∀ f, r = .error f → ∃ text, f = .invalidArgument text

namespace ArgumentCheck

theorem ok : ArgumentCheck (.ok ()) := by
  intro f h
  cases h

theorem fault (text : String) : ArgumentCheck (.error (.invalidArgument text)) := by
  intro f h
  cases h
  exact ⟨text, rfl⟩

theorem bind {x : Except Failure Unit} {k : Unit → Except Failure Unit} (hx : ArgumentCheck x)
    (hk : ∀ u, ArgumentCheck (k u)) : ArgumentCheck (x >>= k) := by
  intro f h
  cases x with
  | error e => exact hx f h
  | ok u => exact hk u f h

theorem width (name value : String) (max : Nat) : ArgumentCheck (checkWidth name value max) := by
  rw [checkWidth]
  split
  · exact fault _
  · exact ok

theorem instrument (id : String) : ArgumentCheck (checkInstrument id) := by
  rw [checkInstrument]
  split
  · exact fault _
  · exact width _ _ _

theorem all (ids : List String) : ArgumentCheck (ids.forM checkInstrument) := by
  induction ids with
  | nil => exact ok
  | cons id ids ih =>
    exact (instrument id).bind fun _ => ih

theorem instruments (ids : List String) : ArgumentCheck (checkInstruments ids) := by
  rw [checkInstruments]
  split
  · exact fault _
  · exact all ids

theorem address (a : String) : ArgumentCheck (Address.check a) := by
  rw [Address.check]
  cases Address.afterTransport? a.toList with
  | none => exact fault _
  | some rest =>
    cases hs : Address.splitLastColon? rest with
    | none =>
      simp only [hs]
      exact fault _
    | some r =>
      simp only [hs]
      split
      · exact fault _
      · exact ok

theorem request (r : Request) : ArgumentCheck r.check := by
  cases r with
  | registerFront a => exact address a
  | registerNameServer a => exact address a
  | subscribe feed ids => exact instruments ids
  | unsubscribe feed ids => exact instruments ids
  | login r => exact (width _ _ _).bind fun _ => (width _ _ _).bind fun _ => width _ _ _
  | registerUser u => exact (width _ _ _).bind fun _ => (width _ _ _).bind fun _ => width _ _ _
  | logout u => exact (width _ _ _).bind fun _ => width _ _ _
  | _ => exact ok

end ArgumentCheck

/-- A text for a field of fixed width, counted in bytes. -/
structure FixedText where
  name : String
  text : String
  width : Nat

namespace FixedText

def Fits (t : FixedText) : Prop := t.text.utf8ByteSize ≤ t.width

instance (t : FixedText) : Decidable t.Fits := inferInstanceAs (Decidable (_ ≤ _))

def fault (t : FixedText) : Failure :=
  .invalidArgument (t.name ++ " exceeds " ++ toString t.width ++ " bytes")

def check (t : FixedText) : Except Failure Unit := checkWidth t.name t.text t.width

theorem check_of_fits {t : FixedText} (h : t.Fits) : t.check = .ok () := if_neg (Nat.not_lt.2 h)

theorem check_of_not_fits {t : FixedText} (h : ¬ t.Fits) : t.check = .error t.fault :=
  if_pos (Nat.lt_of_not_le h)

end FixedText

def IsInstrument (id : String) : Prop := 1 ≤ id.utf8ByteSize ∧ id.utf8ByteSize ≤ 30

instance (id : String) : Decidable (IsInstrument id) := inferInstanceAs (Decidable (_ ∧ _))

def instrumentFault (id : String) : Failure :=
  if id = "" then .invalidArgument "instrument id must not be empty"
  else FixedText.fault ⟨"InstrumentID", id, 30⟩

theorem utf8ByteSize_pos_iff {id : String} : 1 ≤ id.utf8ByteSize ↔ id ≠ "" := by
  rw [Nat.one_le_iff_ne_zero, ne_eq, String.utf8ByteSize_eq_zero_iff]

theorem checkInstrument_of_isInstrument {id : String} (h : IsInstrument id) :
    checkInstrument id = .ok () := by
  rw [checkInstrument, if_neg (utf8ByteSize_pos_iff.1 h.1)]
  exact FixedText.check_of_fits (t := ⟨"InstrumentID", id, 30⟩) h.2

theorem checkInstrument_of_not_isInstrument {id : String} (h : ¬ IsInstrument id) :
    checkInstrument id = .error (instrumentFault id) := by
  rw [checkInstrument, instrumentFault]
  by_cases he : id = ""
  · rw [if_pos he, if_pos he]
  · rw [if_neg he, if_neg he]
    have hw : ¬ id.utf8ByteSize ≤ 30 := fun hle => h ⟨utf8ByteSize_pos_iff.2 he, hle⟩
    exact FixedText.check_of_not_fits (t := ⟨"InstrumentID", id, 30⟩) hw

section

variable {α : Type} {f : α → Except Failure Unit}

theorem forM_cons (x : α) (xs : List α) :
    (x :: xs).forM f = (f x).bind fun _ => xs.forM f := rfl

theorem forM_singleton (x : α) : [x].forM f = f x := by
  rw [forM_cons]
  cases f x <;> rfl

theorem forM_eq_ok_iff {xs : List α} : xs.forM f = .ok () ↔ ∀ x ∈ xs, f x = .ok () := by
  induction xs with
  | nil => exact ⟨fun _ => nofun, fun _ => rfl⟩
  | cons x xs ih =>
    rw [forM_cons, List.forall_mem_cons, ← ih]
    cases f x with
    | error e => exact ⟨nofun, fun h => nomatch h.1⟩
    | ok u => exact ⟨fun h => ⟨rfl, h⟩, fun h => h.2⟩

/-- The first member with a fault is the one that is told of. -/
theorem forM_of_first {before after : List α} {x : α} {e : Failure}
    (hb : ∀ y ∈ before, f y = .ok ()) (hx : f x = .error e) :
    (before ++ x :: after).forM f = .error e := by
  induction before with
  | nil =>
    rw [List.nil_append, forM_cons, hx]
    rfl
  | cons y before ih =>
    obtain ⟨hy, hb⟩ := List.forall_mem_cons.1 hb
    rw [List.cons_append, forM_cons, hy]
    exact ih hb

end

namespace Request

/-- The texts of a request that go into fields of fixed width, in the order in which they are
checked. -/
def fixedTexts : Request → List FixedText
  | login r => [⟨"BrokerID", r.brokerId, 10⟩, ⟨"UserID", r.userId, 15⟩, ⟨"Password", r.password, 40⟩]
  | logout u => [⟨"BrokerID", u.brokerId, 10⟩, ⟨"UserID", u.userId, 15⟩]
  | registerUser u =>
    [⟨"BrokerID", u.brokerId, 10⟩, ⟨"UserID", u.userId, 15⟩, ⟨"LoginMode", u.loginMode, 1⟩]
  | _ => []

def instruments? : Request → Option (List String)
  | subscribe _ ids | unsubscribe _ ids => some ids
  | _ => none

def address? : Request → Option String
  | registerFront address | registerNameServer address => some address
  | _ => none

/-- What the addresses, instruments and texts of a request must be like. -/
structure WellFormed (r : Request) : Prop where
  address : ∀ a, r.address? = some a → Address.WellFormed a
  instruments : ∀ ids, r.instruments? = some ids → ids ≠ [] ∧ ∀ id ∈ ids, IsInstrument id
  texts : ∀ t ∈ r.fixedTexts, t.Fits

theorem check_of_address {r : Request} {a : String} (h : r.address? = some a) :
    r.check = Address.check a ∧ r.instruments? = none ∧ r.fixedTexts = [] := by
  cases r with
  | registerFront address =>
    cases h
    exact ⟨rfl, rfl, rfl⟩
  | registerNameServer address =>
    cases h
    exact ⟨rfl, rfl, rfl⟩
  | _ => cases h

theorem check_of_instruments {r : Request} {ids : List String} (h : r.instruments? = some ids) :
    r.check = checkInstruments ids ∧ r.address? = none ∧ r.fixedTexts = [] := by
  cases r with
  | subscribe feed ids' =>
    cases h
    exact ⟨rfl, rfl, rfl⟩
  | unsubscribe feed ids' =>
    cases h
    exact ⟨rfl, rfl, rfl⟩
  | _ => cases h

theorem check_of_texts {r : Request} (ha : r.address? = none) (hi : r.instruments? = none) :
    r.check = r.fixedTexts.forM FixedText.check := by
  cases r with
  | registerFront address => cases ha
  | registerNameServer address => cases ha
  | subscribe feed ids => cases hi
  | unsubscribe feed ids => cases hi
  | login r =>
    rw [fixedTexts, forM_cons, forM_cons, forM_singleton]
    rfl
  | registerUser u =>
    rw [fixedTexts, forM_cons, forM_cons, forM_singleton]
    rfl
  | logout u =>
    rw [fixedTexts, forM_cons, forM_singleton]
    rfl
  | _ => rfl

theorem checkInstruments_eq_ok_iff {ids : List String} :
    checkInstruments ids = .ok () ↔ ids ≠ [] ∧ ∀ id ∈ ids, IsInstrument id := by
  rw [checkInstruments]
  by_cases hn : ids = []
  · rw [if_pos hn]
    exact ⟨nofun, fun h => absurd hn h.1⟩
  · rw [if_neg hn, forM_eq_ok_iff]
    refine ⟨fun h => ⟨hn, fun id hid => ?_⟩, fun h id hid => ?_⟩
    · apply Classical.byContradiction
      intro hbad
      exact nomatch (checkInstrument_of_not_isInstrument hbad).symm.trans (h id hid)
    · exact checkInstrument_of_isInstrument (h.2 id hid)

theorem forM_check_eq_ok_iff {ts : List FixedText} :
    ts.forM FixedText.check = .ok () ↔ ∀ t ∈ ts, t.Fits := by
  rw [forM_eq_ok_iff]
  refine forall₂_congr fun t _ => ⟨fun h => ?_, FixedText.check_of_fits⟩
  apply Classical.byContradiction
  intro hbad
  exact nomatch (FixedText.check_of_not_fits hbad).symm.trans h

theorem check_eq_ok_iff {r : Request} : r.check = .ok () ↔ r.WellFormed := by
  cases ha : r.address? with
  | some a =>
    obtain ⟨hc, hi, ht⟩ := check_of_address ha
    rw [hc, Address.check_eq_ok_iff]
    constructor
    · intro h
      apply WellFormed.mk
      case address => exact fun b hb => Option.some.inj (ha.symm.trans hb) ▸ h
      case instruments => exact fun ids hids => nomatch hi.symm.trans hids
      case texts => exact ht ▸ nofun
    · exact fun h => h.address a ha
  | none =>
    cases hi : r.instruments? with
    | some ids =>
      obtain ⟨hc, -, ht⟩ := check_of_instruments hi
      rw [hc, checkInstruments_eq_ok_iff]
      constructor
      · intro h
        apply WellFormed.mk
        case address => exact fun b hb => nomatch ha.symm.trans hb
        case instruments => exact fun ids' h' => Option.some.inj (hi.symm.trans h') ▸ h
        case texts => exact ht ▸ nofun
      · exact fun h => h.instruments ids hi
    | none =>
      rw [check_of_texts ha hi, forM_check_eq_ok_iff]
      constructor
      · intro h
        apply WellFormed.mk
        case address => exact fun b hb => nomatch ha.symm.trans hb
        case instruments => exact fun ids hids => nomatch hi.symm.trans hids
        case texts => exact h
      · exact fun h => h.texts

/-- A request is accepted exactly if it is well formed. One that is not is refused for its
arguments: where texts are too long the first of them is named, in the order of their fields, and of
a list of instruments the first that is none. -/
structure Judged (r : Request) : Prop where
  accepted : r.check = .ok () ↔ r.WellFormed
  refused : ∀ f, r.check = .error f → ∃ text, f = .invalidArgument text
  text : ∀ before t after, r.fixedTexts = before ++ t :: after → (∀ u ∈ before, u.Fits) →
    ¬ t.Fits → r.check = .error t.fault
  instrument : ∀ before id after, r.instruments? = some (before ++ id :: after) →
    (∀ i ∈ before, IsInstrument i) → ¬ IsInstrument id → r.check = .error (instrumentFault id)

theorem accepted_iff_wellFormed (r : Request) : r.Judged := by
  constructor
  case accepted => exact check_eq_ok_iff
  case refused => exact ArgumentCheck.request r
  case text =>
    intro before t after ht hb hbad
    have hne : r.fixedTexts ≠ [] := ht ▸ List.append_ne_nil_of_right_ne_nil _ (List.cons_ne_nil _ _)
    have ha : r.address? = none :=
      Option.eq_none_iff_forall_ne_some.2 fun _ h => hne (check_of_address h).2.2
    have hi : r.instruments? = none :=
      Option.eq_none_iff_forall_ne_some.2 fun _ h => hne (check_of_instruments h).2.2
    rw [check_of_texts ha hi, ht]
    exact forM_of_first (fun u hu => FixedText.check_of_fits (hb u hu))
      (FixedText.check_of_not_fits hbad)
  case instrument =>
    intro before id after hi hb hbad
    have hne : before ++ id :: after ≠ [] :=
      List.append_ne_nil_of_right_ne_nil _ (List.cons_ne_nil _ _)
    rw [(check_of_instruments hi).1, checkInstruments, if_neg hne]
    exact forM_of_first (fun i hid => checkInstrument_of_isInstrument (hb i hid))
      (checkInstrument_of_not_isInstrument hbad)

def crowded : LoginRequest where
  brokerId := "9999"
  userId := "0123456789abcdef"
  password := "01234567890123456789012345678901234567890"

def misnamed : List String := ["IO2401-C-3500", "éééééééééééééééé", ""]

theorem accepted_iff_wellFormed_of_faults :
    (login crowded).check = .error (.invalidArgument "UserID exceeds 15 bytes") ∧
    (subscribe .quotes misnamed).check = .error (.invalidArgument "InstrumentID exceeds 30 bytes") ∧
    (subscribe .quotes misnamed.reverse).check =
      .error (.invalidArgument "instrument id must not be empty") := by
  refine ⟨?_, ?_, ?_⟩
  · exact (accepted_iff_wellFormed (login crowded)).text [⟨"BrokerID", "9999", 10⟩]
      ⟨"UserID", crowded.userId, 15⟩ [⟨"Password", crowded.password, 40⟩] rfl (by decide) (by decide)
  · exact (accepted_iff_wellFormed (subscribe .quotes misnamed)).instrument ["IO2401-C-3500"]
      "éééééééééééééééé" [""] rfl (by decide) (by decide)
  · exact (accepted_iff_wellFormed (subscribe .quotes misnamed.reverse)).instrument []
      "" ["éééééééééééééééé", "IO2401-C-3500"] rfl (by decide) (by decide)

end Request

end MarketFeed
