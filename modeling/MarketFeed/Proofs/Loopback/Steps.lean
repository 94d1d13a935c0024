import Mathlib.Logic.Basic
import MarketFeed.Loopback.Shared
import MarketFeed.Proofs.Loopback.Ending

namespace MarketFeed.Loopback

def Caller.isDone : Caller → Bool
  | emit _ (.done _) | finish _ .done => true
  | _ => false

namespace Shared

/-- What a caller is at when it has come to the next stage of its call without changing anything. -/
inductive Proceeds (s : Shared) : Caller → Caller → Prop
  | look (callbacks : List Callback) (free : s.isLocked = false) :
      Proceeds s (.emit callbacks .arrived) (.emit callbacks (.holding s.gateway.live))
  | refuse (callbacks : List Callback) :
      Proceeds s (.emit callbacks (.holding none)) (.emit callbacks (.done none))
  | skip (slot : Nat) (hj : (s.gateway.line slot).joined = true) :
      Proceeds s (.finish slot .arrived) (.finish slot .joined)
  | join (slot : Nat) (hr : (s.gateway.line slot).running = false) :
      Proceeds s (.finish slot .told) (.finish slot .joined)
  | lock (slot : Nat) (free : s.isLocked = false) :
      Proceeds s (.finish slot .joined) (.finish slot .holding)

inductive Step (s : Shared) : Shared → Prop
  | create (free : s.isLocked = false) : Step s { s with gateway := s.gateway.create.2 }
  | push (slot : Nat) (callbacks : List Callback) (free : s.isFree slot = true) :
      Step s (s.send slot none callbacks)
  | emit (callbacks : List Callback) : Step s (s.join (.emit callbacks .arrived))
  | finish (slot : Nat) (free : s.isFree slot = true) : Step s (s.join (.finish slot .arrived))
  | proceed (place : Nat) (c c' : Caller) (hc : s.callers[place]? = some c)
      (hp : s.Proceeds c c') : Step s (s.setCaller place c')
  | deliver (place slot : Nat) (callbacks : List Callback)
      (hc : s.callers[place]? = some (.emit callbacks (.holding (some slot)))) :
      Step s ((s.setCaller place (.emit callbacks (.done (some slot)))).send slot (some place)
        callbacks)
  | tell (place slot : Nat) (hc : s.callers[place]? = some (.finish slot .arrived))
      (hj : (s.gateway.line slot).joined = false) :
      Step s { s.setCaller place (.finish slot .told) with gateway := s.gateway.pushStop slot }
  | clear (place slot : Nat) (hc : s.callers[place]? = some (.finish slot .holding)) :
      Step s { s.setCaller place (.finish slot .done) with gateway := s.gateway.clearLive slot }
  | raise (slot : Nat) (l : Line) (ha : (s.gateway.line slot).advance? = some l) :
      Step s { s with gateway := s.gateway.modifyLine slot fun _ => l }

theorem Step.of_advance? {s t : Shared} {place : Nat} (h : s.advance? place = some t) :
    Step s t := by
  obtain ⟨c, hc, h⟩ := Option.bind_eq_some_iff.1 h
  cases c with
  | emit callbacks stage =>
    cases stage with
    | arrived =>
      obtain ⟨free, he⟩ := Option.ite_none_left_eq_some.1 h
      cases he
      exact .proceed place _ _ hc (.look callbacks (Bool.eq_false_iff.2 free))
    | holding found =>
      cases found with
      | none =>
        cases h
        exact .proceed place _ _ hc (.refuse callbacks)
      | some slot =>
        cases h
        exact .deliver place slot callbacks hc
    | done found => cases h
  | finish slot stage =>
    cases stage with
    | arrived =>
      rcases ite_eq_iff.1 h with ⟨hj, he⟩ | ⟨hj, he⟩
      · cases he
        exact .proceed place _ _ hc (.skip slot hj)
      · cases he
        exact .tell place slot hc (Bool.eq_false_iff.2 hj)
    | told =>
      obtain ⟨hr, he⟩ := Option.ite_none_left_eq_some.1 h
      cases he
      exact .proceed place _ _ hc (.join slot (Bool.eq_false_iff.2 hr))
    | joined =>
      obtain ⟨free, he⟩ := Option.ite_none_left_eq_some.1 h
      cases he
      exact .proceed place _ _ hc (.lock slot (Bool.eq_false_iff.2 free))
    | holding =>
      cases h
      exact .clear place slot hc
    | done => cases h

section
variable {s : Shared} {place slot : Nat} {c c' : Caller}

theorem advance?_of_proceeds (hc : s.callers[place]? = some c) (hp : s.Proceeds c c') :
    s.advance? place = some (s.setCaller place c') := by
  rw [advance?, hc]
  cases hp with
  | look callbacks free => exact if_neg (Bool.eq_false_iff.1 free)
  | refuse callbacks => rfl
  | skip slot hj => exact if_pos hj
  | join slot hr => exact if_neg (Bool.eq_false_iff.1 hr)
  | lock slot free => exact if_neg (Bool.eq_false_iff.1 free)

theorem advance?_deliver {callbacks : List Callback}
    (hc : s.callers[place]? = some (.emit callbacks (.holding (some slot)))) :
    s.advance? place =
      some ((s.setCaller place (.emit callbacks (.done (some slot)))).send slot (some place)
        callbacks) := by
  rw [advance?, hc]
  rfl

theorem advance?_tell (hc : s.callers[place]? = some (.finish slot .arrived))
    (hj : (s.gateway.line slot).joined = false) :
    s.advance? place =
      some { s.setCaller place (.finish slot .told) with gateway := s.gateway.pushStop slot } := by
  rw [advance?, hc]
  exact if_neg (Bool.eq_false_iff.1 hj)

theorem advance?_clear (hc : s.callers[place]? = some (.finish slot .holding)) :
    s.advance? place =
      some { s.setCaller place (.finish slot .done) with gateway := s.gateway.clearLive slot } := by
  rw [advance?, hc]
  rfl

end

theorem Step.of_step? {s t : Shared} {m : Move} (h : s.step? m = some t) : Step s t := by
  cases m with
  | create =>
    obtain ⟨free, he⟩ := Option.ite_none_left_eq_some.1 h
    cases he
    exact .create (Bool.eq_false_iff.2 free)
  | push slot callbacks =>
    obtain ⟨free, he⟩ := Option.ite_none_right_eq_some.1 h
    cases he
    exact .push slot callbacks free
  | emit callbacks =>
    cases h
    exact .emit callbacks
  | finish slot =>
    obtain ⟨free, he⟩ := Option.ite_none_right_eq_some.1 h
    cases he
    exact .finish slot free
  | advance place => exact .of_advance? h
  | raise slot =>
    obtain ⟨l, ha, he⟩ := Option.map_eq_some_iff.1 h
    cases he
    exact .raise slot l ha

theorem run_cons (s : Shared) (m : Move) (ms : List Move) :
    s.run (m :: ms) = (s.step? m).bind fun t => t.run ms := rfl

theorem run_append (s : Shared) (ms ms' : List Move) :
    s.run (ms ++ ms') = (s.run ms).bind fun t => t.run ms' := List.foldlM_append

theorem run_induction {P : Shared → Prop} (step : ∀ s t, P s → Step s t → P t) {s t : Shared}
    {ms : List Move} (hr : s.run ms = some t) (hs : P s) : P t := by
  induction ms generalizing s with
  | nil =>
    cases hr
    exact hs
  | cons m ms ih =>
    rw [run_cons] at hr
    obtain ⟨u, hu, hr⟩ := Option.bind_eq_some_iff.1 hr
    exact ih hr (step s u hs (.of_step? hu))

end Shared

end MarketFeed.Loopback
