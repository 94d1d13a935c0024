import Mathlib.Data.List.Induction
import MarketFeed.Loopback.Course
import MarketFeed.Proofs.Loopback.Stream

namespace MarketFeed.Loopback

open Vendor (Exchange)

/-- The callbacks that an operation sends to the thread of a line, after the operations before it. A
thread that was ended is sent nothing more. -/
def portion (slot : Nat) (earlier : List Happening) : Happening → List Callback
  | .called other e =>
    if other = slot ∧ ended earlier slot = false then
      block (optionsAfter earlier) (exchanges earlier slot) e
    else []
  | .emitted callbacks true => if newest? earlier = some slot then callbacks else []
  | _ => []

def sent (slot : Nat) (hs : List Happening) : List Callback :=
  (hs.mapIdx fun i h => portion slot (hs.take i) h).flatten

variable {hs : List Happening} {x : Happening} {g g' : Loopback} {slot other : Nat}

section Histories

theorem ended_concat (hs : List Happening) (x : Happening) (slot : Nat) :
    ended (hs ++ [x]) slot = (ended hs slot || x.ends slot) := by
  simp [ended]

theorem exchanges_concat (hs : List Happening) (x : Happening) (slot : Nat) :
    exchanges (hs ++ [x]) slot = exchanges hs slot ++ (x.exchange? slot).toList := by
  rw [exchanges, List.filterMap_append]
  cases hx : x.exchange? slot <;> simp [exchanges, hx]

theorem optionsAfter_concat (hs : List Happening) (x : Happening) :
    optionsAfter (hs ++ [x]) = x.options?.getD (optionsAfter hs) := by
  cases hx : x.options? <;> simp [optionsAfter, hx]

theorem newest?_concat (hs : List Happening) (x : Happening) :
    newest? (hs ++ [x]) = x.opened?.or (newest? hs) := by
  cases hx : x.opened? <;> simp [newest?, hx]

theorem sent_concat (slot : Nat) (hs : List Happening) (x : Happening) :
    sent slot (hs ++ [x]) = sent slot hs ++ portion slot hs x := by
  rw [sent, mapIdx_take_concat, List.flatten_append, List.flatten_singleton]
  rfl

theorem sent_append (slot : Nat) (hs later : List Happening) :
    ∃ rest, sent slot (hs ++ later) = sent slot hs ++ rest := by
  induction later using List.reverseRecOn with
  | nil => exact ⟨[], by rw [List.append_nil, List.append_nil]⟩
  | append_singleton later x ih =>
    obtain ⟨rest, hr⟩ := ih
    refine ⟨rest ++ portion slot (hs ++ later) x, ?_⟩
    rw [← List.append_assoc, sent_concat, hr, List.append_assoc]

end Histories

/-- An operation that has nothing to do with a line. -/
structure PassesBy (slot : Nat) (earlier : List Happening) (x : Happening) : Prop where
  ends : x.ends slot = false
  exchange? : x.exchange? slot = none
  portion : portion slot earlier x = []

theorem passesBy_called (h : other ≠ slot) (e : Exchange) : PassesBy slot hs (.called other e) where
  ends := by
    obtain ⟨c, r⟩ := e
    cases c with
    | release =>
      cases r with
      | returned => exact beq_false_of_ne h
      | panicked => rfl
    | _ => rfl
  exchange? := if_neg h
  portion := if_neg fun hp => h hp.1

theorem passesBy_emitted {cs : List Callback} {taken : Bool}
    (h : taken = true → newest? hs ≠ some slot) : PassesBy slot hs (.emitted cs taken) where
  ends := rfl
  exchange? := rfl
  portion := by
    cases taken with
    | false => rfl
    | true => exact if_neg (h rfl)

/-- A line whose thread is at work: it has registered what was asked for, and has raised or has yet to
raise what it was sent. -/
structure AtWork (slot : Nat) (hs : List Happening) (l : Line) : Prop where
  running : l.running = true
  joined : l.joined = false
  unstopped : .stop ∉ l.queue
  fronts : l.fronts = (exchanges hs slot).flatMap registration
  promised : l.promised = sent slot hs

/-- How a line stands after some operations: its thread is at work, or it has ended and has raised all
that it was sent. -/
inductive Stands (slot : Nat) (hs : List Happening) (l : Line) : Prop where
  | atWork (he : ended hs slot = false) (h : AtWork slot hs l)
  | finished (he : ended hs slot = true) (h : l.Finished (sent slot hs))

theorem AtWork.extend {as : List String} {cs : List Callback} (h : AtWork slot hs (g.line slot))
    (he : Extends slot g g' as cs) (ha : (x.exchange? slot).toList.flatMap registration = as)
    (hc : portion slot hs x = cs) : AtWork slot (hs ++ [x]) (g'.line slot) := by
  apply AtWork.mk
  case running => exact he.running.trans h.running
  case joined => exact he.joined.trans h.joined
  case unstopped => exact he.unstopped h.unstopped
  case fronts => rw [he.fronts, h.fronts, exchanges_concat, List.flatMap_append, ha]
  case promised => rw [he.promised, h.promised, sent_concat, hc]

theorem Stands.passBy {l : Line} (h : Stands slot hs l) (hx : PassesBy slot hs x) :
    Stands slot (hs ++ [x]) l := by
  have he : ended (hs ++ [x]) slot = ended hs slot := by
    rw [ended_concat, hx.ends, Bool.or_false]
  have hs' : sent slot (hs ++ [x]) = sent slot hs := by
    rw [sent_concat, hx.portion, List.append_nil]
  cases h with
  | atWork hn h =>
    refine .atWork (he.trans hn) ⟨h.running, h.joined, h.unstopped, ?_, hs'.symm ▸ h.promised⟩
    rw [h.fronts, exchanges_concat, hx.exchange?]
    exact congrArg _ (List.append_nil _).symm
  | finished hn h => exact .finished (he.trans hn) (hs'.symm ▸ h)

theorem Stands.keep (h : Stands slot hs (g.line slot)) (he : Extends slot g g' [] [])
    (hf : ∀ {cs}, (g.line slot).Finished cs → (g'.line slot).Finished cs) :
    Stands slot hs (g'.line slot) := by
  cases h with
  | atWork hn h =>
    refine .atWork hn ⟨he.running.trans h.running, he.joined.trans h.joined,
      he.unstopped h.unstopped, ?_, ?_⟩
    · rw [he.fronts, List.append_nil, h.fronts]
    · rw [he.promised, List.append_nil, h.promised]
  | finished hn h => exact .finished hn (hf h)

theorem Stands.finish (h : Stands slot hs (g.line slot)) (hl : slot < g.lines.length)
    (hx : x.ends slot = true) (hp : portion slot hs x = []) (he : Ends slot g g') :
    Stands slot (hs ++ [x]) (g'.line slot) := by
  have hn : ended (hs ++ [x]) slot = true := by
    rw [ended_concat, hx, Bool.or_true]
  apply Stands.finished hn
  rw [sent_concat, hp, List.append_nil]
  cases h with
  | atWork _ h =>
    rw [← h.promised]
    exact he.finished hl h.running h.joined h.unstopped
  | finished _ h => exact he.again h

theorem Stands.call (h : Stands slot hs (g.line slot)) {e : Exchange}
    (hx : Happening.ends slot (.called slot e) = false)
    (he : (g.line slot).fronts = (exchanges hs slot).flatMap registration →
      Extends slot g g' (registration e) (block (optionsAfter hs) (exchanges hs slot) e))
    (hf : ∀ {cs}, (g.line slot).Finished cs → (g'.line slot).Finished cs) :
    Stands slot (hs ++ [.called slot e]) (g'.line slot) := by
  have hn' : ended (hs ++ [.called slot e]) slot = ended hs slot := by
    rw [ended_concat, hx, Bool.or_false]
  cases h with
  | atWork hn h =>
    refine .atWork (hn'.trans hn) (h.extend (he h.fronts) ?_ (if_pos ⟨rfl, hn⟩))
    rw [Happening.exchange?, if_pos rfl]
    exact List.flatMap_singleton ..
  | finished hn h =>
    have hp : portion slot hs (.called slot e) = [] := by
      apply if_neg
      rintro ⟨-, hn'⟩
      cases hn.symm.trans hn'
    refine .finished (hn'.trans hn) ?_
    rw [sent_concat, hp, List.append_nil]
    exact hf h

structure Unopened (slot : Nat) (hs : List Happening) : Prop where
  ended : ended hs slot = false
  exchanges : exchanges hs slot = []
  sent : sent slot hs = []

theorem Unopened.passBy (h : Unopened slot hs) (hx : PassesBy slot hs x) :
    Unopened slot (hs ++ [x]) where
  ended := by rw [ended_concat, h.ended, hx.ends]; rfl
  exchanges := by rw [exchanges_concat, h.exchanges, hx.exchange?]; rfl
  sent := by rw [sent_concat, h.sent, hx.portion]; rfl

theorem Unopened.stands (h : Unopened slot hs) : Stands slot hs {} := by
  apply Stands.atWork h.ended
  apply AtWork.mk
  case running => rfl
  case joined => rfl
  case unstopped => exact List.not_mem_nil
  case fronts => rw [h.exchanges]; rfl
  case promised => exact h.sent.symm

theorem Stands.prefix_sent {l : Line} (h : Stands slot hs l) : l.raised <+: sent slot hs := by
  cases h with
  | atWork _ hw =>
    rw [← hw.promised]
    exact List.prefix_append _ _
  | finished _ hf => exact hf.raised ▸ List.prefix_rfl

end MarketFeed.Loopback
