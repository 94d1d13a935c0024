
namespace MarketFeed

structure Queue (α : Type) where
  items : List α := []
  deriving DecidableEq

namespace Queue

variable {α : Type}

def empty : Queue α := ⟨[]⟩

def push (q : Queue α) (a : α) : Queue α := ⟨q.items ++ [a]⟩

def pop? (q : Queue α) : Option (α × Queue α) :=
  match q.items with
  | [] => none
  | a :: rest => some (a, ⟨rest⟩)

def size (q : Queue α) : Nat := q.items.length

def isEmpty (q : Queue α) : Bool := q.items.isEmpty

def clear (q : Queue α) : Nat × Queue α := (q.items.length, empty)

def pushAll (q : Queue α) (as : List α) : Queue α := ⟨q.items ++ as⟩

def popAll (q : Queue α) : List α × Queue α := (q.items, empty)

theorem items_push (q : Queue α) (a : α) : (q.push a).items = q.items ++ [a] := rfl

theorem pushAll_eq_foldl (q : Queue α) (as : List α) : q.pushAll as = as.foldl push q := by
  induction as generalizing q with
  | nil => simp [pushAll]
  | cons a as ih =>
    rw [List.foldl_cons, ← ih]
    simp [pushAll, push]

theorem pop?_eq_none_iff {q : Queue α} : q.pop? = none ↔ q.items = [] := by
  cases h : q.items <;> simp [pop?, h]

theorem pop?_eq_some_iff {q r : Queue α} {a : α} :
    q.pop? = some (a, r) ↔ q.items = a :: r.items := by
  cases q with
  | mk items =>
    cases r with
    | mk rest => cases items <;> simp [pop?]

end Queue

end MarketFeed
