import MarketFeed.Event

namespace MarketFeed

structure Listeners (α : Type) where
  slots : Vector (Option α) 12

namespace Listeners

variable {α : Type}

def empty : Listeners α := ⟨.replicate 12 none⟩

def find? (t : Listeners α) (kind : EventKind) : Option α := t.slots[kind.index]

def has (t : Listeners α) (kind : EventKind) : Bool := (t.find? kind).isSome

/-- Puts a listener in the place of any earlier one. -/
def register (t : Listeners α) (kind : EventKind) (a : α) : Listeners α :=
  ⟨t.slots.set kind.index (some a)⟩

def unregister (t : Listeners α) (kind : EventKind) : Listeners α :=
  ⟨t.slots.set kind.index none⟩

def size (t : Listeners α) : Nat := t.slots.toList.countP Option.isSome

def isEmpty (t : Listeners α) : Bool := t.size == 0

theorem find?_empty (kind : EventKind) : (empty : Listeners α).find? kind = none := by
  simp [find?, empty]

theorem find?_register (t : Listeners α) (kind kind' : EventKind) (a : α) :
    (t.register kind a).find? kind' = if kind = kind' then some a else t.find? kind' := by
  by_cases h : kind = kind'
  · subst h
    simp [find?, register]
  · have hne : kind.index.val ≠ kind'.index.val :=
      fun he => h (EventKind.index_injective (Fin.ext he))
    simp [find?, register, h, Vector.getElem_set_ne _ _ hne]

theorem find?_unregister (t : Listeners α) (kind kind' : EventKind) :
    (t.unregister kind).find? kind' = if kind = kind' then none else t.find? kind' := by
  by_cases h : kind = kind'
  · subst h
    simp [find?, unregister]
  · have hne : kind.index.val ≠ kind'.index.val :=
      fun he => h (EventKind.index_injective (Fin.ext he))
    simp [find?, unregister, h, Vector.getElem_set_ne _ _ hne]

end Listeners

end MarketFeed
