import MarketFeed.Proofs.Session.Code

namespace MarketFeed

/-- The same act, but for what comes of it later. -/
inductive Act.Recoded (R : List Act → List Act → Prop) : Act → Act → Prop
  | same (act : Act) : Act.Recoded R act act
  | call {acts acts' : List Act} (request : Request) (requestId : Option Int32)
      (h : R acts acts') :
      Act.Recoded R (.call request requestId acts) (.call request requestId acts')
  | on {rounds rounds' : List (Nat × List Act)} (event label : String)
      (h : ∀ n, R (actsAt rounds n) (actsAt rounds' n)) :
      Act.Recoded R (.on event label rounds) (.on event label rounds')

inductive Move.Recoded (R : List Act → List Act → Prop) : Move → Move → Prop
  | same (m : Move) : Move.Recoded R m m
  | book {acts acts' : List Act} (request : Request) (requestId : Option Int32) (tag : Nat)
      (h : R acts acts') :
      Move.Recoded R (.book request requestId ⟨tag, acts⟩) (.book request requestId ⟨tag, acts'⟩)
  | on {rounds rounds' : List (Nat × List Act)} (kind : EventKind) (label : String)
      (h : ∀ n, R (actsAt rounds n) (actsAt rounds' n)) :
      Move.Recoded R (.on kind ⟨label, rounds⟩) (.on kind ⟨label, rounds'⟩)

variable {R : List Act → List Act → Prop}

theorem Act.Recoded.bare {act act' : Act} (h : act.Recoded R act') : act.bare = act'.bare := by
  cases h <;> rfl

theorem Move.Recoded.bare {m m' : Move} (h : m.Recoded R m') : m.bare = m'.bare := by
  cases h <;> rfl

theorem Move.pump_of_bare {m m' : Move} (h : m.bare = m'.bare) : m = .pump ↔ m' = .pump := by
  rcases Move.eq_of_bare h with ⟨_, _, _, _, rfl, rfl, -⟩ | ⟨_, _, _, rfl, rfl, -⟩ | rfl
  · exact ⟨(nomatch ·), (nomatch ·)⟩
  · exact ⟨(nomatch ·), (nomatch ·)⟩
  · exact Iff.rfl

theorem Act.submission?_bare (act : Act) :
    act.bare.submission? = act.submission?.map (Submission.map Continuation.bare) := by
  cases act <;> rfl

theorem Act.registration?_bare (act : Act) :
    act.bare.registration? = act.registration?.map fun x => (x.1, x.2.bare) := by
  cases act with
  | on event label rounds =>
    rw [bare, registration?, registration?]
    cases EventKind.ofName? event <;> rfl
  | _ => rfl

namespace Session

variable {σ : Type} {s t : Session σ}

section
variable (h : s.bare = t.bare)
include h

theorem brought_of_bare (ha : s.pump.act?.map Act.bare = t.pump.act?.map Act.bare) {α : Type}
    {f : Act → Option α} {g : α → α} (hf : ∀ act : Act, f act.bare = (f act).map g) :
    (s.pump.act?.bind fun act => if s.allows act then f act else none).map g =
      (t.pump.act?.bind fun act => if t.allows act then f act else none).map g := by
  cases hs : s.pump.act? with
  | none =>
    cases ht : t.pump.act? with
    | none => rfl
    | some act' =>
      rw [hs, ht] at ha
      cases ha
  | some act =>
    cases ht : t.pump.act? with
    | none =>
      rw [hs, ht] at ha
      cases ha
    | some act' =>
      rw [hs, ht] at ha
      have hact : act.bare = act'.bare := Option.some.inj ha
      simp only [Option.bind_some, allows_of_bare h hact]
      split
      · rw [← hf, ← hf, hact]
      · rfl

variable {m m' : Move} (hm : m.bare = m'.bare)
  (ha : m = .pump → s.pump.act?.map Act.bare = t.pump.act?.map Act.bare)
include hm ha

theorem submission?_of_bare :
    (s.submission? m).map (Submission.map Continuation.bare) =
      (t.submission? m').map (Submission.map Continuation.bare) := by
  rcases Move.eq_of_bare hm with
    ⟨request, requestId, k, k', rfl, rfl, hk⟩ | ⟨kind, l, l', rfl, rfl, hl⟩ | rfl
  · exact congrArg (fun k => some (⟨request, requestId, k⟩ : Submission Continuation)) hk
  · rfl
  · cases m with
    | pump => exact brought_of_bare h (ha rfl) Act.submission?_bare
    | _ => rfl

theorem registration?_of_bare :
    (s.registration? m).map (fun x => (x.1, x.2.bare)) =
      (t.registration? m').map fun x => (x.1, x.2.bare) := by
  rcases Move.eq_of_bare hm with
    ⟨request, requestId, k, k', rfl, rfl, hk⟩ | ⟨kind, l, l', rfl, rfl, hl⟩ | rfl
  · rfl
  · exact congrArg (fun l => some (kind, l)) hl
  · cases m with
    | pump => exact brought_of_bare h (ha rfl) Act.registration?_bare
    | _ => rfl

end

end Session

end MarketFeed
