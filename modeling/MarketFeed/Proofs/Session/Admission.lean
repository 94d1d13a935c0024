import MarketFeed.Proofs.Lane.Order
import MarketFeed.Proofs.Session.Offer
import MarketFeed.Proofs.Worker.Course

namespace MarketFeed.Offer

variable {σ : Type}

def workerAfter (V : Vendor σ) (vendor : σ) (os : List Offer) : Worker σ :=
  (Worker.fresh vendor).serve V (accepted os)

/-- What a request comes to that is taken behind others. -/
def execution (V : Vendor σ) (vendor : σ) (before : List Offer) (o : Offer) :
    Worker.Execution σ :=
  (workerAfter V vendor before).execute V o.submission.request o.submission.requestId

def Exits (os : List Offer) : Prop := ∃ sub ∈ accepted os, sub.operation = .exit

/-- A creation was taken, and succeeds. -/
def Creates (V : Vendor σ) (vendor : σ) (os : List Offer) : Prop :=
  ∃ i o, os[i]? = some o ∧ o.taken = true ∧ o.submission.operation = .create ∧
    ∃ v, (execution V vendor (os.take i) o).result.outcome = .ok v

/-- How a request is answered behind others: no unsound one is taken, and none behind an exit; and
beyond these a creation at most is refused, for which there is a handle already. -/
structure Answered (V : Vendor σ) (vendor : σ) (before : List Offer) (o : Offer) : Prop where
  taken : o.taken = true → o.submission.request.check = .ok () ∧ ¬ Exits before
  refused : o.taken = false → o.submission.request.check = .ok () → ¬ Exits before →
    o.submission.operation = .create ∧ (workerAfter V vendor before).hasHandle = true

/-- Every one of some requests is answered as it may be behind those before it. -/
def Fair (V : Vendor σ) (vendor : σ) (os : List Offer) : Prop :=
  ∀ i o, os[i]? = some o → Answered V vendor (os.take i) o

theorem fair_nil (V : Vendor σ) (vendor : σ) : Fair V vendor [] := by
  intro i o h
  cases h

theorem Fair.snoc {V : Vendor σ} {vendor : σ} {os : List Offer} {o : Offer}
    (h : Fair V vendor os) (ho : Answered V vendor os o) : Fair V vendor (os ++ [o]) := by
  intro i p hp
  rcases Nat.lt_or_ge i os.length with hi | hi
  · rw [List.getElem?_append_left hi] at hp
    rw [List.take_append_of_le_length (Nat.le_of_lt hi)]
    exact h i p hp
  · obtain rfl : i = os.length := by
      have hlt := (List.getElem?_eq_some_iff.1 hp).1
      rw [List.length_append, List.length_singleton] at hlt
      omega
    rw [List.getElem?_concat_length] at hp
    cases hp
    rw [List.take_left]
    exact ho

theorem Fair.take {V : Vendor σ} {vendor : σ} {os : List Offer} (h : Fair V vendor os) (n : Nat) :
    Fair V vendor (os.take n) := by
  intro i o ho
  have hi : i < n := by
    have hlt := (List.getElem?_eq_some_iff.1 ho).1
    rw [List.length_take] at hlt
    omega
  rw [List.getElem?_take_of_lt hi] at ho
  rw [List.take_take, Nat.min_eq_left (Nat.le_of_lt hi)]
  exact h i o ho

theorem Fair.of_concat {V : Vendor σ} {vendor : σ} {os : List Offer} {o : Offer}
    (h : Fair V vendor (os ++ [o])) : Fair V vendor os ∧ Answered V vendor os o := by
  apply And.intro
  · have hos := h.take os.length
    rw [List.take_left] at hos
    exact hos
  · have ho := h os.length o List.getElem?_concat_length
    rw [List.take_left] at ho
    exact ho

theorem accepted_concat_of_taken {os : List Offer} {o : Offer} (h : o.taken = true) :
    accepted (os ++ [o]) = accepted os ++ [o.submission] := by
  rw [accepted_append, accepted_of_taken h]

theorem accepted_concat_of_not_taken {os : List Offer} {o : Offer} (h : o.taken = false) :
    accepted (os ++ [o]) = accepted os := by
  rw [accepted_append, accepted_of_not_taken h, List.append_nil]

theorem workerAfter_of_taken (V : Vendor σ) (vendor : σ) {os : List Offer} {o : Offer}
    (h : o.taken = true) :
    workerAfter V vendor (os ++ [o]) = (execution V vendor os o).worker := by
  rw [workerAfter, accepted_concat_of_taken h, Worker.serve_concat]
  rfl

theorem workerAfter_of_not_taken (V : Vendor σ) (vendor : σ) {os : List Offer} {o : Offer}
    (h : o.taken = false) : workerAfter V vendor (os ++ [o]) = workerAfter V vendor os := by
  rw [workerAfter, accepted_concat_of_not_taken h, workerAfter]

theorem exits_of_taken {os : List Offer} {o : Offer} (h : o.taken = true) :
    Exits (os ++ [o]) ↔ Exits os ∨ o.submission.operation = .exit := by
  simp only [Exits, accepted_concat_of_taken h, List.mem_append, List.mem_singleton, or_and_right,
    exists_or, exists_eq_left]

theorem exits_of_not_taken {os : List Offer} {o : Offer} (h : o.taken = false) :
    Exits (os ++ [o]) ↔ Exits os := by
  rw [Exits, accepted_concat_of_not_taken h, Exits]

theorem not_exit_of_not_exits {os : List Offer} (h : ¬ Exits os) :
    ∀ sub ∈ accepted os, sub.operation ≠ .exit :=
  fun sub hm ho => h ⟨sub, hm, ho⟩

theorem accepted_take (os : List Offer) (n : Nat) : accepted (os.take n) <+: accepted os := by
  have he := congrArg accepted (List.take_append_drop n os)
  rw [accepted_append] at he
  exact ⟨_, he⟩

/-- What was taken was accepted behind what was taken before it. -/
theorem accepted_getElem? {os : List Offer} {i : Nat} {o : Offer} (ho : os[i]? = some o)
    (ht : o.taken = true) :
    (accepted os)[(accepted (os.take i)).length]? = some o.submission := by
  obtain ⟨rest, he⟩ := accepted_take os (i + 1)
  rw [List.take_add_one, ho, Option.toList_some, accepted_concat_of_taken ht,
    List.append_assoc] at he
  rw [← he, List.getElem?_append_right (Nat.le_refl _), Nat.sub_self]
  rfl

theorem exists_of_accepted {os : List Offer} {xs ys : List (Submission Continuation)}
    {x : Submission Continuation} (h : accepted os = xs ++ x :: ys) :
    ∃ i o, os[i]? = some o ∧ o.taken = true ∧ o.submission = x ∧ accepted (os.take i) = xs := by
  obtain ⟨l₁, l₂, hl, rfl, h₂⟩ := List.map_eq_append_iff.1 h
  obtain ⟨o, l₃, rfl, rfl, -⟩ := List.map_eq_cons_iff.1 h₂
  obtain ⟨os₁, os₂, rfl, rfl, hos₂⟩ := List.filter_eq_append_iff.1 hl
  obtain ⟨skipped, rest, rfl, hskip, ho, -⟩ := List.filter_eq_cons_iff.1 hos₂
  refine ⟨(os₁ ++ skipped).length, o, ?_, ho, rfl, ?_⟩
  · rw [← List.append_assoc, List.getElem?_append_right (Nat.le_refl _), Nat.sub_self]
    rfl
  · have hnone : skipped.filter (·.taken) = [] := List.filter_eq_nil_iff.2 hskip
    rw [← List.append_assoc, List.take_left, accepted, List.filter_append, hnone, List.append_nil]

theorem creates_of_hasHandle {V : Vendor σ} {vendor : σ} {os : List Offer} (hx : ¬ Exits os)
    (h : (workerAfter V vendor os).hasHandle = true) : Creates V vendor os := by
  obtain ⟨before, sub, after, he, ho, hv⟩ :=
    Worker.created_of_hasHandle V (not_exit_of_not_exits hx) rfl h
  obtain ⟨i, o, hi, ht, rfl, hb⟩ := exists_of_accepted he
  refine ⟨i, o, hi, ht, ho, ?_⟩
  rw [execution, workerAfter, hb]
  exact hv

/-- A creation that is refused without a call. -/
structure Redundant (V : Vendor σ) (vendor : σ) (before : List Offer) (o : Offer) : Prop where
  create : o.submission.operation = .create
  created : Creates V vendor before
  execution : execution V vendor before o =
    ⟨.notReady "native session already created", [], workerAfter V vendor before⟩

theorem redundant_of_hasHandle {V : Vendor σ} {vendor : σ} {before : List Offer} {o : Offer}
    (ho : o.submission.operation = .create) (hx : ¬ Exits before)
    (h : (workerAfter V vendor before).hasHandle = true) : Redundant V vendor before o where
  create := ho
  created := creates_of_hasHandle hx h
  execution := Worker.execute_create_of_hasHandle V ho _ h
    (Worker.released_serve V _ (not_exit_of_not_exits hx))

/-- Two workers that were asked for the same are the same, whichever of it was taken, and have come
to an exit or not alike. -/
structure Alike (V : Vendor σ) (vendor : σ) (os₁ os₂ : List Offer) : Prop where
  worker : workerAfter V vendor os₁ = workerAfter V vendor os₂
  exits : Exits os₁ ↔ Exits os₂

theorem Alike.symm {V : Vendor σ} {vendor : σ} {os₁ os₂ : List Offer}
    (h : Alike V vendor os₁ os₂) : Alike V vendor os₂ os₁ :=
  ⟨h.worker.symm, h.exits.symm⟩

theorem request_eq_of_asked {o₁ o₂ : Offer} (h : o₁.asked = o₂.asked) :
    o₁.submission.request = o₂.submission.request ∧
      o₁.submission.requestId = o₂.submission.requestId :=
  Prod.mk.inj h

theorem execution_eq_of_asked {V : Vendor σ} {vendor : σ} {os₁ os₂ : List Offer} {o₁ o₂ : Offer}
    (h : Alike V vendor os₁ os₂) (ho : o₁.asked = o₂.asked) :
    execution V vendor os₁ o₁ = execution V vendor os₂ o₂ := by
  obtain ⟨hr, hid⟩ := request_eq_of_asked ho
  rw [execution, execution, h.worker, hr, hid]

/-- Where one of two sessions takes a request that the other one refuses, it is redundant. -/
theorem Alike.redundant {V : Vendor σ} {vendor : σ} {os₁ os₂ : List Offer} {o₁ o₂ : Offer}
    (h : Alike V vendor os₁ os₂) (ho : o₁.asked = o₂.asked) (h₁ : Answered V vendor os₁ o₁)
    (h₂ : Answered V vendor os₂ o₂) (ht₁ : o₁.taken = true) (ht₂ : o₂.taken = false) :
    Redundant V vendor os₁ o₁ ∧ Creates V vendor os₂ := by
  obtain ⟨hr, -⟩ := request_eq_of_asked ho
  obtain ⟨hcheck, hx⟩ := h₁.taken ht₁
  have hx₂ : ¬ Exits os₂ := fun hx₂ => hx (h.exits.2 hx₂)
  obtain ⟨hcreate, hhas⟩ := h₂.refused ht₂ (by rw [← hr]; exact hcheck) hx₂
  have ho₁ : o₁.submission.operation = .create := by
    rw [Submission.operation, hr]
    exact hcreate
  apply And.intro
  · apply redundant_of_hasHandle ho₁ hx
    rw [h.worker]
    exact hhas
  · exact creates_of_hasHandle hx₂ hhas

theorem Redundant.alike {V : Vendor σ} {vendor : σ} {os : List Offer} {o : Offer}
    (h : Redundant V vendor os o) (ht : o.taken = true) : Alike V vendor (os ++ [o]) os where
  worker := by
    rw [workerAfter_of_taken V vendor ht, h.execution]
  exits := by
    rw [exits_of_taken ht, h.create]
    exact ⟨fun hx => hx.resolve_right (fun ho => by cases ho), .inl⟩

theorem alike_of_not_taken (V : Vendor σ) (vendor : σ) {os : List Offer} {o : Offer}
    (ht : o.taken = false) : Alike V vendor (os ++ [o]) os :=
  ⟨workerAfter_of_not_taken V vendor ht, exits_of_not_taken ht⟩

theorem Alike.trans {V : Vendor σ} {vendor : σ} {os₁ os₂ os₃ : List Offer}
    (h : Alike V vendor os₁ os₂) (h' : Alike V vendor os₂ os₃) : Alike V vendor os₁ os₃ :=
  ⟨h.worker.trans h'.worker, h.exits.trans h'.exits⟩

theorem Alike.taken {V : Vendor σ} {vendor : σ} {os₁ os₂ : List Offer} {o₁ o₂ : Offer}
    (h : Alike V vendor os₁ os₂) (ho : o₁.asked = o₂.asked) (ht₁ : o₁.taken = true)
    (ht₂ : o₂.taken = true) : Alike V vendor (os₁ ++ [o₁]) (os₂ ++ [o₂]) where
  worker := by
    rw [workerAfter_of_taken V vendor ht₁, workerAfter_of_taken V vendor ht₂,
      execution_eq_of_asked h ho]
  exits := by
    rw [exits_of_taken ht₁, exits_of_taken ht₂, h.exits, Submission.operation,
      Submission.operation, (request_eq_of_asked ho).1]

theorem Alike.concat {V : Vendor σ} {vendor : σ} {os₁ os₂ : List Offer} {o₁ o₂ : Offer}
    (h : Alike V vendor os₁ os₂) (ho : o₁.asked = o₂.asked) (h₁ : Answered V vendor os₁ o₁)
    (h₂ : Answered V vendor os₂ o₂) : Alike V vendor (os₁ ++ [o₁]) (os₂ ++ [o₂]) := by
  cases ht₁ : o₁.taken with
  | true =>
    cases ht₂ : o₂.taken with
    | true => exact h.taken ho ht₁ ht₂
    | false =>
      have hr := (h.redundant ho h₁ h₂ ht₁ ht₂).1
      exact ((hr.alike ht₁).trans h).trans (alike_of_not_taken V vendor ht₂).symm
  | false =>
    have hrest := (alike_of_not_taken V vendor ht₁).trans h
    cases ht₂ : o₂.taken with
    | true =>
      have hr := (h.symm.redundant ho.symm h₂ h₁ ht₂ ht₁).1
      exact hrest.trans (hr.alike ht₂).symm
    | false => exact hrest.trans (alike_of_not_taken V vendor ht₂).symm

theorem Fair.alike {V : Vendor σ} {vendor : σ} {os₁ os₂ : List Offer} (h₁ : Fair V vendor os₁)
    (h₂ : Fair V vendor os₂) (ha : os₁.map asked = os₂.map asked) : Alike V vendor os₁ os₂ := by
  induction os₁ using List.reverseRecOn generalizing os₂ with
  | nil =>
    obtain rfl : os₂ = [] := List.map_eq_nil_iff.1 ha.symm
    exact ⟨rfl, .rfl⟩
  | append_singleton os₁ o₁ ih =>
    rcases List.eq_nil_or_concat os₂ with rfl | ⟨os₂, o₂, rfl⟩
    · rw [List.map_append] at ha
      exact absurd ha (List.append_ne_nil_of_right_ne_nil _ (List.cons_ne_nil _ _))
    · rw [List.concat_eq_append] at ha h₂ ⊢
      rw [List.map_append, List.map_append] at ha
      obtain ⟨hos, ho⟩ := List.append_inj' ha rfl
      obtain ⟨hf₁, ha₁⟩ := h₁.of_concat
      obtain ⟨hf₂, ha₂⟩ := h₂.of_concat
      exact (ih hf₁ hf₂ hos).concat (List.singleton_inj.1 ho) ha₁ ha₂

theorem Fair.alike_take {V : Vendor σ} {vendor : σ} {os₁ os₂ : List Offer}
    (h₁ : Fair V vendor os₁) (h₂ : Fair V vendor os₂) (ha : os₁.map asked = os₂.map asked)
    (n : Nat) : Alike V vendor (os₁.take n) (os₂.take n) := by
  apply (h₁.take n).alike (h₂.take n)
  rw [List.map_take, List.map_take, ha]

theorem asked_eq_of_getElem? {os₁ os₂ : List Offer} (ha : os₁.map asked = os₂.map asked) {i : Nat}
    {o₁ o₂ : Offer} (h₁ : os₁[i]? = some o₁) (h₂ : os₂[i]? = some o₂) : o₁.asked = o₂.asked := by
  have he := congrArg (fun l => l[i]?) ha
  rw [List.getElem?_map, List.getElem?_map, h₁, h₂] at he
  exact Option.some.inj he

end MarketFeed.Offer
