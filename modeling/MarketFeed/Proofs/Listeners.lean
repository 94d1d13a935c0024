import Mathlib.Data.List.Nodup
import MarketFeed.Listeners.Script

namespace MarketFeed.Listeners

variable {ι : Type} {code : Code ι} {p : Program ι} {op : Op ι} {reply : Reply}
  {given replies : List Reply} {happened h : List (Happening ι)} {e : Happening ι}
  {t t' : Listeners ι} {kind : EventKind} {l : ι}

def Happening.ends (kind : EventKind) : Happening ι → Bool
  | registered k _ _ => k = kind
  | unregistered k _ => k = kind
  | cleared => true
  | _ => false

/-- The listener was registered for the kind, and nothing has taken it away since. -/
def Holds (h : List (Happening ι)) (kind : EventKind) (l : ι) : Prop :=
  ∃ before replaced after, h = before ++ .registered kind l replaced :: after ∧
    ∀ e ∈ after, e.ends kind = false

def Held (h : List (Happening ι)) (kind : EventKind) : Prop := ∃ l, Holds h kind l

/-- What an operation that invokes no listener answers after a history, and what it makes happen. -/
inductive Answered (before : List (Happening ι)) : Op ι → Reply → Happening ι → Prop where
  | register {kind l replaced} (had : replaced = true ↔ Held before kind) :
    Answered before (.register kind l) (.flag replaced) (.registered kind l replaced)
  | unregister {kind removed} (had : removed = true ↔ Held before kind) :
    Answered before (.unregister kind) (.flag removed) (.unregistered kind removed)
  | has {kind answer} (has : answer = true ↔ Held before kind) :
    Answered before (.has kind) (.flag answer) (.asked kind answer)
  | size {kinds : List EventKind} (nodup : kinds.Nodup)
      (mem : ∀ kind, kind ∈ kinds ↔ Held before kind) :
    Answered before .size (.count kinds.length) (.counted kinds.length)
  | clear : Answered before .clear .done .cleared
  | miss {n} (free : ¬ Held before n.kind) :
    Answered before (.dispatch n) (.flag false) (.missed n)

/-- What a program answers and makes happen, after a history and what it answered so far. A
notification that is dispatched goes to the listener that holds its kind at that moment, once and as
it is, and the program goes on after all that the listener's own operations made happen. -/
inductive Course (code : Code ι) : Program ι → List (Happening ι) → List Reply →
    List Reply → List (Happening ι) → Prop where
  | stop {p before given} (ended : p before given = none) : Course code p before given given []
  | simple {p before given op reply e replies happened} (next : p before given = some op)
    (answered : Answered before op reply e)
    (rest : Course code p (before ++ [e]) (given ++ [reply]) replies happened) :
    Course code p before given replies (e :: happened)
  | dispatch {p before given n l answers inside replies happened}
    (next : p before given = some (.dispatch n)) (holds : Holds before n.kind l)
    (body : Course code (code l n) (before ++ [.invoked l n]) [] answers inside)
    (rest : Course code p (before ++ .invoked l n :: (inside ++ [.returned l n answers]))
      (given ++ [.flag true]) replies happened) :
    Course code p before given replies
      (.invoked l n :: (inside ++ .returned l n answers :: happened))

theorem not_holds_nil : ¬ Holds [] kind l := by
  rintro ⟨before, replaced, after, h, -⟩
  simp at h

theorem holds_concat :
    Holds (h ++ [e]) kind l ↔
      (∃ replaced, e = .registered kind l replaced) ∨ (Holds h kind l ∧ e.ends kind = false) := by
  constructor
  · rintro ⟨before, replaced, after, heq, hafter⟩
    obtain rfl | ⟨after, x, rfl⟩ := after.eq_nil_or_concat
    · obtain ⟨-, he⟩ := List.append_inj' heq rfl
      exact .inl ⟨replaced, List.singleton_inj.1 he⟩
    · have heq : h ++ [e] = (before ++ .registered kind l replaced :: after) ++ [x] := by
        simpa using heq
      obtain ⟨hh, he⟩ := List.append_inj' heq rfl
      obtain rfl := List.singleton_inj.1 he
      exact .inr ⟨⟨before, replaced, after, hh, fun y hy => hafter y (by simp [hy])⟩,
        hafter e (by simp)⟩
  · rintro (⟨replaced, rfl⟩ | ⟨⟨before, replaced, after, rfl, hafter⟩, he⟩)
    · exact ⟨h, replaced, [], rfl, by simp⟩
    · refine ⟨before, replaced, after ++ [e], by simp, fun y hy => ?_⟩
      obtain hy | hy := List.mem_append.1 hy
      · exact hafter y hy
      · rw [List.mem_singleton.1 hy, he]

theorem toList_slots (t : Listeners ι) : t.slots.toList = EventKind.all.map t.find? := by
  have index (i : Fin 12) : (EventKind.all[i]).index = i := by
    revert i
    decide
  apply List.ext_getElem
  · simp [EventKind.all]
  · intro i hi _
    have hi : i < 12 := by simpa using hi
    have hk : (EventKind.all[i].index : Nat) = i := congrArg Fin.val (index ⟨i, hi⟩)
    simp only [Vector.getElem_toList, List.getElem_map, find?, Fin.getElem_fin]
    exact (getElem_congr_idx hk).symm

theorem ext_find? (hf : ∀ kind, t.find? kind = t'.find? kind) : t = t' := by
  have hl : t.slots.toList = t'.slots.toList := by
    rw [toList_slots, toList_slots, funext hf]
  cases t
  cases t'
  exact congrArg mk (Vector.toList_inj.1 hl)

theorem size_eq (t : Listeners ι) : t.size = (EventKind.all.filter t.has).length := by
  rw [size, toList_slots, List.countP_map, List.countP_eq_length_filter]
  rfl

/-- The table holds what the history says is held. -/
def Agrees (t : Listeners ι) (h : List (Happening ι)) : Prop :=
  ∀ kind l, t.find? kind = some l ↔ Holds h kind l

namespace Agrees

theorem start : Agrees (empty : Listeners ι) [] := fun kind l => by
  simp [find?_empty, not_holds_nil]

theorem unique (ha : Agrees t h) (ha' : Agrees t' h) : t = t' :=
  ext_find? fun kind => Option.ext fun l => (ha kind l).trans (ha' kind l).symm

theorem registered (ha : Agrees t h) (kind : EventKind) (l : ι) (replaced : Bool) :
    Agrees (t.register kind l) (h ++ [.registered kind l replaced]) := by
  intro k m
  rw [find?_register, holds_concat, ← ha k m]
  by_cases hk : kind = k
  · subst hk
    simp [Happening.ends]
  · simp [Happening.ends, hk]

theorem unregistered (ha : Agrees t h) (kind : EventKind) (removed : Bool) :
    Agrees (t.unregister kind) (h ++ [.unregistered kind removed]) := by
  intro k m
  rw [find?_unregister, holds_concat, ← ha k m]
  by_cases hk : kind = k <;> simp [Happening.ends, hk]

theorem cleared : Agrees (empty : Listeners ι) (h ++ [.cleared]) := by
  intro k m
  simp [find?_empty, holds_concat, Happening.ends]

theorem quiet (ha : Agrees t h) (he : ∀ kind, e.ends kind = false) : Agrees t (h ++ [e]) := by
  intro k m
  rw [holds_concat, ← ha k m]
  have hr : ¬ ∃ replaced, e = .registered k m replaced := by
    rintro ⟨replaced, rfl⟩
    simpa [Happening.ends] using he k
  simp [hr, he k]

theorem has_iff (ha : Agrees t h) (kind : EventKind) : t.has kind = true ↔ Held h kind := by
  rw [has, Option.isSome_iff_exists]
  exact exists_congr fun l => ha kind l

theorem find?_eq_none_iff (ha : Agrees t h) (kind : EventKind) :
    t.find? kind = none ↔ ¬ Held h kind := by
  rw [← ha.has_iff, has, Option.not_isSome_iff_eq_none]

theorem kinds (ha : Agrees t h) :
    (EventKind.all.filter t.has).Nodup ∧
      ∀ kind, kind ∈ EventKind.all.filter t.has ↔ Held h kind := by
  refine ⟨List.Nodup.filter _ (by decide), fun kind => ?_⟩
  have hall : kind ∈ EventKind.all := List.mem_of_getElem? (EventKind.all_index kind)
  rw [List.mem_filter, ← ha.has_iff]
  simp [hall]

theorem size_of_kinds (ha : Agrees t h) {kinds : List EventKind} (nodup : kinds.Nodup)
    (mem : ∀ kind, kind ∈ kinds ↔ Held h kind) : t.size = kinds.length := by
  rw [size_eq]
  refine List.Perm.length_eq ((List.perm_ext_iff_of_nodup ha.kinds.1 nodup).2 fun kind => ?_)
  rw [ha.kinds.2, mem]

end Agrees

section Operation

variable {inv inv' : ι → Notification → Board ι → Option (Board ι)} {b b' : Board ι}

/-- Everything that an operation does: it is answered at once, or it invokes the listener that holds
the kind of its notification. -/
theorem Op.of_run (ha : Agrees b.table b.history) (hr : op.run inv b = some (reply, b')) :
    (∃ e, Answered b.history op reply e ∧ b'.history = b.history ++ [e] ∧
      Agrees b'.table b'.history) ∨
    (∃ n l, op = .dispatch n ∧ reply = .flag true ∧ Holds b.history n.kind l ∧
      inv l n b = some b') := by
  cases op with
  | register kind l =>
    cases hr
    exact .inl ⟨_, .register (ha.has_iff kind), rfl, ha.registered kind l _⟩
  | unregister kind =>
    cases hr
    exact .inl ⟨_, .unregister (ha.has_iff kind), rfl, ha.unregistered kind _⟩
  | has kind =>
    cases hr
    exact .inl ⟨_, .has (ha.has_iff kind), rfl, ha.quiet fun _ => rfl⟩
  | size =>
    cases hr
    rw [size_eq]
    exact .inl ⟨_, .size ha.kinds.1 ha.kinds.2, rfl, ha.quiet fun _ => rfl⟩
  | clear =>
    cases hr
    exact .inl ⟨_, .clear, rfl, .cleared⟩
  | dispatch n =>
    simp only [Op.run] at hr
    cases hf : b.table.find? n.kind with
    | none =>
      simp only [hf] at hr
      cases hr
      exact .inl ⟨_, .miss ((ha.find?_eq_none_iff n.kind).1 hf), rfl, ha.quiet fun _ => rfl⟩
    | some l =>
      simp only [hf, Option.map_eq_some_iff] at hr
      obtain ⟨b₁, hi, hr⟩ := hr
      cases hr
      exact .inr ⟨n, l, rfl, rfl, (ha n.kind l).1 hf, hi⟩

theorem Op.run_of_answered (ha : Agrees t h) (hw : Answered h op reply e) :
    ∃ t', (∀ inv, op.run inv ⟨t, h⟩ = some (reply, ⟨t', h ++ [e]⟩)) ∧ Agrees t' (h ++ [e]) := by
  cases hw with
  | @register kind l replaced had =>
    have hr : t.has kind = replaced := Bool.eq_iff_iff.2 ((ha.has_iff kind).trans had.symm)
    exact ⟨_, fun inv => by rw [Op.run, hr]; rfl, ha.registered kind l replaced⟩
  | @unregister kind removed had =>
    have hr : t.has kind = removed := Bool.eq_iff_iff.2 ((ha.has_iff kind).trans had.symm)
    exact ⟨_, fun inv => by rw [Op.run, hr]; rfl, ha.unregistered kind removed⟩
  | @has kind answer has =>
    have hr : t.has kind = answer := Bool.eq_iff_iff.2 ((ha.has_iff kind).trans has.symm)
    exact ⟨_, fun inv => by rw [Op.run, hr]; rfl, ha.quiet fun _ => rfl⟩
  | size nodup mem =>
    exact ⟨_, fun inv => by rw [Op.run, ha.size_of_kinds nodup mem]; rfl, ha.quiet fun _ => rfl⟩
  | clear => exact ⟨_, fun inv => rfl, .cleared⟩
  | @miss n free =>
    have hf := (ha.find?_eq_none_iff n.kind).2 free
    exact ⟨t, fun inv => by simp only [Op.run, hf]; rfl, ha.quiet fun _ => rfl⟩

theorem Op.run_of_holds {n : Notification} (ha : Agrees t h) (hl : Holds h n.kind l)
    (hi : inv l n ⟨t, h⟩ = some b') :
    (Op.dispatch n).run inv ⟨t, h⟩ = some (.flag true, b') := by
  simp [Op.run, (ha n.kind l).2 hl, hi]

theorem Op.run_mono (hinv : ∀ l n b b', inv l n b = some b' → inv' l n b = some b')
    {r : Reply × Board ι} (hr : op.run inv b = some r) : op.run inv' b = some r := by
  cases op with
  | dispatch n =>
    simp only [Op.run] at hr ⊢
    cases hf : b.table.find? n.kind with
    | none => simpa only [hf] using hr
    | some l =>
      simp only [hf, Option.map_eq_some_iff] at hr ⊢
      obtain ⟨b₁, hi, rfl⟩ := hr
      exact ⟨b₁, hinv l n b b₁ hi, rfl⟩
  | _ => exact hr

end Operation

/-- A program that ends in the steps allowed does the same in more of them. -/
theorem run_mono {fuel fuel' : Nat} (hle : fuel ≤ fuel') {b : Board ι} {r : List Reply × Board ι}
    (hr : run code fuel p given b = some r) : run code fuel' p given b = some r := by
  induction fuel generalizing fuel' p given b r with
  | zero => simp [run] at hr
  | succ fuel ih =>
    obtain ⟨fuel', rfl⟩ : ∃ k, fuel' = k + 1 := ⟨fuel' - 1, by omega⟩
    have hle : fuel ≤ fuel' := by omega
    simp only [run] at hr ⊢
    cases hp : p b.history given with
    | none => simpa only [hp] using hr
    | some op =>
      simp only [hp, Option.bind_eq_some_iff] at hr ⊢
      obtain ⟨⟨reply, b₁⟩, ho, hr⟩ := hr
      refine ⟨(reply, b₁), Op.run_mono ?_ ho, ih hle hr⟩
      intro l n b b' hi
      simp only [invoke, Option.map_eq_some_iff] at hi ⊢
      obtain ⟨x, hx, hi⟩ := hi
      exact ⟨x, ih hle hx, hi⟩

theorem course_of_run {fuel : Nat} {b b' : Board ι} (ha : Agrees b.table b.history)
    (hr : run code fuel p given b = some (replies, b')) :
    ∃ happened, Course code p b.history given replies happened ∧
      b'.history = b.history ++ happened ∧ Agrees b'.table b'.history := by
  induction fuel generalizing p given b replies b' with
  | zero => simp [run] at hr
  | succ fuel ih =>
    simp only [run] at hr
    cases hp : p b.history given with
    | none =>
      simp only [hp] at hr
      cases hr
      exact ⟨[], .stop hp, by simp, ha⟩
    | some op =>
      simp only [hp, Option.bind_eq_some_iff] at hr
      obtain ⟨⟨reply, b₁⟩, ho, hr⟩ := hr
      obtain ⟨e, hw, hb₁, ha₁⟩ | ⟨n, l, rfl, rfl, hl, hi⟩ := Op.of_run ha ho
      · obtain ⟨happened, hc, hb', ha'⟩ := ih ha₁ hr
        rw [hb₁] at hc hb'
        exact ⟨e :: happened, .simple hp hw hc, by simp [hb'], ha'⟩
      · -- the body runs from the moment of the invocation; the rest of the program from its return
        simp only [invoke, Option.map_eq_some_iff] at hi
        obtain ⟨⟨answers, b₂⟩, hbody, rfl⟩ := hi
        have ha₀ : Agrees b.table (b.history ++ [.invoked l n]) := ha.quiet fun _ => rfl
        obtain ⟨inside, hin, hb₂, ha₂⟩ := ih (b := b.note (.invoked l n)) ha₀ hbody
        have hb₁ : (b₂.note (.returned l n answers)).history =
            b.history ++ .invoked l n :: (inside ++ [.returned l n answers]) := by
          simp [Board.note, hb₂]
        have ha₁ : Agrees b₂.table (b₂.history ++ [.returned l n answers]) :=
          ha₂.quiet fun _ => rfl
        obtain ⟨happened, hc, hb', ha'⟩ := ih (b := b₂.note (.returned l n answers)) ha₁ hr
        rw [hb₁] at hc hb'
        exact ⟨_, .dispatch hp hl hin hc, by simp [hb'], ha'⟩

theorem run_of_course (hc : Course code p h given replies happened) (ha : Agrees t h) :
    ∃ fuel t', run code fuel p given ⟨t, h⟩ = some (replies, ⟨t', h ++ happened⟩) ∧
      Agrees t' (h ++ happened) := by
  induction hc generalizing t with
  | stop ended => exact ⟨1, t, by simp [run, ended], by simpa using ha⟩
  | @simple p before given op reply e replies happened next answered rest ih =>
    obtain ⟨t₁, ho, ha₁⟩ := Op.run_of_answered ha answered
    obtain ⟨fuel, t', hr, ha'⟩ := ih ha₁
    refine ⟨fuel + 1, t', ?_, by simpa using ha'⟩
    simpa [run, next, ho] using hr
  | @dispatch p before given n l answers inside replies happened next holds body rest ihb ihr =>
    have ha₀ : Agrees t (before ++ [.invoked l n]) := ha.quiet fun _ => rfl
    obtain ⟨fuel, t₁, hb, ha₁⟩ := ihb ha₀
    have ha₂ : Agrees t₁ (before ++ .invoked l n :: (inside ++ [.returned l n answers])) := by
      simpa using ha₁.quiet (e := .returned l n answers) fun _ => rfl
    obtain ⟨fuel', t', hr, ha'⟩ := ihr ha₂
    -- both parts run in the larger of the two numbers of steps
    have hb := run_mono (Nat.le_max_left fuel fuel') hb
    have hr := run_mono (Nat.le_max_right fuel fuel') hr
    have hi : invoke code (run code (max fuel fuel')) l n ⟨t, before⟩ =
        some ⟨t₁, before ++ .invoked l n :: (inside ++ [.returned l n answers])⟩ := by
      simp only [invoke, Board.note, hb, Option.map_some]
      simp
    refine ⟨max fuel fuel' + 1, t', ?_, by simpa using ha'⟩
    simpa [run, next, Op.run_of_holds ha holds hi] using hr

/-- The table is a map in which the last registration stands: what a program does that starts at an
empty table, and what the table holds in the end, is what its history says. -/
theorem run_iff_course (code : Code ι) (p : Program ι) (replies : List Reply) (t : Listeners ι)
    (happened : List (Happening ι)) :
    (∃ fuel, run code fuel p [] {} = some (replies, ⟨t, happened⟩)) ↔
      Course code p [] [] replies happened ∧
        ∀ kind l, t.find? kind = some l ↔ Holds happened kind l := by
  constructor
  · rintro ⟨fuel, hr⟩
    obtain ⟨h, hc, hh, ha⟩ := course_of_run Agrees.start hr
    rw [List.nil_append] at hh
    subst hh
    exact ⟨hc, ha⟩
  · rintro ⟨hc, ha⟩
    obtain ⟨fuel, t', hr, ha'⟩ := run_of_course hc Agrees.start
    rw [List.nil_append] at hr ha'
    exact ⟨fuel, by rw [hr, ha'.unique ha]⟩

/-- A listener that puts another in its place keeps the notification it was given, and is given no
other. -/
example :
    let second : Scripted String := .mk "second" []
    let first : Scripted String := .mk "first" [.register .frontConnected second]
    let n := Notification.signal .frontConnected none
    let ops := [.register .frontConnected first, .dispatch n, .dispatch n]
    (run Scripted.code 10 (script ops) [] {}).map (fun (replies, b) => (replies,
      b.history.filterMap fun | .invoked l _ => some l.name | _ => none)) =
    some ([.flag false, .flag true, .flag true], ["first", "second"]) := by
  rfl

end MarketFeed.Listeners
