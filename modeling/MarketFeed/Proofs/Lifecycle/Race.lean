import MarketFeed.Proofs.Lifecycle.Signal
import Mathlib.Data.List.Induction

namespace MarketFeed

def Notification.isConnection (n : Notification) : Bool := n.kind.isConnection

namespace Lifecycle

/-- The gateway was started, and how the connection stands is all that still changes. -/
def isStarted : Lifecycle → Bool
  | initialized | active | disconnected => true
  | _ => false

theorem isStarted_afterEvent {s : Lifecycle} (h : s.isStarted = true) (k : EventKind) :
    (s.afterEvent k).isStarted = true := by
  cases hk : k.isConnection with
  | false =>
    rw [s.afterEvent_of_not_connection hk]
    exact h
  | true => cases k <;> cases hk <;> cases s <;> first | rfl | cases h

/-- A report on the connection settles the state of a session that was started. -/
theorem afterEvent_of_connection {k : EventKind} (hk : k.isConnection = true) :
    ∃ u, ∀ s : Lifecycle, s.isStarted = true → s.afterEvent k = u := by
  cases k with
  | frontConnected =>
    refine ⟨active, fun s hs => ?_⟩
    cases s <;> first | rfl | cases hs
  | frontDisconnected =>
    refine ⟨disconnected, fun s hs => ?_⟩
    cases s <;> first | rfl | cases hs
  | _ => cases hk

theorem afterEvents_of_not_connection (s : Lifecycle) {ns : List Notification}
    (h : ∀ n ∈ ns, n.isConnection = false) : s.afterEvents ns = s := by
  induction ns with
  | nil => rfl
  | cons n ns ih =>
    change (s.afterEvent n.kind).afterEvents ns = s
    rw [s.afterEvent_of_not_connection (h n List.mem_cons_self)]
    exact ih fun m hm => h m (List.mem_cons_of_mem n hm)

theorem afterEvents_uninitialized (ns : List Notification) :
    uninitialized.afterEvents ns = uninitialized := by
  induction ns with
  | nil => rfl
  | cons n ns ih => exact ih

theorem isStarted_afterEvents {s : Lifecycle} (h : s.isStarted = true) (ns : List Notification) :
    (s.afterEvents ns).isStarted = true := by
  induction ns generalizing s with
  | nil => exact h
  | cons n ns ih => exact ih (isStarted_afterEvent h n.kind)

theorem afterEvents_of_connection {ns : List Notification}
    (h : ∃ n ∈ ns, n.isConnection = true) :
    ∃ u, ∀ s : Lifecycle, s.isStarted = true → s.afterEvents ns = u := by
  induction ns using List.reverseRecOn with
  | nil =>
    obtain ⟨n, hn, -⟩ := h
    cases hn
  | append_singleton ns n ih =>
    cases hk : n.isConnection with
    | true =>
      obtain ⟨u, hu⟩ := afterEvent_of_connection hk
      refine ⟨u, fun s hs => ?_⟩
      rw [afterEvents_append]
      exact hu _ (isStarted_afterEvents hs ns)
    | false =>
      have hearlier : ∃ m ∈ ns, m.isConnection = true := by
        obtain ⟨m, hm, hmk⟩ := h
        rcases List.mem_append.1 hm with hm | hm
        · exact ⟨m, hm, hmk⟩
        · rw [List.mem_singleton.1 hm, hk] at hmk
          cases hmk
      obtain ⟨u, hu⟩ := ih hearlier
      refine ⟨u, fun s hs => ?_⟩
      rw [afterEvents_append, hu s hs]
      exact u.afterEvent_of_not_connection hk

theorem afterEvent_created {k : EventKind} (h : k ≠ .frontConnected) :
    created.afterEvent k = created := by
  cases k with
  | frontConnected => exact absurd rfl h
  | _ => rfl

theorem afterEvents_created {ns : List Notification} (h : ∀ n ∈ ns, n.kind ≠ .frontConnected) :
    created.afterEvents ns = created := by
  induction ns with
  | nil => rfl
  | cons n ns ih =>
    change (created.afterEvent n.kind).afterEvents ns = created
    rw [afterEvent_created (h n List.mem_cons_self)]
    exact ih fun m hm => h m (List.mem_cons_of_mem n hm)

theorem afterEvents_created_of_connected {s : Lifecycle} (hs : s.isStarted = true)
    {ns : List Notification} (h : ∃ n ∈ ns, n.kind = .frontConnected) :
    created.afterEvents ns = s.afterEvents ns := by
  induction ns generalizing s with
  | nil =>
    obtain ⟨n, hn, -⟩ := h
    cases hn
  | cons n ns ih =>
    change (created.afterEvent n.kind).afterEvents ns = (s.afterEvent n.kind).afterEvents ns
    by_cases hk : n.kind = .frontConnected
    · rw [hk]
      cases s <;> first | rfl | cases hs
    · have hlater : ∃ m ∈ ns, m.kind = .frontConnected := by
        obtain ⟨m, hm, hmk⟩ := h
        rcases List.mem_cons.1 hm with rfl | hm
        · exact absurd hmk hk
        · exact ⟨m, hm, hmk⟩
      rw [afterEvent_created hk]
      exact ih (isStarted_afterEvent hs n.kind) hlater

theorem pair_sublist_iff {α : Type} {a b : α} {front rest : List α} (h : a ∉ front) :
    [a, b].Sublist (front ++ a :: rest) ↔ b ∈ rest := by
  induction front with
  | nil => rw [List.nil_append, List.cons_sublist_cons, List.singleton_sublist]
  | cons x front ih =>
    have hx : x ≠ a := fun he => h (he ▸ List.mem_cons_self)
    rw [List.cons_append, List.sublist_cons_iff, ← ih fun ha => h (List.mem_cons_of_mem x ha)]
    apply Iff.intro
    · rintro (hs | ⟨r, hr, -⟩)
      · exact hs
      · cases hr
        exact absurd rfl hx
    · exact .inl

/-- A report on the connection comes when the creation is known, or, of a front that is lost, when
the start is. -/
def Heeds (xs : List Signal) (v w : CallValue) (n : Notification) : Prop :=
  (n.kind = .frontConnected ∧ [.call .create (.ok v), .event n].Sublist xs) ∨
    (n.kind = .frontDisconnected ∧ [.call .init (.ok w), .event n].Sublist xs)

/-- The reports that come before the completion of the creation, between the two completions, and
behind both. -/
def race (v w : CallValue) (before between behind : List Notification) : List Signal :=
  before.map .event ++ .call .create (.ok v) ::
    (between.map .event ++ .call .init (.ok w) :: behind.map .event)

theorem eq_race {xs : List Signal} {v w : CallValue} {ns : List Notification}
    (h : Signal.Interleaves xs [(.create, .ok v), (.init, .ok w)] ns) :
    ∃ before between behind, xs = race v w before between behind ∧
      ns = before ++ (between ++ behind) := by
  obtain ⟨before, rest, rfl, hrest⟩ := Signal.eq_events_append_call h.calls
  obtain ⟨between, rest', rfl, hrest'⟩ := Signal.eq_events_append_call hrest
  obtain ⟨behind, rfl⟩ := Signal.eq_events hrest'
  refine ⟨before, between, behind, rfl, ?_⟩
  rw [← h.events, List.filterMap_append, List.filterMap_cons_none rfl, List.filterMap_append,
    List.filterMap_cons_none rfl, Signal.filterMap_event?_events, Signal.filterMap_event?_events,
    Signal.filterMap_event?_events]

theorem created_sublist_race {v w : CallValue} {before between behind : List Notification}
    {n : Notification} :
    [.call .create (.ok v), .event n].Sublist (race v w before between behind) ↔
      n ∈ between ∨ n ∈ behind := by
  rw [race, pair_sublist_iff Signal.call_not_mem_events, List.mem_append, List.mem_cons,
    Signal.mem_events, Signal.mem_events]
  simp only [reduceCtorEq, false_or]

theorem heeds_race {v w : CallValue} {before between behind : List Notification}
    {n : Notification} :
    Heeds (race v w before between behind) v w n ↔
      (n.kind = .frontConnected ∧ (n ∈ between ∨ n ∈ behind)) ∨
        (n.kind = .frontDisconnected ∧ n ∈ behind) := by
  have hinit : .call .init (.ok w) ∉
      before.map Signal.event ++ .call .create (.ok v) :: between.map .event := by
    simp only [List.mem_append, List.mem_cons, Signal.call_not_mem_events, Signal.call.injEq,
      reduceCtorEq, false_and, or_self, not_false_eq_true]
  have hrace : race v w before between behind =
      (before.map Signal.event ++ .call .create (.ok v) :: between.map .event) ++
        .call .init (.ok w) :: behind.map .event := by
    rw [race, List.append_assoc]
    rfl
  rw [Heeds, created_sublist_race, hrace, pair_sublist_iff hinit, Signal.mem_events]

theorem afterAll_race (v w : CallValue) (before between behind : List Notification) :
    uninitialized.afterAll (race v w before between behind) =
      ((created.afterEvents between).afterCall .init).afterEvents behind := by
  rw [race, afterAll_append, afterAll_events, afterEvents_uninitialized]
  change created.afterAll (between.map .event ++ .call .init (.ok w) :: behind.map .event) = _
  rw [afterAll_append, afterAll_events]
  exact afterAll_events _ behind

theorem afterAll_completions (v w : CallValue) (ns : List Notification) :
    uninitialized.afterAll (.call .create (.ok v) :: .call .init (.ok w) :: ns.map .event) =
      initialized.afterEvents ns :=
  afterAll_events initialized ns

theorem isConnection_iff {n : Notification} :
    n.isConnection = true ↔ n.kind = .frontConnected ∨ n.kind = .frontDisconnected := by
  rw [Notification.isConnection]
  cases n.kind with
  | frontConnected => exact ⟨fun _ => .inl rfl, fun _ => rfl⟩
  | frontDisconnected => exact ⟨fun _ => .inr rfl, fun _ => rfl⟩
  | _ =>
    apply Iff.intro
    · intro h
      cases h
    · rintro (h | h) <;> cases h

theorem afterAll_race_of_not_connection (v w : CallValue) (before : List Notification)
    {between behind : List Notification}
    (h : ∀ n, n ∈ between ∨ n ∈ behind → n.isConnection = false) :
    uninitialized.afterAll (race v w before between behind) = initialized := by
  rw [afterAll_race, afterEvents_of_not_connection created fun n hn => h n (.inl hn)]
  exact afterEvents_of_not_connection initialized fun n hn => h n (.inr hn)

theorem afterCall_init_of_isStarted {s : Lifecycle} (h : s.isStarted = true) :
    s.afterCall .init = s := by
  cases s <;> first | rfl | cases h

theorem afterAll_race_of_connection (v w : CallValue) (before between : List Notification)
    {behind : List Notification} (h : ∃ n ∈ behind, n.isConnection = true) :
    uninitialized.afterAll (race v w before between behind) =
      initialized.afterEvents (before ++ (between ++ behind)) := by
  have hstarted : ((created.afterEvents between).afterCall .init).isStarted = true := by
    by_cases hc : ∃ n ∈ between, n.kind = .frontConnected
    · have hs := isStarted_afterEvents (s := initialized) rfl between
      rw [afterEvents_created_of_connected (s := initialized) rfl hc,
        afterCall_init_of_isStarted hs]
      exact hs
    · rw [afterEvents_created fun n hn hk => hc ⟨n, hn, hk⟩]
      rfl
  obtain ⟨u, hu⟩ := afterEvents_of_connection h
  rw [afterAll_race, afterEvents_append, afterEvents_append, hu _ hstarted]
  exact (hu _ (isStarted_afterEvents (isStarted_afterEvents rfl before) between)).symm

/-- A front that is connected between the completions is remembered. -/
theorem afterAll_race_of_connected (v w : CallValue) (before : List Notification)
    {between behind : List Notification} (hbetween : ∃ n ∈ between, n.kind = .frontConnected)
    (hbehind : ∀ n ∈ behind, n.isConnection = false) :
    uninitialized.afterAll (race v w before between behind) =
      initialized.afterEvents (before ++ (between ++ behind)) := by
  have hconn : ∃ n ∈ between, n.isConnection = true := by
    obtain ⟨n, hn, hk⟩ := hbetween
    exact ⟨n, hn, isConnection_iff.2 (.inl hk)⟩
  obtain ⟨u, hu⟩ := afterEvents_of_connection hconn
  rw [afterAll_race, afterEvents_created_of_connected (s := initialized) rfl hbetween,
    afterCall_init_of_isStarted (isStarted_afterEvents rfl between), afterEvents_append,
    afterEvents_append, afterEvents_of_not_connection _ hbehind,
    afterEvents_of_not_connection _ hbehind, hu _ (isStarted_afterEvents rfl before)]
  exact hu initialized rfl

theorem afterAll_race_of_heeds {v w : CallValue} {before between behind : List Notification}
    {n : Notification} (h : Heeds (race v w before between behind) v w n) :
    uninitialized.afterAll (race v w before between behind) =
      initialized.afterEvents (before ++ (between ++ behind)) := by
  by_cases hbehind : ∃ m ∈ behind, m.isConnection = true
  · exact afterAll_race_of_connection v w before between hbehind
  · apply afterAll_race_of_connected v w before
    · rcases heeds_race.1 h with ⟨hk, hn | hn⟩ | ⟨hk, hn⟩
      · exact ⟨n, hn, hk⟩
      · exact absurd ⟨n, hn, isConnection_iff.2 (.inl hk)⟩ hbehind
      · exact absurd ⟨n, hn, isConnection_iff.2 (.inr hk)⟩ hbehind
    · intro m hm
      exact Bool.eq_false_iff.2 fun hk => hbehind ⟨m, hm, hk⟩

/-- How the pump leaves the state, in whatever order it comes to the completions of a creation and a
start and to the reports meanwhile: as if both completions came first, if no report concerns the
connection or one that does is heeded. Reports on the connection that all come before the creation is
known are ignored. -/
structure RaceEnds (xs : List Signal) (v w : CallValue) (ns : List Notification) : Prop where
  heeded : (∀ n ∈ ns, n.isConnection = false) ∨ (∃ n, Heeds xs v w n) →
    uninitialized.afterAll xs =
      uninitialized.afterAll (.call .create (.ok v) :: .call .init (.ok w) :: ns.map .event)
  ignored : (∀ n ∈ ns, n.isConnection = true → ¬ [.call .create (.ok v), .event n].Sublist xs) →
    uninitialized.afterAll xs = initialized

theorem race_ends {xs : List Signal} {v w : CallValue} {ns : List Notification}
    (h : Signal.Interleaves xs [(.create, .ok v), (.init, .ok w)] ns) : RaceEnds xs v w ns := by
  obtain ⟨before, between, behind, rfl, rfl⟩ := eq_race h
  apply RaceEnds.mk
  case heeded =>
    rw [afterAll_completions]
    rintro (hnone | ⟨n, hn⟩)
    · rw [afterEvents_of_not_connection initialized hnone]
      apply afterAll_race_of_not_connection
      intro n hn
      exact hnone n (List.mem_append_right before (List.mem_append.2 hn))
    · exact afterAll_race_of_heeds hn
  case ignored =>
    intro hearly
    apply afterAll_race_of_not_connection
    intro n hn
    have hmem := List.mem_append_right before (List.mem_append.2 hn)
    exact Bool.eq_false_iff.2 fun hk => hearly n hmem hk (created_sublist_race.2 hn)

theorem race_ends_of_three :
    let lost := Notification.signal .frontDisconnected none
    let connected := Notification.signal .frontConnected none
    let xs : List Signal :=
      [.event lost, .call .create (.ok .none), .event connected, .event lost,
        .call .init (.ok .none)]
    Signal.Interleaves xs [(.create, .ok .none), (.init, .ok .none)] [lost, connected, lost] ∧
      uninitialized.afterAll xs = disconnected ∧
      RaceEnds xs .none .none [lost, connected, lost] :=
  ⟨⟨rfl, rfl⟩, rfl, race_ends ⟨rfl, rfl⟩⟩

/-- A front that is connected before the creation is known is forgotten. -/
theorem afterAll_of_early_connection :
    ¬ ∀ (xs : List Signal) (v w : CallValue) (ns : List Notification),
      Signal.Interleaves xs [(.create, .ok v), (.init, .ok w)] ns →
      uninitialized.afterAll xs =
        uninitialized.afterAll (.call .create (.ok v) :: .call .init (.ok w) :: ns.map .event) := by
  intro h
  have he : initialized = active :=
    h [.event (.signal .frontConnected none), .call .create (.ok .none), .call .init (.ok .none)]
      .none .none [.signal .frontConnected none] ⟨rfl, rfl⟩
  cases he

end Lifecycle

end MarketFeed
