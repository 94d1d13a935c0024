import MarketFeed.Proofs.Loopback.Steps
import MarketFeed.Proofs.Places

namespace MarketFeed.Loopback

theorem Line.advance?_cases {l l' : Line} (h : l.advance? = some l') :
    l.running = true ∧
      ((∃ callbacks rest, l.queue = .raise callbacks :: rest ∧
          l' = { l with queue := rest, raised := l.raised ++ callbacks }) ∨
        ∃ rest, l.queue = .stop :: rest ∧ l' = { l with queue := rest, running := false }) := by
  obtain ⟨hr, h⟩ := Option.ite_none_right_eq_some.1 h
  refine ⟨hr, ?_⟩
  rcases hq : l.queue with _ | ⟨i, rest⟩
  · rw [hq] at h
    cases h
  · rw [hq] at h
    cases i with
    | raise callbacks =>
      cases h
      exact .inl ⟨callbacks, rest, rfl, rfl⟩
    | stop =>
      cases h
      exact .inr ⟨rest, rfl, rfl⟩

theorem Line.joined_advance? {l l' : Line} (h : l.advance? = some l') : l'.joined = l.joined := by
  rcases (Line.advance?_cases h).2 with ⟨_, _, -, rfl⟩ | ⟨_, -, rfl⟩ <;> rfl

/-- A line whose thread was told to stop, and that is not out of use yet. -/
def Lingers (g : Loopback) (slot : Nat) : Prop :=
  (g.line slot).joined = true ∧ ((g.line slot).running = true ∨ g.live = some slot)

/-- What does not change back: lines stay, threads stay told and stay stopped, and a line that is not
live does not become live. -/
structure Ages (g g' : Loopback) : Prop where
  length : g.lines.length ≤ g'.lines.length
  joined {slot : Nat} (hl : slot < g.lines.length) (h : (g.line slot).joined = true) :
    (g'.line slot).joined = true
  running {slot : Nat} (hl : slot < g.lines.length) (h : (g.line slot).running = false) :
    (g'.line slot).running = false
  live {slot : Nat} (hl : slot < g.lines.length) (h : g'.live = some slot) : g.live = some slot

section
variable {g : Loopback} {slot : Nat} {f : Line → Line}

theorem line_modifyLine_cases {other : Nat} (hl : other < g.lines.length) (slot : Nat)
    (f : Line → Line) :
    (slot = other ∧ (g.modifyLine slot f).line other = f (g.line other)) ∨
      (slot ≠ other ∧ (g.modifyLine slot f).line other = g.line other) := by
  by_cases ho : slot = other
  · subst ho
    exact .inl ⟨rfl, line_modifyLine hl f⟩
  · exact .inr ⟨ho, line_modifyLine_of_ne ho f⟩

theorem lt_of_line_ne (h : g.line slot ≠ { running := false }) : slot < g.lines.length := by
  rw [← Nat.not_le]
  intro hl
  apply h
  rw [line, List.getElem?_eq_none hl]
  rfl

theorem lt_of_running (h : (g.line slot).running = true) : slot < g.lines.length := by
  apply lt_of_line_ne
  intro he
  rw [he] at h
  cases h

theorem lt_of_joined (h : (g.line slot).joined = true) : slot < g.lines.length := by
  apply lt_of_line_ne
  intro he
  rw [he] at h
  cases h

theorem Ages.refl : Ages g g := ⟨Nat.le_refl _, fun _ => id, fun _ => id, fun _ => id⟩

theorem ages_modifyLine
    (hj : (g.line slot).joined = true → (f (g.line slot)).joined = true)
    (hr : (g.line slot).running = false → (f (g.line slot)).running = false) :
    Ages g (g.modifyLine slot f) := by
  apply Ages.mk
  case length => exact Nat.le_of_eq (length_lines_modifyLine slot f).symm
  case joined =>
    intro other hl h
    rcases line_modifyLine_cases hl slot f with ⟨rfl, he⟩ | ⟨-, he⟩
    · exact he ▸ hj h
    · exact he ▸ h
  case running =>
    intro other hl h
    rcases line_modifyLine_cases hl slot f with ⟨rfl, he⟩ | ⟨-, he⟩
    · exact he ▸ hr h
    · exact he ▸ h
  case live => exact fun _ => id

theorem ages_addLine : Ages g g.addLine := by
  apply Ages.mk
  case length => exact length_lines_addLine g ▸ Nat.le_add_right _ 1
  case joined => exact fun hl h => line_addLine_of_lt hl ▸ h
  case running => exact fun hl h => line_addLine_of_lt hl ▸ h
  case live =>
    intro other hl h
    cases h
    exact absurd hl (Nat.lt_irrefl _)

theorem ages_clearLive (g : Loopback) (slot : Nat) : Ages g (g.clearLive slot) := by
  obtain ⟨live, he, hlive⟩ := clearLive_eq g slot
  rw [he]
  exact ⟨Nat.le_refl _, fun _ => id, fun _ => id, fun _ h => ((hlive _).1 h).1⟩

theorem ages_push (slot : Nat) (callbacks : List Callback) : Ages g (g.push slot callbacks) :=
  ages_modifyLine id id

theorem ages_raise {l : Line} (ha : (g.line slot).advance? = some l) :
    Ages g (g.modifyLine slot fun _ => l) := by
  have hr := (Line.advance?_cases ha).1
  exact ages_modifyLine (Line.joined_advance? ha ▸ id) (by rw [hr]; nofun)

theorem lingers_modifyLine
    (hj : (f (g.line slot)).joined = true → (g.line slot).joined = true)
    (hr : (f (g.line slot)).running = true → (g.line slot).running = true) (other : Nat)
    (h : (g.modifyLine slot f).Lingers other) : g.Lingers other := by
  obtain ⟨hj', h'⟩ := h
  have hl := lt_of_joined hj'
  rw [length_lines_modifyLine] at hl
  rcases line_modifyLine_cases hl slot f with ⟨rfl, he⟩ | ⟨-, he⟩
  · rw [he] at hj' h'
    exact ⟨hj hj', h'.imp_left hr⟩
  · rw [he] at hj' h'
    exact ⟨hj', h'⟩

theorem lingers_addLine (other : Nat) (h : g.addLine.Lingers other) :
    g.Lingers other := by
  obtain ⟨hj, h'⟩ := h
  have hl := lt_of_joined hj
  rw [length_lines_addLine] at hl
  rcases Nat.lt_succ_iff_lt_or_eq.1 hl with hlt | rfl
  · rw [line_addLine_of_lt hlt] at hj h'
    have hnot : g.addLine.live ≠ some other := by
      intro he
      cases he
      exact Nat.lt_irrefl _ hlt
    exact ⟨hj, .inl (h'.resolve_right hnot)⟩
  · rw [line_addLine] at hj
    cases hj

theorem ages_create (g : Loopback) : Ages g g.create.2 := by
  rcases create_cases g with ⟨-, he⟩ | ⟨-, he⟩
  · rw [he]
    exact ⟨Nat.le_refl _, fun _ => id, fun _ => id, fun _ => id⟩
  · rw [he]
    have ha := ages_addLine (g := g)
    exact ⟨ha.length, ha.joined, ha.running, ha.live⟩

theorem lingers_create (other : Nat) (h : g.create.2.Lingers other) : g.Lingers other := by
  rcases create_cases g with ⟨-, he⟩ | ⟨-, he⟩
  · rw [he] at h
    exact h
  · rw [he] at h
    exact lingers_addLine other h

/-- A session that is live is there, also one that was just created. -/
theorem lt_of_live_create (hl : g.live = some slot → slot < g.lines.length)
    (h : g.create.2.live = some slot) : slot < g.create.2.lines.length := by
  rcases create_cases g with ⟨-, he⟩ | ⟨-, he⟩
  · rw [he] at h ⊢
    exact hl h
  · rw [he] at h ⊢
    cases h
    exact length_lines_addLine g ▸ Nat.lt_add_one _

theorem lingers_push (callbacks : List Callback) (other : Nat)
    (h : (g.push slot callbacks).Lingers other) : g.Lingers other :=
  lingers_modifyLine (f := (·.push (.raise callbacks))) id id other h

theorem lingers_raise {l : Line} (ha : (g.line slot).advance? = some l) (other : Nat)
    (h : (g.modifyLine slot fun _ => l).Lingers other) : g.Lingers other := by
  have hr := (Line.advance?_cases ha).1
  exact lingers_modifyLine (Line.joined_advance? ha ▸ id) (fun _ => hr) other h

end

def Caller.isEnding (slot : Nat) : Caller → Bool
  | finish other .told | finish other .joined | finish other .holding => other = slot
  | _ => false

def Ending.Knows (g : Loopback) (slot : Nat) : Ending → Prop
  | arrived => True
  | told => (g.line slot).joined = true
  | joined | holding => (g.line slot).running = false
  | done => (g.line slot).running = false ∧ g.live ≠ some slot

/-- What a caller can rely on, from where it stands. -/
def Caller.Knows (g : Loopback) : Caller → Prop
  | emit _ (.holding found) => g.live = found
  | emit _ _ => True
  | finish slot stage => slot < g.lines.length ∧ stage.Knows g slot

section
variable {g g' : Loopback} {slot : Nat}

theorem Ending.Knows.age {stage : Ending} (h : stage.Knows g slot) (ha : Ages g g')
    (hl : slot < g.lines.length) : stage.Knows g' slot := by
  cases stage with
  | arrived => trivial
  | told => exact ha.joined hl h
  | joined | holding => exact ha.running hl h
  | done => exact ⟨ha.running hl h.1, fun he => h.2 (ha.live hl he)⟩

theorem Caller.Knows.age {c : Caller} (h : c.Knows g) (ha : Ages g g')
    (hlive : c.ownsLive = true → g'.live = g.live) : c.Knows g' := by
  cases c with
  | emit callbacks stage =>
    cases stage with
    | arrived => trivial
    | holding found => exact (hlive rfl).trans h
    | done found => trivial
  | finish slot stage => exact ⟨Nat.lt_of_lt_of_le h.1 ha.length, h.2.age ha h.1⟩

end

namespace Shared

variable {s t : Shared} {place slot : Nat} {c c' : Caller}

structure Exclusive (s : Shared) : Prop where
  lock : s.callers.countP Caller.ownsLive ≤ 1
  keepers (slot : Nat) : s.callers.countP (Caller.keeps slot) ≤ 1

theorem countP_ownsLive_of_free (free : s.isLocked = false) :
    s.callers.countP Caller.ownsLive = 0 := List.countP_eq_zero.2 (List.any_eq_false.1 free)

theorem countP_keeps_of_free (free : s.isFree slot = true) :
    s.callers.countP (Caller.keeps slot) = 0 := by
  have hnone := Bool.not_eq_true' _ ▸ (Bool.and_eq_true_iff.1 free).2
  exact List.countP_eq_zero.2 (List.any_eq_false.1 hnone)

theorem lt_of_free (free : s.isFree slot = true) : slot < s.gateway.lines.length :=
  of_decide_eq_true (Bool.and_eq_true_iff.1 free).1

theorem Exclusive.set (h : s.Exclusive) (hc : s.callers[place]? = some c) (c' : Caller)
    (hlock : c'.ownsLive = true → c.ownsLive = true ∨ s.isLocked = false)
    (hkeeps : ∀ slot, c'.keeps slot = true → c.keeps slot = true) :
    (s.setCaller place c').Exclusive where
  lock := by
    change (s.callers.set place c').countP Caller.ownsLive ≤ 1
    cases hl : s.isLocked with
    | true =>
      have howns : c'.ownsLive = true → c.ownsLive = true := fun ho =>
        (hlock ho).resolve_right (by rw [hl]; nofun)
      exact Nat.le_trans (countP_set_le hc howns) h.lock
    | false =>
      have hset := countP_set_add hc Caller.ownsLive c'
      have hle := c'.ownsLive.toNat_le
      have hnone := countP_ownsLive_of_free hl
      omega
  keepers slot := Nat.le_trans (countP_set_le hc (hkeeps slot)) (h.keepers slot)

theorem Exclusive.join (h : s.Exclusive) (ho : c.ownsLive = false)
    (hk : ∀ slot, c.keeps slot = true → s.callers.countP (Caller.keeps slot) = 0) :
    (s.join c).Exclusive where
  lock := by
    change (s.callers ++ [c]).countP Caller.ownsLive ≤ 1
    rw [List.countP_append, countP_cons_eq_add, ho]
    exact h.lock
  keepers slot := by
    change (s.callers ++ [c]).countP (Caller.keeps slot) ≤ 1
    rw [List.countP_append, countP_cons_eq_add]
    cases hc : c.keeps slot with
    | false => exact h.keepers slot
    | true => exact Nat.le_of_eq (congrArg (· + 1) (hk slot hc))

theorem keeps_finish {stage : Ending} {other : Nat}
    (h : (Caller.finish slot stage).keeps other = true) : slot = other :=
  of_decide_eq_true (Bool.and_eq_true_iff.1 h).1

theorem keeps_finish_self {stage : Ending} (h : stage ≠ .done) :
    (Caller.finish slot stage).keeps slot = true := by
  simp [Caller.keeps, h]

theorem keeps_finish_of_keeps {stage stage' : Ending} (hd : stage ≠ .done) (other : Nat)
    (h : (Caller.finish slot stage').keeps other = true) :
    (Caller.finish slot stage).keeps other = true :=
  keeps_finish h ▸ keeps_finish_self hd

theorem Exclusive.step (h : s.Exclusive) (hs : Step s t) : t.Exclusive := by
  cases hs with
  | create free => exact ⟨h.lock, h.keepers⟩
  | push slot callbacks free => exact ⟨h.lock, h.keepers⟩
  | emit callbacks => exact h.join rfl nofun
  | finish slot free =>
    exact h.join rfl fun other ho => keeps_finish ho ▸ countP_keeps_of_free free
  | proceed place c c' hc hp =>
    cases hp with
    | look callbacks free => exact h.set hc _ (fun _ => .inr free) nofun
    | refuse callbacks => exact h.set hc _ nofun nofun
    | skip slot hj => exact h.set hc _ nofun (keeps_finish_of_keeps nofun)
    | join slot hr => exact h.set hc _ nofun (keeps_finish_of_keeps nofun)
    | lock slot free => exact h.set hc _ (fun _ => .inr free) (keeps_finish_of_keeps nofun)
  | deliver place slot callbacks hc =>
    have hset := h.set hc (.emit callbacks (.done (some slot))) nofun nofun
    exact ⟨hset.lock, hset.keepers⟩
  | tell place slot hc hj =>
    have hset := h.set hc (.finish slot .told) nofun (keeps_finish_of_keeps nofun)
    exact ⟨hset.lock, hset.keepers⟩
  | clear place slot hc =>
    have hset := h.set hc (.finish slot .done) nofun (keeps_finish_of_keeps nofun)
    exact ⟨hset.lock, hset.keepers⟩
  | raise slot l ha => exact ⟨h.lock, h.keepers⟩

/-- Every caller can rely on what it knows, and a line that was told to stop is in somebody's hands
until it is out of use. -/
structure Known (s : Shared) : Prop where
  live (slot : Nat) (h : s.gateway.live = some slot) : slot < s.gateway.lines.length
  knows (place : Nat) (c : Caller) (hc : s.callers[place]? = some c) : c.Knows s.gateway
  lingers (slot : Nat) (h : s.gateway.Lingers slot) : 0 < s.callers.countP (Caller.isEnding slot)

theorem Known.changed {g : Loopback} (h : s.Known) (ha : Ages s.gateway g)
    (hlive : g.live = s.gateway.live ∨ s.isLocked = false)
    (hl : ∀ slot, g.live = some slot → slot < g.lines.length)
    (hg : ∀ slot, g.Lingers slot → s.gateway.Lingers slot) : Known { s with gateway := g } where
  live := hl
  knows place c hc := by
    apply (h.knows place c hc).age ha
    intro ho
    apply hlive.resolve_right
    intro free
    exact List.any_eq_false.1 free c (List.mem_of_getElem? hc) ho
  lingers slot hs := h.lingers slot (hg slot hs)

theorem Known.join (h : s.Known) (hk : c.Knows s.gateway) : (s.join c).Known where
  live := h.live
  knows place c' hc := by
    rcases getElem?_concat_cases hc with hc | ⟨-, rfl⟩
    · exact h.knows place c' hc
    · exact hk
  lingers slot hs := by
    change 0 < (s.callers ++ [c]).countP (Caller.isEnding slot)
    rw [List.countP_append]
    exact Nat.add_pos_left (h.lingers slot hs) _

/-- A caller comes to its next stage and does something to the gateway on the way. Only the owner of
the lock changes what is live. -/
theorem Known.move {g : Loopback} (h : s.Known) (hx : s.Exclusive)
    (hc : s.callers[place]? = some c) (c' : Caller) (ha : Ages s.gateway g)
    (hlive : ∀ slot, g.live = some slot → s.gateway.live = some slot)
    (howns : g.live = s.gateway.live ∨ c.ownsLive = true) (hk : c'.Knows g)
    (hg : ∀ slot, g.Lingers slot →
      c'.isEnding slot = true ∨ s.gateway.Lingers slot ∧ c.isEnding slot = false) :
    Known { s.setCaller place c' with gateway := g } where
  live slot hs := Nat.lt_of_lt_of_le (h.live slot (hlive slot hs)) ha.length
  knows other d hd := by
    rcases getElem?_set_cases hd with ⟨-, rfl⟩ | ⟨ho, hd⟩
    · exact hk
    · apply (h.knows other d hd).age ha
      intro hdo
      apply howns.resolve_right
      intro hco
      exact ho (eq_of_countP_le_one hx.lock hc hd hco hdo)
  lingers slot hs := by
    change 0 < (s.callers.set place c').countP (Caller.isEnding slot)
    rcases hg slot hs with hend | ⟨hs, hend⟩
    · have hlt := (List.getElem?_eq_some_iff.1 hc).1
      exact countP_pos_of_getElem? (List.getElem?_set_self hlt) hend
    · exact Nat.lt_of_lt_of_le (h.lingers slot hs) (le_countP_set hc (by rw [hend]; nofun))

theorem isEnding_finish_of_ne {stage : Ending} {other : Nat} (h : slot ≠ other) :
    (Caller.finish slot stage).isEnding other = false := by
  cases stage with
  | told | joined | holding => exact decide_eq_false h
  | arrived | done => rfl

theorem keeps_of_isEnding (c : Caller) (h : c.isEnding slot = true) : c.keeps slot = true := by
  cases c with
  | emit callbacks stage => cases h
  | finish other stage =>
    cases stage with
    | told | joined | holding => exact of_decide_eq_true h ▸ keeps_finish_self nofun
    | arrived | done => cases h

/-- Nobody else has told the thread of a line to stop when somebody comes to that. -/
theorem Known.stopped (h : s.Known) (hx : s.Exclusive)
    (hc : s.callers[place]? = some (.finish slot .arrived))
    (hj : (s.gateway.line slot).joined = true) : (s.gateway.line slot).running = false := by
  rw [← Bool.not_eq_true]
  intro hr
  obtain ⟨d, hd, hend⟩ := List.countP_pos_iff.1 (h.lingers slot ⟨hj, .inl hr⟩)
  obtain ⟨other, hd⟩ := List.mem_iff_getElem?.1 hd
  obtain rfl : place = other :=
    eq_of_countP_le_one (hx.keepers slot) hc hd (keeps_finish_self nofun) (keeps_of_isEnding d hend)
  cases hc.symm.trans hd
  cases hend

theorem Known.proceed (h : s.Known) (hx : s.Exclusive) (hc : s.callers[place]? = some c)
    (hp : s.Proceeds c c') : (s.setCaller place c').Known := by
  have hlt : ∀ {slot stage}, c = .finish slot stage → slot < s.gateway.lines.length := by
    rintro slot stage rfl
    exact (h.knows place _ hc).1
  apply h.move hx hc c' .refl (fun _ => id) (.inl rfl)
  · cases hp with
    | look callbacks free => rfl
    | refuse callbacks => trivial
    | skip slot hj => exact ⟨hlt rfl, h.stopped hx hc hj⟩
    | join slot hr => exact ⟨hlt rfl, hr⟩
    | lock slot free => exact ⟨hlt rfl, (h.knows place _ hc).2⟩
  · intro other hs
    cases hp with
    | look callbacks free | refuse callbacks => exact .inr ⟨hs, rfl⟩
    | skip slot hj => exact .inr ⟨hs, rfl⟩
    | join slot hr | lock slot free =>
      by_cases ho : slot = other
      · exact .inl (decide_eq_true ho)
      · exact .inr ⟨hs, isEnding_finish_of_ne ho⟩

theorem Known.step (h : s.Known) (hx : s.Exclusive) (hs : Step s t) : t.Known := by
  cases hs with
  | create free =>
    exact h.changed (ages_create _) (.inr free) (fun slot => lt_of_live_create (h.live slot))
      lingers_create
  | push slot callbacks free =>
    have ha := ages_push (g := s.gateway) slot callbacks
    have hg := h.changed ha (.inl rfl)
      (fun other ho => Nat.lt_of_lt_of_le (h.live other ho) ha.length) (lingers_push callbacks)
    exact ⟨hg.live, hg.knows, hg.lingers⟩
  | emit callbacks => exact h.join trivial
  | finish slot free => exact h.join ⟨lt_of_free free, trivial⟩
  | proceed place c c' hc hp => exact h.proceed hx hc hp
  | deliver place slot callbacks hc =>
    have hm := h.move hx hc (.emit callbacks (.done (some slot))) (ages_push slot callbacks)
      (fun _ => id) (.inl rfl) trivial fun other ho => .inr ⟨lingers_push callbacks other ho, rfl⟩
    exact ⟨hm.live, hm.knows, hm.lingers⟩
  | tell place slot hc hj =>
    obtain ⟨hl, -⟩ := h.knows place _ hc
    have ha : Ages s.gateway (s.gateway.pushStop slot) := ages_modifyLine (fun _ => rfl) id
    apply h.move hx hc _ ha (fun _ => id) (.inl rfl)
    · have hj' : ((s.gateway.pushStop slot).line slot).joined = true := by
        rw [pushStop, line_modifyLine hl]
      exact ⟨Nat.lt_of_lt_of_le hl ha.length, hj'⟩
    · intro other ho
      by_cases hne : slot = other
      · exact .inl (decide_eq_true hne)
      · have hline : (s.gateway.pushStop slot).line other = s.gateway.line other :=
          line_modifyLine_of_ne hne _
        rw [Lingers, hline] at ho
        exact .inr ⟨ho, rfl⟩
  | clear place slot hc =>
    -- the lock is the caller's, so nobody else relies on what is live
    obtain ⟨hl, hr⟩ := h.knows place _ hc
    have ha := ages_clearLive s.gateway slot
    obtain ⟨live, he, hlive⟩ := clearLive_eq s.gateway slot
    rw [he] at ha ⊢
    apply h.move hx hc _ ha (fun other ho => ((hlive other).1 ho).1) (.inr rfl)
    · exact ⟨hl, hr, fun ho => ((hlive slot).1 ho).2 rfl⟩
    · rintro other ⟨hj, hr'⟩
      have hne : slot ≠ other := by
        rintro rfl
        rcases hr' with hr' | ho
        · cases hr.symm.trans hr'
        · exact ((hlive slot).1 ho).2 rfl
      exact .inr ⟨⟨hj, hr'.imp_right fun ho => ((hlive other).1 ho).1⟩, isEnding_finish_of_ne hne⟩
  | raise slot l ha =>
    have hages := ages_raise ha
    exact h.changed hages (.inl rfl)
      (fun other ho => Nat.lt_of_lt_of_le (h.live other ho) hages.length) (lingers_raise ha)

theorem exclusive_start (o : Options) : Exclusive { gateway := { options := o } } :=
  ⟨Nat.zero_le 1, fun _ => Nat.zero_le 1⟩

theorem known_start (o : Options) : Known { gateway := { options := o } } where
  live := nofun
  knows := nofun
  lingers _ h := absurd (lt_of_joined h.1) (Nat.not_lt_zero _)

end Shared

end MarketFeed.Loopback
