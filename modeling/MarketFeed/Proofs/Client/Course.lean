import MarketFeed.Proofs.Session.Pipelining
import MarketFeed.Proofs.Session.Quiet

namespace MarketFeed

variable {σ : Type}

theorem Client.book_eq (c : Client σ) (request : Request) (requestId : Option Int32) :
    (∃ f, (c.session.book request requestId ⟨c.tickets, []⟩).1 = .error f ∧
      c.book request requestId = (.error f, c)) ∨
    ∃ s, c.session.book request requestId ⟨c.tickets, []⟩ = (.ok (), s) ∧
      c.book request requestId =
        (.ok ⟨c.tickets⟩, { c with session := s, tickets := c.tickets + 1 }) := by
  rw [book]
  cases hb : c.session.book request requestId ⟨c.tickets, []⟩ with
  | mk r s =>
    cases r with
    | error f => exact .inl ⟨f, rfl, rfl⟩
    | ok u => exact .inr ⟨s, rfl, rfl⟩

theorem Client.started_of_heard? {c : Client σ} {t : Ticket} {outcome : Outcome}
    (h : c.heard? t = some outcome) :
    ∃ sub, (sub, outcome) ∈ c.session.started ∧ sub.continuation.tag = t.tag := by
  rw [heard?] at h
  cases hf : c.session.finished.find? fun f => f.tag == t.tag with
  | some f =>
    rw [hf] at h
    cases h
    have htag := List.find?_some hf
    refine ⟨f.submission, List.mem_append_left _ ?_, eq_of_beq htag⟩
    exact List.mem_map.2 ⟨f, List.mem_of_find?_eq_some hf, rfl⟩
  | none =>
    rw [hf] at h
    cases hp : c.session.pump with
    | completing sub given acts answers =>
      simp only [hp] at h
      obtain ⟨ht, h⟩ := Option.ite_none_right_eq_some.1 h
      cases h
      refine ⟨sub, List.mem_append_right _ ?_, ht⟩
      rw [hp]
      exact List.mem_singleton_self _
    | _ =>
      simp only [hp, reduceCtorEq] at h

theorem getElem?_mono {α : Type} {xs ys : List α} {i : Nat} {x : α} (h : xs <+: ys)
    (hx : xs[i]? = some x) : ys[i]? = some x := by
  obtain ⟨rest, rfl⟩ := h
  rw [List.getElem?_append_left (List.getElem?_eq_some_iff.1 hx).1]
  exact hx

namespace Connection

/-- The submissions of a connection. Each call is waited for under a tag of its own. -/
def submissions (rs : List Request) : List (Submission Continuation) :=
  rs.mapIdx fun place r => ⟨r, none, ⟨place, []⟩⟩

theorem length_submissions (rs : List Request) : (submissions rs).length = rs.length :=
  List.length_mapIdx

theorem submissions_concat (rs : List Request) (r : Request) :
    submissions (rs ++ [r]) = submissions rs ++ [⟨r, none, ⟨rs.length, []⟩⟩] :=
  List.mapIdx_concat

theorem submissions_cons (r : Request) (rs : List Request) :
    ∃ xs, submissions (r :: rs) = ⟨r, none, ⟨0, []⟩⟩ :: xs :=
  ⟨_, List.mapIdx_cons⟩

theorem getElem?_submissions (rs : List Request) (place : Nat) :
    (submissions rs)[place]? = rs[place]?.map fun r => ⟨r, none, ⟨place, []⟩⟩ :=
  List.getElem?_mapIdx

theorem requests_submissions (rs : List Request) : (submissions rs).map (·.request) = rs := by
  induction rs using List.reverseRecOn with
  | nil => rfl
  | append_singleton rs r ih =>
    rw [submissions_concat, List.map_append, ih]
    rfl

theorem calls_submissions (rs : List Request) :
    (submissions rs).map (fun x => x.request.vendorCall x.requestId) =
      rs.map (·.vendorCall none) := by
  induction rs using List.reverseRecOn with
  | nil => rfl
  | append_singleton rs r ih =>
    rw [submissions_concat, List.map_append, List.map_append, ih]
    rfl

def Succeeded (s : Session σ) (n : Nat) : Prop :=
  ∀ place < n, ∃ sub v, s.started[place]? = some (sub, .ok v)

theorem Succeeded.length_le {s : Session σ} {n : Nat} (h : Succeeded s n) :
    n ≤ s.started.length := by
  cases n with
  | zero => exact Nat.zero_le _
  | succ n =>
    obtain ⟨sub, v, hn⟩ := h n (Nat.lt_succ_self n)
    exact (List.getElem?_eq_some_iff.1 hn).1

theorem Succeeded.of_le {s : Session σ} {m n : Nat} (h : Succeeded s n) (hm : m ≤ n) :
    Succeeded s m :=
  fun place hp => h place (Nat.lt_of_lt_of_le hp hm)

theorem Succeeded.of_prefix {s t : Session σ} {n : Nat} (h : Succeeded s n)
    (hst : s.started <+: t.started) : Succeeded t n := by
  intro place hp
  obtain ⟨sub, v, hs⟩ := h place hp
  exact ⟨sub, v, getElem?_mono hst hs⟩

theorem Succeeded.succ {s : Session σ} {n : Nat} (h : Succeeded s n)
    {sub : Submission Continuation} {v : CallValue} (hn : s.started[n]? = some (sub, .ok v)) :
    Succeeded s (n + 1) := by
  intro place hp
  rcases Nat.lt_succ_iff_lt_or_eq.1 hp with hp | rfl
  · exact h place hp
  · exact ⟨sub, v, hn⟩

/-- A client that has made the first calls of its connection, with the rest of the plan to come. -/
structure Made (V : Vendor σ) (vendor : σ) (settings : Settings) (rs : List Request)
    (later : List (Except Failure Request)) (c : Client σ) : Prop where
  reached : ∃ ms, (Session.fresh vendor settings).run V ms = some c.session
  quiet : c.session.Quiet
  accepted : c.session.accepted = submissions rs
  tickets : c.tickets = rs.length
  alive : c.session.pump.standing ≠ .destroyed
  plan : Client.plan settings = rs.map .ok ++ later

section
variable {V : Vendor σ} {vendor : σ} {settings : Settings} {rs : List Request}
  {later : List (Except Failure Request)} {c : Client σ} (h : Made V vendor settings rs later c)
include h

theorem Made.sound : c.session.Sound V vendor := by
  obtain ⟨ms, hr⟩ := h.reached
  exact (Session.sound_fresh V vendor settings).run hr

theorem Made.follows : c.session.Follows V vendor := by
  obtain ⟨ms, hr⟩ := h.reached
  exact ((Session.sound_fresh V vendor settings).follows
    (Session.follows_fresh V vendor settings) hr).2

theorem Made.handled : c.session.lane.Handled := by
  obtain ⟨ms, hr⟩ := h.reached
  exact Session.handled_of_run hr

theorem Made.reached_step {m : MarketFeed.Move} {s : Session σ}
    (hs : c.session.step? V m = some s) :
    ∃ ms, (Session.fresh vendor settings).run V ms = some s := by
  obtain ⟨ms, hr⟩ := h.reached
  refine ⟨ms ++ [m], ?_⟩
  rw [Session.run_append, hr]
  simp only [Option.bind_some, Session.run, List.foldlM_cons, List.foldlM_nil, hs]
  rfl

theorem Made.length_accepted : c.session.accepted.length = rs.length := by
  rw [h.accepted, length_submissions]

theorem Made.of_step? {m : MarketFeed.Move} {s : Session σ} (hs : c.session.step? V m = some s)
    (hsub : c.session.submission? m = none) (hreg : c.session.registration? m = none)
    (alive : s.pump.standing ≠ .destroyed) :
    Made V vendor settings rs later { c with session := s } where
  reached := h.reached_step hs
  quiet := by
    apply h.quiet.of_step? (h.sound.change (.of_step? hs)) hs ?_ hreg
    intro sub he
    rw [hsub] at he
    cases he
  accepted := (Session.accepted_eq_of_step? hs hsub).trans h.accepted
  tickets := h.tickets
  alive := alive
  plan := h.plan

theorem Made.around {m : MarketFeed.Move} {s : Session σ} (hm : m.isUnattended = true)
    (hs : c.session.step? V m = some s) :
    Made V vendor settings rs later { c with session := s } := by
  obtain ⟨hsub, hreg⟩ := h.quiet.brings_nothing hm
  exact h.of_step? hs hsub hreg ((Session.stays_of_unattended hm hs).pump h.alive)

theorem Made.letGo (held : c.session.held = true) (free : c.session.booked = none) :
    Made V vendor settings rs later { c with session := c.session.letGo } :=
  h.of_step? (m := .letGo) (if_pos ⟨held, free⟩) rfl rfl h.alive

theorem Made.answered (hs : rs.length ≤ c.session.started.length) :
    c.session.started.map (·.1) = c.session.accepted ∧
      c.session.lane.served = c.session.accepted ∧ c.session.booked = none :=
  h.sound.all_started (h.length_accepted.symm ▸ hs)

theorem Made.heard {place : Nat} {outcome : Outcome} (hh : c.heard? ⟨place⟩ = some outcome) :
    ∃ sub, c.session.started[place]? = some (sub, outcome) := by
  obtain ⟨sub, hm, htag⟩ := Client.started_of_heard? hh
  obtain ⟨i, hi⟩ := List.mem_iff_getElem?.1 hm
  have hsub : (submissions rs)[i]? = some sub := by
    rw [← h.accepted]
    apply getElem?_mono h.sound.accepted_of_started
    rw [List.getElem?_map, hi]
    rfl
  rw [getElem?_submissions] at hsub
  obtain ⟨r, -, rfl⟩ := Option.map_eq_some_iff.1 hsub
  change i = place at htag
  exact ⟨_, htag ▸ hi⟩

end

/-- How far a connection has come, and what it stands at. -/
inductive Stands (V : Vendor σ) (vendor : σ) (settings : Settings) (c : Client σ) :
    Progress → Prop
  | ready (plan : List (Except Failure Request)) (made : Made V vendor settings [] plan c)
      (held : c.session.held = true) : Stands V vendor settings c (.ready plan)
  | waiting (rs : List Request) (r : Request) (later : List (Except Failure Request))
      (made : Made V vendor settings (rs ++ [r]) later c) (ok : Succeeded c.session rs.length)
      (held : c.session.held = true) : Stands V vendor settings c (.waiting ⟨rs.length⟩ later)
  | connected (rs : List Request) (made : Made V vendor settings rs [] c)
      (ok : Succeeded c.session rs.length) (held : c.session.held = true) :
      Stands V vendor settings c .connected
  | refused (rs : List Request) (next : Except Failure Request)
      (later : List (Except Failure Request)) (f : Failure)
      (made : Made V vendor settings rs (next :: later) c) (ok : Succeeded c.session rs.length)
      (begun : rs ≠ []) (hf : ∀ f', next = .error f' → f' = f) (gone : c.session.held = false) :
      Stands V vendor settings c (.failed f)
  | failed (rs : List Request) (r : Request) (later : List (Except Failure Request)) (f : Failure)
      (sub : Submission Continuation) (made : Made V vendor settings (rs ++ [r]) later c)
      (ok : Succeeded c.session rs.length)
      (last : c.session.started[rs.length]? = some (sub, .error f))
      (gone : c.session.held = false) : Stands V vendor settings c (.failed f)

section
variable {V : Vendor σ} {vendor : σ} {settings : Settings} {rs : List Request}
  {later : List (Except Failure Request)} {c : Client σ}

theorem Made.booked {r : Request} {s : Session σ}
    (h : Made V vendor settings rs (.ok r :: later) c) (held : c.session.held = true)
    (free : c.session.booked = none)
    (hb : c.session.book r none ⟨c.tickets, []⟩ = (.ok (), s)) :
    Made V vendor settings (rs ++ [r]) later { c with session := s, tickets := c.tickets + 1 } ∧
      s.started = c.session.started ∧ s.held = true := by
  have hstep : c.session.step? V (.book r none ⟨c.tickets, []⟩) = some s := by
    rw [Session.step?, if_pos ⟨held, free⟩, hb]
  rcases c.session.book_eq r none ⟨c.tickets, []⟩ with ⟨hno, -⟩ | ⟨-, -, -, log, he⟩
  · rw [hb] at hno
    cases hno
  · rw [hb] at he
    change s = _ at he
    refine ⟨Made.mk (h.reached_step hstep) ?_ ?_ ?_ ?_ ?_, ?_, ?_⟩
    · apply h.quiet.of_step? (h.sound.change (.of_step? hstep)) hstep ?_ rfl
      intro sub hsub
      cases hsub
      rfl
    · rw [submissions_concat, ← h.accepted, ← h.tickets, he]
      exact Session.accepted_of_accept free (.inl ⟨rfl, rfl⟩)
    · rw [List.length_append, ← h.tickets]
      rfl
    · rw [he]
      exact h.alive
    · rw [h.plan, List.map_append, List.append_assoc]
      rfl
    · have hm : Move.book r none ⟨c.tickets, []⟩ ≠ .pump := by
        intro hm
        cases hm
      exact (Session.goes_of_step? hm hstep).started
    · rw [he]
      exact held

/-- The creation is not refused: nothing has happened that could move the session on. -/
theorem Made.creates (h : Made V vendor settings [] later c) (flowDir : String) (k : Continuation) :
    (c.session.book (.create flowDir) none k).1 = .ok () := by
  have hnone : c.session.accepted = [] := h.accepted
  have hx : ¬ c.session.ExitAccepted := by
    rintro ⟨sub, hm, -⟩
    rw [hnone] at hm
    cases hm
  have hheard : (c.session.heardOf V vendor).hasHandle = false := by
    rw [Session.heardOf, (h.answered (Nat.zero_le _)).1, hnone]
    rfl
  rw [Session.book_fst, (h.follows hx).handle.2 hheard]
  rfl

theorem Made.begun {next : Except Failure Request}
    (h : Made V vendor settings rs (next :: later) c) {f : Failure}
    (hno : (∃ r k, next = .ok r ∧ (c.session.book r none k).1 = .error f) ∨ next = .error f) :
    rs ≠ [] := by
  rintro rfl
  obtain ⟨rfl, -⟩ := List.cons.inj h.plan
  rcases hno with ⟨r, k, hr, hb⟩ | hno
  · cases hr
    cases (h.creates settings.flowDir k).symm.trans hb
  · cases hno

theorem stands_proceed (h : Made V vendor settings rs later c) (ok : Succeeded c.session rs.length)
    (held : c.session.held = true) :
    Stands V vendor settings (proceed c later).client (proceed c later).progress := by
  have free := (h.answered ok.length_le).2.2
  cases later with
  | nil => exact .connected rs h ok held
  | cons next later =>
    cases next with
    | error f =>
      refine .refused rs (.error f) later f (h.letGo held free) ok (h.begun (.inr rfl)) ?_ rfl
      intro f' he
      exact (Except.error.inj he).symm
    | ok r =>
      rw [proceed]
      rcases c.book_eq r none with ⟨f, hf, he⟩ | ⟨s, hs, he⟩
      · rw [he]
        have begun := h.begun (.inl ⟨r, _, rfl, hf⟩)
        exact .refused rs (.ok r) later f (h.letGo held free) ok begun nofun rfl
      · obtain ⟨hmade, hst, hheld⟩ := h.booked held free hs
        rw [he, h.tickets]
        exact .waiting rs r later (h.tickets ▸ hmade) (ok.of_prefix (hst ▸ List.prefix_rfl)) hheld

theorem stands_start (V : Vendor σ) (vendor : σ) (settings : Settings) :
    Stands V vendor settings { session := .fresh vendor settings }
      (.ready (Client.plan settings)) := by
  exact .ready _ ⟨⟨[], rfl⟩, Session.quiet_fresh vendor settings, rfl, rfl, nofun, rfl⟩ rfl

theorem Stands.around {p : Progress} (h : Stands V vendor settings c p) {m : MarketFeed.Move}
    {s : Session σ} (hm : m.isUnattended = true) (hs : c.session.step? V m = some s) :
    Stands V vendor settings { c with session := s } p := by
  have hst := (Session.Change.of_step? hs).stateChange.started_prefix
  have hheld := (Session.stays_of_unattended hm hs).held
  cases h with
  | ready plan made held => exact .ready plan (made.around hm hs) (hheld.trans held)
  | waiting rs r later made ok held =>
    exact .waiting rs r later (made.around hm hs) (ok.of_prefix hst) (hheld.trans held)
  | connected rs made ok held =>
    exact .connected rs (made.around hm hs) (ok.of_prefix hst) (hheld.trans held)
  | refused rs next later f made ok begun hf gone =>
    exact .refused rs next later f (made.around hm hs) (ok.of_prefix hst) begun hf
      (hheld.trans gone)
  | failed rs r later f sub made ok last gone =>
    exact .failed rs r later f sub (made.around hm hs) (ok.of_prefix hst)
      (getElem?_mono hst last) (hheld.trans gone)

/-- A connection goes on with a success and ends with a failure. -/
theorem Stands.resume {x y : Connection σ} (h : Stands V vendor settings x.client x.progress)
    (hr : x.resume? = some y) : Stands V vendor settings y.client y.progress := by
  obtain ⟨c, p⟩ := x
  cases h with
  | ready plan made held =>
    cases hr
    exact stands_proceed made nofun held
  | waiting rs r later made ok held =>
    obtain ⟨outcome, hh, rfl⟩ := Option.map_eq_some_iff.1 hr
    obtain ⟨sub, hsub⟩ := made.heard hh
    have hlen : (rs ++ [r]).length = rs.length + 1 := List.length_append
    cases outcome with
    | ok v => exact stands_proceed made (hlen ▸ ok.succ hsub) held
    | error f =>
      have free := (made.answered (hlen ▸ (List.getElem?_eq_some_iff.1 hsub).1)).2.2
      exact .failed rs r later f sub (made.letGo held free) ok hsub rfl
  | _ => cases hr

theorem Stands.step {x y : Connection σ} (h : Stands V vendor settings x.client x.progress)
    {m : Move} (hs : x.step? V m = some y) : Stands V vendor settings y.client y.progress := by
  cases m with
  | resume => exact h.resume hs
  | around m =>
    obtain ⟨hm, hs⟩ := Option.ite_none_right_eq_some.1 hs
    obtain ⟨s, hm', rfl⟩ := Option.map_eq_some_iff.1 hs
    exact h.around hm hm'

theorem Stands.run {x y : Connection σ} (h : Stands V vendor settings x.client x.progress)
    {ms : List Move} (hr : x.run V ms = some y) :
    Stands V vendor settings y.client y.progress := by
  induction ms generalizing x with
  | nil =>
    cases hr
    exact h
  | cons m ms ih =>
    rw [Connection.run, List.foldlM_cons] at hr
    obtain ⟨u, hu, hr⟩ := Option.bind_eq_some_iff.1 hr
    exact ih (h.step hu) hr

end

end Connection

end MarketFeed
