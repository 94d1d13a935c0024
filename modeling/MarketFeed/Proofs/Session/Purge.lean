import MarketFeed.Proofs.Session.Pipelining
import MarketFeed.Proofs.Session.Plan

namespace MarketFeed.Session

variable {σ : Type}

/-- Two runs, the second without what is refused in the first: not the move of a holder, nor the
call in the continuation or the listener that the pump comes to. The other moves are made in both,
with the same submissions and the same verdicts on them, and at every point the sessions look
alike. -/
inductive Purged (V : Vendor σ) : Session σ → Session σ → List Move → List Move → Prop
  | done {s s' : Session σ} (h : SameCourse s s') : Purged V s s' [] []
  | drop {s s' t : Session σ} {m : Move} {ms ms' : List Move} (h : SameCourse s s')
      (hr : s.refuses m = true) (ht : s.step? V m = some t) (hs : Purged V t s' ms ms') :
      Purged V s s' (m :: ms) ms'
  | keep {s s' t t' : Session σ} {m m' : Move} {ms ms' : List Move} (h : SameCourse s s')
      (hr : s.refuses m = false) (hm : m.Recoded ActsThinned m') (ht : s.step? V m = some t)
      (ht' : s'.step? V m' = some t')
      (hv : (s'.offered (s'.submission? m')).map Offer.verdict =
        (s.offered (s.submission? m)).map Offer.verdict)
      (hs : Purged V t t' ms ms') : Purged V s s' (m :: ms) (m' :: ms')

theorem offered_of_refuses {s : Session σ} {m : Move} (h : s.refuses m = true) :
    (s.offered (s.submission? m)).filter (·.taken) = [] := by
  obtain ⟨sub, hs, ht⟩ := refuses_iff.1 h
  rw [hs]
  change [Offer.mk sub (s.takes sub)].filter (·.taken) = []
  rw [ht]
  rfl

theorem offered_of_not_refuses {s : Session σ} {m : Move} (h : s.refuses m = false) :
    (s.offered (s.submission? m)).filter (·.taken) = s.offered (s.submission? m) := by
  cases hs : s.submission? m with
  | none => rfl
  | some sub =>
    have ht : s.takes sub = true := by
      rw [← Bool.not_eq_false]
      intro hn
      exact nomatch h.symm.trans (refuses_iff.2 ⟨sub, hs, hn⟩)
    change [Offer.mk sub (s.takes sub)].filter (·.taken) = [Offer.mk sub (s.takes sub)]
    rw [ht]
    rfl

theorem verdicts_of_bare {s s' : Session σ} (h : s.bare = s'.bare) {m m' : Move}
    (hm : m.bare = m'.bare)
    (ha : m = .pump → s.pump.act?.map Act.bare = s'.pump.act?.map Act.bare) :
    (s'.offered (s'.submission? m')).map Offer.verdict =
      (s.offered (s.submission? m)).map Offer.verdict := by
  have verdict (s : Session σ) (sub? : Option (Submission Continuation)) :
      (s.offered sub?).map Offer.verdict =
        (s.offered (sub?.map (Submission.map Continuation.bare))).map Offer.verdict := by
    cases sub? with
    | none => rfl
    | some sub =>
      simp only [offered, Option.map_some, Option.toList_some, List.map_cons, List.map_nil,
        Offer.verdict, takes, book_fst]
      rfl
  rw [verdict, verdict s, submission?_of_bare h hm ha]
  have htakes : s'.takes = s.takes := by
    funext sub
    rw [takes, takes, book_fst, book_fst, state_of_bare h]
  rw [offered, offered, htakes]

namespace Purged

variable {V : Vendor σ} {s s' : Session σ} {ms ms' : List Move}

theorem run (h : Purged V s s' ms ms') :
    ∃ t t', s.run V ms = some t ∧ s'.run V ms' = some t' ∧ SameCourse t t' := by
  induction h with
  | done h => exact ⟨_, _, rfl, rfl, h⟩
  | drop h hr ht hs ih =>
    obtain ⟨t, t', hrun, hrun', hsame⟩ := ih
    refine ⟨t, t', ?_, hrun', hsame⟩
    rw [Session.run, List.foldlM_cons, ht]
    exact hrun
  | keep h hr hm ht ht' hv hs ih =>
    obtain ⟨t, t', hrun, hrun', hsame⟩ := ih
    refine ⟨t, t', ?_, ?_, hsame⟩
    · rw [Session.run, List.foldlM_cons, ht]
      exact hrun
    · rw [Session.run, List.foldlM_cons, ht']
      exact hrun'

theorem offers (h : Purged V s s' ms ms') :
    (s'.offers V ms').map Offer.verdict =
      ((s.offers V ms).filter (·.taken)).map Offer.verdict := by
  induction h with
  | done h => rfl
  | drop h hr ht hs ih =>
    simp only [Session.offers, ht]
    rw [List.filter_append, offered_of_refuses hr, List.nil_append]
    exact ih
  | keep h hr hm ht ht' hv hs ih =>
    simp only [Session.offers, ht, ht']
    rw [List.filter_append, List.map_append, List.map_append, offered_of_not_refuses hr, hv, ih]

end Purged

theorem exists_purged {V : Vendor σ} {vendor : σ} {s t : Session σ} {ms : List Move}
    (hs : s.Sound V vendor) (hr : s.run V ms = some t) :
    ∃ p : Plan, p.Thins s ∧ ∀ s' : Session σ, s'.Sound V vendor → s.bare = s'.bare → s'.Keeps p →
      ∃ ms', Purged V s s' ms ms' := by
  induction ms generalizing s with
  | nil =>
    let own : Plan := ⟨fun i => (s.accepted[i]?.map (·.continuation.acts)).getD [],
      fun kind => ((s.listeners.find? kind).map (·.listener.rounds)).getD [], s.pump.acts⟩
    refine ⟨own, ?_, fun s' _ hb _ => ⟨[], .done (sameCourse_of_bare hb)⟩⟩
    apply Plan.Thins.mk
    case continuation =>
      intro i x _ hx
      change ActsThinned _ ((s.accepted[i]?.map (·.continuation.acts)).getD [])
      rw [hx]
      exact .refl _
    case rounds =>
      intro kind r hr n
      change ActsThinned _ (actsAt (((s.listeners.find? kind).map (·.listener.rounds)).getD []) n)
      rw [hr]
      exact .refl _
    case current => exact .refl _
  | cons m ms ih =>
    obtain ⟨u, hu, hr⟩ := step_and_run hr
    obtain ⟨q, hq, hpurged⟩ := ih (hs.change (.of_step? hu)) hr
    cases hrefuse : s.refuses m with
    | true =>
      -- Nothing has changed but that the call is not in the code any more.
      have hlapse := lapse_of_refused hrefuse hu
      refine ⟨q, hlapse.thins hq, ?_⟩
      intro s' hs' hb hk
      obtain ⟨ms', h⟩ := hpurged s' hs' (hlapse.bare.trans hb) hk
      exact ⟨ms', .drop (sameCourse_of_bare hb) hrefuse hu h⟩
    | false =>
      obtain ⟨p, m', hp⟩ := exists_planned hs hq hu hrefuse
      refine ⟨p, hp.thins, ?_⟩
      intro s' hs' hb hk
      have halike := hp.alike s' hb hk
      obtain ⟨u', hu', hbu⟩ := hp.exists_step hb hk hu
      obtain ⟨ms', h⟩ := hpurged u' (hs'.change (.of_step? hu')) hbu
        (hp.keeps s' u' hs' hb hbu hk hu')
      exact ⟨m' :: ms', .keep (sameCourse_of_bare hb) hrefuse hp.recoded hu hu'
        (verdicts_of_bare hb hp.recoded.bare halike) h⟩

/-- A submission is refused for its arguments if they are unsound, or else for the state if that
does not admit it. Without the submissions that are refused, a run is still a run with the same
course; and in neither run is the continuation of a refused request started. -/
theorem refusals_traceless (V : Vendor σ) (vendor : σ) {hasScheduler : Bool} {settings : Settings}
    {s₀ : Session σ} (hc : create hasScheduler vendor settings = .made s₀) :
    (∀ (s : Session σ) request requestId k,
      s.Judges request (s.book request requestId k).1 ∧
        s.Judges request (s.submit request requestId k).1) ∧
    ∀ ms t, s₀.run V ms = some t → ∃ ms' t', s₀.run V ms' = some t' ∧ Purged V s₀ s₀ ms ms' ∧
      (s₀.offers V ms').map Offer.asked =
        ((s₀.offers V ms).filter (·.taken)).map Offer.asked ∧
      (∀ o ∈ s₀.offers V ms', o.taken = true) ∧
      t.started.map (·.1) <+: Offer.accepted (s₀.offers V ms) ∧
      t'.started.map (·.1) <+: (s₀.offers V ms').map (·.submission) := by
  constructor
  · exact fun s request requestId k => ⟨s.judges_book request requestId k,
      s.judges_book request requestId k⟩
  · intro ms t hr
    obtain ⟨-, -, rfl⟩ := create_eq_made_iff.1 hc
    have hs := sound_fresh V vendor settings
    obtain ⟨p, hp, hpurged⟩ := exists_purged hs hr
    have hkeeps : (fresh vendor settings).Keeps p := by
      apply Keeps.mk
      case continuation => exact nofun
      case rounds =>
        intro kind r hr
        rw [fresh, Listeners.find?_empty] at hr
        cases hr
      case current => exact hp.current.eq_nil.symm
    obtain ⟨ms', h⟩ := hpurged _ hs rfl hkeeps
    obtain ⟨u, t', hru, hr', -⟩ := h.run
    have hv := h.offers
    have htaken (o : Offer) (ho : o ∈ (fresh vendor settings).offers V ms') : o.taken = true := by
      have hmem := List.mem_map_of_mem (f := Offer.verdict) ho
      rw [hv] at hmem
      obtain ⟨o', ho', he⟩ := List.mem_map.1 hmem
      exact (congrArg Prod.snd he).symm.trans (List.mem_filter.1 ho').2
    refine ⟨ms', t', hr', h, ?_, htaken, ?_, ?_⟩
    · have ha := congrArg (List.map Prod.fst) hv
      rw [List.map_map, List.map_map] at ha
      exact ha
    · rw [← (admits_of_run hr).accepted]
      exact (hs.run hr).accepted_of_started
    · have hall : Offer.accepted ((fresh vendor settings).offers V ms') =
          ((fresh vendor settings).offers V ms').map (·.submission) := by
        rw [Offer.accepted, List.filter_eq_self.2 htaken]
      rw [← hall, ← (admits_of_run hr').accepted]
      exact (hs.run hr').accepted_of_started

def insistent : List Move :=
  [.on .frontConnected ⟨"greeter",
      [(1, [.call (.subscribe .marketData []) none [], .call .apiVersion none []])]⟩,
    .post .frontConnected, .ring, .pump, .pump, .pump, .pump, .pump, .pump, .pump,
    .book (.subscribe .marketData []) none {}, .book .exit none ⟨7, [.call .exit none []]⟩,
    .enqueue, .book .exit none {}, .work, .work, .work, .work, .pump, .pump, .pump, .pump, .pump]

theorem refusals_traceless_of_insistence :
    ∃ t ms' t', (fresh {} {}).run Loopback.vendor insistent = some t ∧ t.isDetached = true ∧
      ((fresh {} {}).offers Loopback.vendor insistent).map (·.taken) =
        [false, true, false, true, false, false] ∧
      (fresh {} {}).run Loopback.vendor ms' = some t' ∧
      Purged Loopback.vendor (fresh {} {}) (fresh {} {}) insistent ms' ∧
      ((fresh {} {}).offers Loopback.vendor ms').map Offer.asked =
        [(.apiVersion, none), (.exit, none)] := by
  obtain ⟨t, hr, hd⟩ := Option.map_eq_some_iff.1
    (rfl : ((fresh {} {}).run Loopback.vendor insistent).map (·.isDetached) = some true)
  obtain ⟨-, hpurged⟩ := refusals_traceless Loopback.vendor {} (create_default _)
  obtain ⟨ms', t', hr', h, ha, -⟩ := hpurged insistent t hr
  exact ⟨t, ms', t', hr, hd, rfl, hr', h, ha⟩

end MarketFeed.Session
