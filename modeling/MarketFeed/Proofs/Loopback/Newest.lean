import MarketFeed.Proofs.Loopback.History
import MarketFeed.Proofs.Vendor.Protocol

namespace MarketFeed.Loopback

open Vendor (Exchange Reply method snoc_eq_append_cons)

variable {hs : List Happening} {x : Happening} {g g' : Loopback} {slot other : Nat}

/-- What is known of a gateway after some operations. -/
structure Kept (hs : List Happening) (g : Loopback) : Prop where
  options : g.options = optionsAfter hs
  opened : hs.filterMap Happening.opened? = List.range g.lines.length
  live (slot : Nat) : g.live = some slot ↔ newest? hs = some slot ∧ ended hs slot = false
  unopened (slot : Nat) (h : g.lines.length ≤ slot) : Unopened slot hs
  stands (slot : Nat) (h : slot < g.lines.length) : Stands slot hs (g.line slot)
  inFlight : g.inFlight = 0
  peak : g.peak = if hs.any Happening.isCall then 1 else 0
  emissions {earlier later : List Happening} {cs : List Callback} {taken : Bool}
    (h : hs = earlier ++ .emitted cs taken :: later) :
    taken = true ↔ ∃ slot, newest? earlier = some slot ∧ ended earlier slot = false

theorem kept_start : Kept [] {} where
  options := rfl
  opened := rfl
  live slot := by
    constructor
    · intro h
      cases h
    · rintro ⟨h, -⟩
      cases h
  unopened _ _ := ⟨rfl, rfl, rfl⟩
  stands _ h := absurd h (Nat.not_lt_zero _)
  inFlight := rfl
  peak := rfl
  emissions h := nomatch List.append_eq_nil_iff.1 h.symm

theorem Kept.newest_lt (h : Kept hs g) (hn : newest? hs = some slot) : slot < g.lines.length := by
  rw [newest?, h.opened] at hn
  exact List.mem_range.1 (List.mem_of_getLast? hn)

theorem Kept.emit_iff (h : Kept hs g) (cs : List Callback) :
    (g.emit cs).1 = true ↔ ∃ slot, newest? hs = some slot ∧ ended hs slot = false := by
  have he : (g.emit cs).1 = true ↔ ∃ slot, g.live = some slot := by
    rw [emit]
    cases g.live <;> simp
  rw [he]
  exact exists_congr h.live

/-- What an operation that opens no line does to a gateway. -/
structure Changes (hs : List Happening) (g : Loopback) (x : Happening) (g' : Loopback) : Prop where
  unopened : x.opened? = none
  options : g'.options = x.options?.getD g.options
  length : g'.lines.length = g.lines.length
  live (slot : Nat) : g'.live = some slot ↔ g.live = some slot ∧ x.ends slot = false
  inFlight : g'.inFlight = g.inFlight
  peak : g'.peak = if x.isCall = true then max g.peak (g.inFlight + 1) else g.peak
  stands {slot : Nat} (hl : slot < g.lines.length) (h : Stands slot hs (g.line slot)) :
    Stands slot (hs ++ [x]) (g'.line slot)
  passesBy {slot : Nat} (hl : g.lines.length ≤ slot) : PassesBy slot hs x
  emission {cs : List Callback} {taken : Bool} (h : x = .emitted cs taken) :
    taken = (g.emit cs).1

theorem Kept.emissions_concat (h : Kept hs g)
    (hx : ∀ {cs taken}, x = .emitted cs taken → taken = (g.emit cs).1)
    {earlier later : List Happening} {cs : List Callback} {taken : Bool}
    (he : hs ++ [x] = earlier ++ .emitted cs taken :: later) :
    taken = true ↔ ∃ slot, newest? earlier = some slot ∧ ended earlier slot = false := by
  rcases snoc_eq_append_cons he with ⟨rfl, rfl⟩ | ⟨rest, hr⟩
  · rw [hx rfl]
    exact h.emit_iff cs
  · exact h.emissions hr

theorem Kept.peak_call (h : Kept hs g) (hx : x.isCall = true) :
    max g.peak (g.inFlight + 1) = if (hs ++ [x]).any Happening.isCall then 1 else 0 := by
  rw [h.peak, h.inFlight, List.any_append, List.any_cons, hx, Bool.true_or, Bool.or_true]
  split <;> rfl

theorem Kept.change (h : Kept hs g) (hc : Changes hs g x g') : Kept (hs ++ [x]) g' where
  options := by
    rw [hc.options, h.options, optionsAfter_concat]
  opened := by
    rw [List.filterMap_append, h.opened, hc.length, List.filterMap_cons_none hc.unopened]
    exact List.append_nil _
  live slot := by
    rw [hc.live, h.live, newest?_concat, hc.unopened, Option.none_or, ended_concat,
      Bool.or_eq_false_iff, and_assoc]
  unopened slot hl := by
    rw [hc.length] at hl
    exact (h.unopened slot hl).passBy (hc.passesBy hl)
  stands slot hl := by
    rw [hc.length] at hl
    exact hc.stands hl (h.stands slot hl)
  inFlight := hc.inFlight.trans h.inFlight
  peak := by
    rw [hc.peak]
    cases hx : x.isCall with
    | true => exact h.peak_call hx
    | false => rw [List.any_append, List.any_cons, hx, h.peak]; simp
  emissions he := h.emissions_concat hc.emission he

theorem Kept.create (h : Kept hs g) (m : String) :
    Kept (hs ++ [.created (.returned (.ok g.lines.length))]) (g.enter m).addLine.leave := by
  have hpass (slot : Nat) : PassesBy slot hs (.created (.returned (.ok g.lines.length))) :=
    ⟨rfl, rfl, rfl⟩
  have hlen : (g.enter m).addLine.leave.lines.length = g.lines.length + 1 :=
    length_lines_addLine (g.enter m)
  apply Kept.mk
  case options => rw [optionsAfter_concat]; exact h.options
  case opened =>
    rw [List.filterMap_append, h.opened, hlen, List.range_succ]
    rfl
  case live =>
    intro slot
    rw [newest?_concat, ended_concat, (hpass slot).ends, Bool.or_false]
    change some g.lines.length = some slot ↔ some g.lines.length = some slot ∧ _
    constructor
    · intro hs
      cases hs
      exact ⟨rfl, (h.unopened _ (Nat.le_refl _)).ended⟩
    · exact And.left
  case unopened =>
    intro slot hl
    rw [hlen] at hl
    exact (h.unopened slot (Nat.le_of_succ_le hl)).passBy (hpass slot)
  case stands =>
    intro slot hl
    rw [hlen] at hl
    rcases Nat.lt_succ_iff_lt_or_eq.1 hl with hl | rfl
    · have hg : (g.enter m).addLine.leave.line slot = g.line slot := line_addLine_of_lt hl
      rw [hg]
      exact (h.stands slot hl).passBy (hpass slot)
    · have hg : (g.enter m).addLine.leave.line g.lines.length = {} := line_addLine (g.enter m)
      rw [hg]
      exact (h.unopened _ (Nat.le_refl _)).stands.passBy (hpass _)
  case inFlight => exact h.inFlight
  case peak => exact h.peak_call rfl
  case emissions =>
    intro earlier later cs taken he
    apply h.emissions_concat ?_ he
    intro cs taken hx
    cases hx

theorem changes_of_passesBy (hx : ∀ slot, PassesBy slot hs x) (hl : g'.lines = g.lines)
    (hlive : g'.live = g.live) (hu : x.opened? = none) (ho : g'.options = x.options?.getD g.options)
    (hi : g'.inFlight = g.inFlight)
    (hp : g'.peak = if x.isCall = true then max g.peak (g.inFlight + 1) else g.peak)
    (he : ∀ {cs taken}, x = .emitted cs taken → taken = (g.emit cs).1) : Changes hs g x g' where
  unopened := hu
  options := ho
  length := congrArg List.length hl
  live slot := by
    rw [hlive, (hx slot).ends, and_iff_left rfl]
  inFlight := hi
  peak := hp
  stands {slot} _ h := by
    have hg : g'.line slot = g.line slot := by rw [line, line, hl]
    rw [hg]
    exact h.passBy (hx slot)
  passesBy {slot} _ := hx slot
  emission := he

theorem changes_configure (options : Options) :
    Changes hs g (.configured options) { g with options := options } := by
  refine changes_of_passesBy (fun _ => ⟨rfl, rfl, rfl⟩) rfl rfl rfl rfl rfl rfl ?_
  intro cs taken he
  cases he

theorem changes_create {reply : Reply (Except String Nat)} (m : String)
    (h : ∀ slot, reply ≠ .returned (.ok slot)) :
    Changes hs g (.created reply) (g.enter m).leave := by
  have hu : Happening.opened? (.created reply) = none := by
    match reply, h with
    | .returned (.ok slot), h => exact absurd rfl (h slot)
    | .returned (.error _), _ => rfl
    | .panicked _, _ => rfl
  refine changes_of_passesBy (fun _ => ⟨rfl, rfl, rfl⟩) rfl rfl hu rfl rfl rfl ?_
  intro cs taken he
  cases he

theorem ends_called {c : Vendor.Call} (reply : Reply c.Answer) (h : c.operation ≠ .exit) :
    Happening.ends slot (.called other ⟨c, reply⟩) = false := by
  cases c with
  | release => exact absurd rfl h
  | _ => rfl

theorem changes_goOn {m : String} {e : Exchange} (hl : slot < g.lines.length)
    (hn : ∀ other, Happening.ends other (.called slot e) = false) (hs' : Spares (g.enter m) g')
    (hx : (g.line slot).fronts = (exchanges hs slot).flatMap registration →
      Extends slot g g'.leave (registration e) (block (optionsAfter hs) (exchanges hs slot) e))
    (hxo : ∀ {other}, other < g.lines.length → slot ≠ other → Extends other g g'.leave [] []) :
    Changes hs g (.called slot e) g'.leave := by
  apply Changes.mk
  case unopened => rfl
  case options => exact hs'.options
  case length => exact hs'.length
  case live =>
    intro other
    rw [hn, and_iff_left rfl]
    exact Eq.congr_left hs'.live
  case inFlight => exact congrArg (· - 1) hs'.inFlight
  case peak => exact hs'.peak
  case stands =>
    intro other hl' h
    by_cases hne : slot = other
    · subst hne
      exact h.call (hn slot) hx hs'.finished
    · exact (h.keep (hxo hl' hne) hs'.finished).passBy (passesBy_called hne e)
  case passesBy =>
    intro other hl'
    exact passesBy_called (Nat.ne_of_lt (Nat.lt_of_lt_of_le hl hl')) e
  case emission =>
    intro cs taken h
    cases h

theorem changes_call (ho : g.options = optionsAfter hs) (hl : slot < g.lines.length)
    {c : Vendor.Call} (hc : c.operation ≠ .create) (hr : c.operation ≠ .exit) :
    Changes hs g (.called slot ⟨c, (g.serve slot c).1⟩) (g.serve slot c).2 := by
  obtain ⟨m, g', hs', he⟩ := exists_serve_eq (g := g) slot hc hr
  rw [he]
  apply changes_goOn hl (fun _ => ends_called _ hr) hs'
  · intro hfr
    rw [← ho, ← he]
    exact extends_serve hl hfr hc hr
  · intro other hl' hne
    rw [← he]
    exact extends_serve_elsewhere hl' hne c

theorem changes_release (hl : slot < g.lines.length) :
    Changes hs g (.called slot ⟨.release, (g.release slot).1⟩) (g.release slot).2 := by
  rcases release_cases g slot with ⟨⟨p, hr⟩, he⟩ | ⟨hr, g', hs', he⟩
  · rw [hr, he]
    apply changes_goOn hl (fun _ => rfl) .refl
    · intro _
      rw [registration_of_panic, block_of_panic]
      exact (extends_enter hl (method .exit)).trans (extends_leave hl)
    · intro other hl' _
      exact (extends_enter hl' (method .exit)).trans (extends_leave hl')
  · rw [hr, he]
    apply Changes.mk
    case unopened => rfl
    case options => exact hs'.options
    case length => exact hs'.length
    case live =>
      intro other
      rw [Happening.ends, beq_eq_false_iff_ne, ne_comm]
      exact hs'.live other
    case inFlight => exact congrArg (· - 1) hs'.inFlight
    case peak => exact hs'.peak
    case stands =>
      intro other hl' h
      by_cases hne : slot = other
      · subst hne
        have hp : portion slot hs (.called slot ⟨.release, .returned ()⟩) = [] := ite_self _
        change Stands slot _ (g'.line slot)
        exact Stands.finish (g := g.enter (method .exit)) h hl (beq_self_eq_true slot) hp hs'
      · change Stands other _ (g'.line other)
        rw [hs'.elsewhere (Ne.symm hne)]
        exact h.passBy (passesBy_called hne _)
    case passesBy =>
      intro other hl'
      exact passesBy_called (Nat.ne_of_lt (Nat.lt_of_lt_of_le hl hl')) _
    case emission =>
      intro cs taken h
      cases h

theorem changes_drop (hl : slot < g.lines.length) :
    Changes hs g (.dropped slot) (g.drop slot) := by
  have hs' : Ends slot g (g.drop slot) := ends_stopCallbacks slot
  have hpass {other : Nat} (h : slot ≠ other) : PassesBy other hs (.dropped slot) :=
    ⟨beq_false_of_ne h, rfl, rfl⟩
  apply Changes.mk
  case unopened => rfl
  case options => exact hs'.options
  case length => exact hs'.length
  case live =>
    intro other
    rw [Happening.ends, beq_eq_false_iff_ne, ne_comm]
    exact hs'.live other
  case inFlight => exact hs'.inFlight
  case peak => exact hs'.peak
  case stands =>
    intro other hl' h
    by_cases hne : slot = other
    · subst hne
      exact h.finish hl (beq_self_eq_true slot) rfl hs'
    · rw [hs'.elsewhere (Ne.symm hne)]
      exact h.passBy (hpass hne)
  case passesBy => exact fun h => hpass (Nat.ne_of_lt (Nat.lt_of_lt_of_le hl h))
  case emission =>
    intro cs taken h
    cases h

theorem Kept.changes_emit (h : Kept hs g) (cs : List Callback) :
    Changes hs g (.emitted cs (g.emit cs).1) (g.emit cs).2 := by
  rw [emit]
  cases hlive : g.live with
  | none =>
    refine changes_of_passesBy (fun _ => ⟨rfl, rfl, rfl⟩) rfl rfl rfl rfl rfl rfl ?_
    intro cs taken he
    cases he
    rw [emit, hlive]
  | some slot =>
    obtain ⟨hn, hopen⟩ := (h.live slot).1 hlive
    have hl := h.newest_lt hn
    have hsp : Spares g (g.push slot cs) := spares_push slot cs
    have hpass {other : Nat} (hne : slot ≠ other) : PassesBy other hs (.emitted cs true) :=
      passesBy_emitted fun _ ho => hne (Option.some.inj (hn.symm.trans ho))
    apply Changes.mk
    case unopened => rfl
    case options => rfl
    case length => exact hsp.length
    case live => exact fun _ => (and_iff_left rfl).symm
    case inFlight => rfl
    case peak => rfl
    case stands =>
      intro other hl' hst
      by_cases hne : slot = other
      · subst hne
        cases hst with
        | atWork _ hw =>
          refine .atWork ?_ (hw.extend (extends_push hl cs) rfl (if_pos hn))
          rw [ended_concat, hopen]
          rfl
        | finished he _ => cases hopen.symm.trans he
      · exact (hst.keep (extends_modifyLine_of_ne hl' hne _) hsp.finished).passBy (hpass hne)
    case passesBy => exact fun hl' => hpass (Nat.ne_of_lt (Nat.lt_of_lt_of_le hl hl'))
    case emission =>
      intro cs taken he
      cases he
      rw [emit, hlive]

theorem Kept.raise {l : Line} (h : Kept hs g) (hl : slot < g.lines.length)
    (ha : (g.line slot).advance? = some l) : Kept hs (g.modifyLine slot fun _ => l) := by
  have hlen := length_lines_modifyLine (g := g) slot fun _ => l
  refine ⟨h.options, hlen ▸ h.opened, h.live, ?_, ?_, h.inFlight, h.peak, h.emissions⟩
  · intro other hl'
    rw [hlen] at hl'
    exact h.unopened other hl'
  · intro other hl'
    rw [hlen] at hl'
    by_cases hne : slot = other
    · subst hne
      have hst := h.stands slot hl
      cases hst with
      | atWork _ hw =>
        apply (h.stands slot hl).keep (extends_raise hl hw.unstopped ha)
        intro cs hf
        cases hw.running.symm.trans hf.running
      | finished _ hf =>
        rw [Line.advance?, hf.running] at ha
        cases ha
    · rw [line_modifyLine_of_ne hne]
      exact h.stands other hl'

theorem kept_of_course (h : Course hs g) : Kept hs g := by
  induction h with
  | start => exact kept_start
  | configure _ options ih => exact ih.change (changes_configure options)
  | @create hs g g' reply _ hc ih =>
    rcases create_cases g with ⟨hn, he⟩ | ⟨hr, he⟩
    · rw [hc] at hn he
      rw [show g' = _ from he]
      exact ih.change (changes_create _ hn)
    · rw [hc] at hr he
      rw [show reply = _ from hr, show g' = _ from he]
      exact ih.create _
  | @call hs g g' slot _ hl c reply hc he ih =>
    have hg : g' = (g.serve slot c).2 := by rw [he]
    have hr : reply = (g.serve slot c).1 := by rw [he]
    subst hg hr
    by_cases hx : c.operation = .exit
    · cases c with
      | release => exact ih.change (changes_release hl)
      | _ => cases hx
    · exact ih.change (changes_call ih.options hl hc hx)
  | drop _ hl ih => exact ih.change (changes_drop hl)
  | @emit hs g g' taken _ cs he ih =>
    have hch := ih.changes_emit cs
    rw [he] at hch
    exact ih.change hch
  | raise _ hl ha ih => exact ih.raise hl ha

/-- How a gateway serves the sessions that share it. What is emitted is taken if the newest session
has neither been released nor dropped, and is then sent once, to that session and to no other. What
was sent is raised in order, and all of it when the session has been released or dropped; the end of
another session changes nothing for the newest. -/
structure ServesNewest (hs : List Happening) (g : Loopback) : Prop where
  emits (cs : List Callback) :
    (g.emit cs).1 = true ↔ ∃ slot, newest? hs = some slot ∧ ended hs slot = false
  taken {earlier later : List Happening} {cs : List Callback} {taken : Bool}
    (h : hs = earlier ++ .emitted cs taken :: later) :
    taken = true ↔ ∃ slot, newest? earlier = some slot ∧ ended earlier slot = false
  delivered {earlier later : List Happening} {cs : List Callback}
    (h : hs = earlier ++ .emitted cs true :: later) :
    ∃ slot, newest? earlier = some slot ∧
      (∃ rest, sent slot hs = sent slot earlier ++ cs ++ rest) ∧
      ∀ other, other ≠ slot → sent other (earlier ++ [.emitted cs true]) = sent other earlier
  raised {slot : Nat} (h : slot ∈ hs.filterMap Happening.opened?) :
    (g.line slot).raised <+: sent slot hs
  complete {slot : Nat} (h : slot ∈ hs.filterMap Happening.opened?)
    (he : ended hs slot = true) : (g.line slot).raised = sent slot hs
  elsewhere {slot other : Nat} (h : newest? hs = some slot) (ho : other ≠ slot) :
    (g.drop other).line slot = g.line slot ∧
      ((g.drop other).live = some slot ↔ g.live = some slot) ∧
      (g.release other).2.line slot = g.line slot ∧
      ((g.release other).2.live = some slot ↔ g.live = some slot)
  inFlight : g.inFlight = 0
  peak : g.peak = if hs.any Happening.isCall then 1 else 0

theorem Kept.delivered (h : Kept hs g) {earlier later : List Happening} {cs : List Callback}
    (he : hs = earlier ++ .emitted cs true :: later) :
    ∃ slot, newest? earlier = some slot ∧
      (∃ rest, sent slot hs = sent slot earlier ++ cs ++ rest) ∧
      ∀ other, other ≠ slot → sent other (earlier ++ [.emitted cs true]) = sent other earlier := by
  obtain ⟨slot, hn, -⟩ := (h.emissions he).1 rfl
  refine ⟨slot, hn, ?_, ?_⟩
  · obtain ⟨rest, hr⟩ := sent_append slot (earlier ++ [.emitted cs true]) later
    have hp : portion slot earlier (.emitted cs true) = cs := if_pos hn
    refine ⟨rest, ?_⟩
    rw [he, List.append_cons, hr, sent_concat, hp]
  · intro other ho
    have hp : portion other earlier (.emitted cs true) = [] :=
      if_neg fun hn' => ho (Option.some.inj (hn'.symm.trans hn))
    rw [sent_concat, hp, List.append_nil]

theorem release_elsewhere (g : Loopback) (ho : other ≠ slot) :
    (g.release other).2.line slot = g.line slot ∧
      ((g.release other).2.live = some slot ↔ g.live = some slot) := by
  rcases release_cases g other with ⟨-, he⟩ | ⟨-, g', hs, he⟩
  · rw [he]
    exact ⟨rfl, Iff.rfl⟩
  · rw [he]
    exact ⟨hs.elsewhere (Ne.symm ho), (hs.live slot).trans (and_iff_left (Ne.symm ho))⟩

/-- A gateway that sessions share always talks to the newest of them. -/
theorem servesNewest (h : Course hs g) : ServesNewest hs g := by
  have hk := kept_of_course h
  have hopen {slot : Nat} (hm : slot ∈ hs.filterMap Happening.opened?) :
      Stands slot hs (g.line slot) := by
    rw [hk.opened, List.mem_range] at hm
    exact hk.stands slot hm
  apply ServesNewest.mk
  case emits => exact hk.emit_iff
  case taken => exact hk.emissions
  case delivered => exact hk.delivered
  case raised => exact fun hm => (hopen hm).prefix_sent
  case complete =>
    intro slot hm he
    cases hopen hm with
    | atWork hn _ => cases hn.symm.trans he
    | finished _ hf => exact hf.raised
  case elsewhere =>
    intro slot other _ ho
    have hd : Ends other g (g.drop other) := ends_stopCallbacks other
    exact ⟨hd.elsewhere (Ne.symm ho), (hd.live slot).trans (and_iff_left (Ne.symm ho)),
      release_elsewhere g ho⟩
  case inFlight => exact hk.inFlight
  case peak => exact hk.peak

/-- Two sessions at a gateway whose releases panic. The older one is dropped and the newer one goes on;
it is not even ended by its release, but then it is dropped. -/
theorem servesNewest_of_broken_release :
    ∃ hs g, Course hs g ∧ hs.filterMap Happening.opened? = [0, 1] ∧ ended hs 1 = true ∧
      (g.line 1).raised = [.frontConnected, .heartbeatWarning 3] ∧ g.inFlight = 0 ∧ g.peak = 1 := by
  have h₁ := Course.start.configure { panicOn := some "release" }
  have h₂ := (h₁.create rfl).create rfl
  have h₃ := h₂.emit [.frontConnected] rfl
  have h₄ := h₃.drop (Nat.zero_lt_two : 0 < 2)
  have h₅ := h₄.call (Nat.one_lt_two : 1 < 2) .release _ (by decide) rfl
  have h₆ := h₅.emit [.heartbeatWarning 3] rfl
  have h₇ := h₆.drop (Nat.one_lt_two : 1 < 2)
  have hs := servesNewest h₇
  exact ⟨_, _, h₇, rfl, rfl, (hs.complete (by decide) rfl).trans rfl, hs.inFlight, hs.peak⟩

end MarketFeed.Loopback
