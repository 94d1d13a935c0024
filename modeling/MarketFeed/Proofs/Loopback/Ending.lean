import MarketFeed.Proofs.Loopback.Line

namespace MarketFeed.Loopback

open Vendor (Reply method)

/-- A line whose thread was ended, and what it has raised. -/
structure Line.Finished (l : Line) (cs : List Callback) : Prop where
  running : l.running = false
  joined : l.joined = true
  raised : l.raised = cs

/-- What requests do to a gateway: they register addresses, connect lines and push callbacks. -/
structure Spares (g g' : Loopback) : Prop where
  options : g'.options = g.options
  live : g'.live = g.live
  inFlight : g'.inFlight = g.inFlight
  peak : g'.peak = g.peak
  length : g'.lines.length = g.lines.length
  finished {slot : Nat} {cs : List Callback} (h : (g.line slot).Finished cs) :
    (g'.line slot).Finished cs

structure Ends (slot : Nat) (g g' : Loopback) : Prop where
  options : g'.options = g.options
  live (other : Nat) : g'.live = some other ↔ g.live = some other ∧ other ≠ slot
  inFlight : g'.inFlight = g.inFlight
  peak : g'.peak = g.peak
  length : g'.lines.length = g.lines.length
  elsewhere {other : Nat} (h : other ≠ slot) : g'.line other = g.line other
  again {cs : List Callback} (h : (g.line slot).Finished cs) : (g'.line slot).Finished cs
  finished (h : slot < g.lines.length) (hr : (g.line slot).running = true)
    (hj : (g.line slot).joined = false) (hs : .stop ∉ (g.line slot).queue) :
    (g'.line slot).Finished (g.line slot).promised

variable {g g' g'' : Loopback} {slot other : Nat} {cs : List Callback} {f : Line → Line}

theorem lt_of_finished (h : (g.line slot).Finished cs) : slot < g.lines.length := by
  rw [← Nat.not_le]
  intro hl
  have hj := h.joined
  rw [line, List.getElem?_eq_none hl] at hj
  cases hj

theorem finished_modifyLine (hf : ∀ {l cs}, l.Finished cs → (f l).Finished cs)
    (h : (g.line slot).Finished cs) : ((g.modifyLine other f).line slot).Finished cs := by
  by_cases ho : other = slot
  · subst ho
    rw [line_modifyLine (lt_of_finished h)]
    exact hf h
  · rw [line_modifyLine_of_ne ho]
    exact h

theorem Spares.refl : Spares g g := ⟨rfl, rfl, rfl, rfl, rfl, id⟩

theorem Spares.trans (h : Spares g g') (h' : Spares g' g'') : Spares g g'' where
  options := h'.options.trans h.options
  live := h'.live.trans h.live
  inFlight := h'.inFlight.trans h.inFlight
  peak := h'.peak.trans h.peak
  length := h'.length.trans h.length
  finished hf := h'.finished (h.finished hf)

theorem spares_modifyLine (slot : Nat) (hf : ∀ {l cs}, l.Finished cs → (f l).Finished cs) :
    Spares g (g.modifyLine slot f) :=
  ⟨rfl, rfl, rfl, rfl, length_lines_modifyLine slot f, finished_modifyLine hf⟩

theorem spares_push (slot : Nat) (cs : List Callback) : Spares g (g.push slot cs) :=
  spares_modifyLine slot fun h => ⟨h.running, h.joined, h.raised⟩

theorem spares_pushes (slot : Nat) (css : List (List Callback)) :
    Spares g (css.foldl (push · slot) g) := by
  induction css generalizing g with
  | nil => exact .refl
  | cons cs css ih => exact (spares_push slot cs).trans ih

theorem spares_ifConnected (slot : Nat) (css : List (List Callback)) :
    Spares g (g.ifConnected slot css).2 := by
  unfold ifConnected
  cases (g.line slot).connected with
  | true => exact spares_pushes slot css
  | false => exact .refl

theorem spares_addFront (slot : Nat) (address : String) : Spares g (addFront slot address g).2 :=
  spares_modifyLine slot fun h => ⟨h.running, h.joined, h.raised⟩

theorem spares_start (slot : Nat) : Spares g (start slot g).2 := by
  unfold start
  split
  · exact .refl
  · have hc : Spares g (g.modifyLine slot fun l => { l with connected := true }) :=
      spares_modifyLine slot fun h => ⟨h.running, h.joined, h.raised⟩
    exact hc.trans (spares_push slot _)

theorem spares_login (slot : Nat) (r : LoginRequest) (requestId : Int32) :
    Spares g (login slot r requestId g).2 := by
  unfold login
  split
  · exact .refl
  · exact spares_ifConnected slot _

/-- A call panics at once, or does what its body does. -/
theorem guarded_eq {α : Type} (method : String) (g : Loopback) (body : Loopback → α × Loopback) :
    (∃ p, g.guarded method body = (.panicked p, (g.enter method).leave)) ∨
      g.guarded method body =
        (.returned (body (g.enter method)).1, (body (g.enter method)).2.leave) := by
  unfold guarded
  by_cases hp : (g.enter method).options.panicOn = some method
  · exact .inl ⟨_, if_pos hp⟩
  · exact .inr (if_neg hp)

theorem exists_guarded_eq {α : Type} {method : String} {body : Loopback → α × Loopback}
    (hb : Spares (g.enter method) (body (g.enter method)).2) :
    ∃ m g', Spares (g.enter m) g' ∧ (g.guarded method body).2 = g'.leave := by
  rcases guarded_eq method g body with ⟨p, he⟩ | he
  · rw [he]
    exact ⟨method, _, .refl, rfl⟩
  · rw [he]
    exact ⟨method, _, hb, rfl⟩

theorem exists_serve_eq (slot : Nat) {c : Vendor.Call} (hc : c.operation ≠ .create)
    (hr : c.operation ≠ .exit) :
    ∃ m g', Spares (g.enter m) g' ∧ (g.serve slot c).2 = g'.leave := by
  cases c with
  | create flowDir => exact absurd rfl hc
  | release => exact absurd rfl hr
  | apiVersion | tradingDay | registerUser user => exact exists_guarded_eq .refl
  | init => exact exists_guarded_eq (spares_start slot)
  | registerFront address | registerNameServer address =>
    exact exists_guarded_eq (spares_addFront slot address)
  | subscribe feed ids | unsubscribe feed ids | logout user requestId =>
    exact exists_guarded_eq (spares_ifConnected slot _)
  | login r requestId => exact exists_guarded_eq (spares_login slot r requestId)

def addLine (g : Loopback) : Loopback :=
  { g with lines := g.lines ++ [{}], live := some g.lines.length, created := g.created + 1 }

theorem length_lines_addLine (g : Loopback) : g.addLine.lines.length = g.lines.length + 1 :=
  List.length_append

theorem line_addLine (g : Loopback) : g.addLine.line g.lines.length = {} := by
  rw [line, addLine, List.getElem?_concat_length]
  rfl

theorem line_addLine_of_lt (h : slot < g.lines.length) : g.addLine.line slot = g.line slot := by
  rw [line, line, addLine, List.getElem?_append_left h]

theorem create_cases (g : Loopback) :
    ((∀ slot, g.create.1 ≠ .returned (.ok slot)) ∧
        g.create.2 = (g.enter (method .create)).leave) ∨
      (g.create.1 = .returned (.ok g.lines.length) ∧
        g.create.2 = (g.enter (method .create)).addLine.leave) := by
  unfold create
  rcases guarded_eq (method .create) g _ with ⟨p, he⟩ | he
  · rw [he]
    exact .inl ⟨(fun _ h => nomatch h), rfl⟩
  · rw [he]
    rcases hc : (g.enter (method .create)).options.createError with _ | reason
    · exact .inr ⟨rfl, rfl⟩
    · exact .inl ⟨(fun _ h => nomatch h), rfl⟩

theorem clearLive_eq (g : Loopback) (slot : Nat) :
    ∃ live, g.clearLive slot = { g with live := live } ∧
      ∀ other, live = some other ↔ g.live = some other ∧ other ≠ slot := by
  unfold clearLive
  by_cases hl : g.live = some slot
  · rw [if_pos hl]
    refine ⟨none, rfl, fun other => ?_⟩
    rw [hl]
    constructor
    · intro h
      cases h
    · rintro ⟨h, hne⟩
      cases h
      exact absurd rfl hne
  · rw [if_neg hl]
    refine ⟨g.live, rfl, fun other => ?_⟩
    constructor
    · intro h
      refine ⟨h, ?_⟩
      rintro rfl
      exact hl h
    · exact And.left

theorem ends_stopCallbacks (slot : Nat) : Ends slot g (g.stopCallbacks slot) := by
  rw [stopCallbacks]
  cases hj : (g.line slot).joined with
  | true =>
    obtain ⟨live, he, hlive⟩ := clearLive_eq g slot
    simp only [if_true]
    rw [he]
    exact ⟨rfl, hlive, rfl, rfl, rfl, fun _ => rfl, id, fun _ _ hf => by cases hj.symm.trans hf⟩
  | false =>
    obtain ⟨live, he, hlive⟩ := clearLive_eq ((g.pushStop slot).join slot) slot
    simp only [Bool.false_eq_true, if_false]
    rw [he]
    have hlen : ((g.pushStop slot).join slot).lines.length = g.lines.length := by
      rw [join, length_lines_modifyLine, pushStop, length_lines_modifyLine]
    apply Ends.mk
    case options => rfl
    case live => exact hlive
    case inFlight => rfl
    case peak => rfl
    case length => exact hlen
    case elsewhere =>
      intro other ho
      change ((g.pushStop slot).join slot).line other = _
      rw [join, line_modifyLine_of_ne (Ne.symm ho), pushStop, line_modifyLine_of_ne (Ne.symm ho)]
    case again =>
      intro cs h
      cases hj.symm.trans h.joined
    case finished =>
      intro h hr _ hs
      change (((g.pushStop slot).join slot).line slot).Finished _
      rw [join, line_modifyLine (by rwa [pushStop, length_lines_modifyLine]), pushStop,
        line_modifyLine h]
      have hset := Line.settle_of_told (l := { (g.line slot).push .stop with joined := true }) hr
        rfl hs
      have hp := (g.line slot).promised_push .stop
      rw [hset]
      exact ⟨rfl, rfl, hp.trans (List.append_nil _)⟩

/-- A release panics and does nothing more, or ends the thread of its line. -/
theorem release_cases (g : Loopback) (slot : Nat) :
    ((∃ p, (g.release slot).1 = .panicked p) ∧
        (g.release slot).2 = (g.enter (method .exit)).leave) ∨
      ((g.release slot).1 = .returned () ∧
        ∃ g', Ends slot (g.enter (method .exit)) g' ∧ (g.release slot).2 = g'.leave) := by
  unfold release
  rcases guarded_eq (method .exit) g _ with ⟨p, he⟩ | he
  · rw [he]
    exact .inl ⟨⟨p, rfl⟩, rfl⟩
  · rw [he]
    refine .inr ⟨rfl, _, ?_, rfl⟩
    have hs := ends_stopCallbacks (g := g.enter (method .exit)) slot
    have hf {l : Line} {cs : List Callback} (h : l.Finished cs) :
        ({ l with connected := false } : Line).Finished cs := ⟨h.running, h.joined, h.raised⟩
    apply Ends.mk
    case options => exact hs.options
    case live => exact hs.live
    case inFlight => exact hs.inFlight
    case peak => exact hs.peak
    case length => exact (length_lines_modifyLine slot _).trans hs.length
    case elsewhere => exact fun ho => (line_modifyLine_of_ne (Ne.symm ho) _).trans (hs.elsewhere ho)
    case again => exact fun h => finished_modifyLine hf (hs.again h)
    case finished => exact fun h hr hj hq => finished_modifyLine hf (hs.finished h hr hj hq)

end MarketFeed.Loopback
