import MarketFeed.Proofs.Loopback.Block

namespace MarketFeed

open Vendor (Exchange Reply)

namespace Loopback

def stream (options : Options) (es : List Exchange) : List Callback :=
  (es.mapIdx fun i e => block options (es.take i) e).flatten

theorem mapIdx_take_concat {α β : Type} (f : List α → α → β) (as : List α) (a : α) :
    ((as ++ [a]).mapIdx fun i b => f ((as ++ [a]).take i) b) =
      (as.mapIdx fun i b => f (as.take i) b) ++ [f as a] := by
  have h : (as.mapIdx fun i b => f ((as ++ [a]).take i) b) =
      as.mapIdx fun i b => f (as.take i) b := by
    rw [List.mapIdx_eq_mapIdx_iff]
    intro i hi
    rw [List.take_append_of_le_length (Nat.le_of_lt hi)]
  rw [List.mapIdx_concat, h, List.take_left]

theorem stream_concat (options : Options) (es : List Exchange) (e : Exchange) :
    stream options (es ++ [e]) = stream options es ++ block options es e := by
  rw [stream, mapIdx_take_concat (block options), List.flatten_append, List.flatten_singleton]
  rfl

variable {slot : Nat} {g g' : Loopback} {es : List Exchange}

section
variable {other : Nat}

theorem extends_pushes_elsewhere (h : slot < g.lines.length) (ho : other ≠ slot)
    (css : List (List Callback)) : Extends slot g (css.foldl (push · other) g) [] [] := by
  induction css generalizing g with
  | nil => exact .refl h
  | cons cs css ih =>
    have hp : Extends slot g (g.push other cs) [] [] := extends_modifyLine_of_ne h ho _
    exact hp.trans (ih hp.opened)

theorem extends_ifConnected_elsewhere (h : slot < g.lines.length) (ho : other ≠ slot)
    (css : List (List Callback)) : Extends slot g (g.ifConnected other css).2 [] [] := by
  unfold ifConnected
  cases (g.line other).connected with
  | true => exact extends_pushes_elsewhere h ho css
  | false => exact .refl h

theorem extends_of_ends (h : slot < g.lines.length) (ho : other ≠ slot) (he : Ends other g g') :
    Extends slot g g' [] [] :=
  .of_line_eq he.options (he.length ▸ h) (he.elsewhere (Ne.symm ho))

theorem extends_drop_elsewhere (h : slot < g.lines.length) (ho : other ≠ slot) :
    Extends slot g (g.drop other) [] [] := extends_of_ends h ho (ends_stopCallbacks other)

theorem extends_guarded_elsewhere {α : Type} {method : String} {body : Loopback → α × Loopback}
    (h : slot < g.lines.length)
    (hb : Extends slot (g.enter method) (body (g.enter method)).2 [] []) :
    Extends slot g (g.guarded method body).2 [] [] := by
  rcases guarded_eq method g body with ⟨p, he⟩ | he
  · rw [he]
    exact (extends_enter h method).trans (extends_leave h)
  · rw [he]
    exact ((extends_enter h method).trans hb).trans (extends_leave hb.opened)

theorem extends_create (h : slot < g.lines.length) : Extends slot g g.create.2 [] [] := by
  rcases create_cases g with ⟨-, he⟩ | ⟨-, he⟩
  · rw [he]
    exact .of_line_eq rfl h rfl
  · rw [he]
    refine .of_line_eq rfl ?_ ?_
    · exact Nat.lt_of_lt_of_eq (Nat.lt_succ_of_lt h) (length_lines_addLine _).symm
    · exact line_addLine_of_lt h

theorem extends_release_elsewhere (h : slot < g.lines.length) (ho : other ≠ slot) :
    Extends slot g (g.release other).2 [] [] := by
  have henter := extends_enter h (Vendor.method .exit)
  rcases release_cases g other with ⟨-, he⟩ | ⟨-, g', hs, he⟩
  · rw [he]
    exact henter.trans (extends_leave h)
  · have hends := extends_of_ends henter.opened ho hs
    rw [he]
    exact (henter.trans hends).trans (extends_leave hends.opened)

theorem extends_serve_elsewhere (h : slot < g.lines.length) (ho : other ≠ slot) (c : Vendor.Call) :
    Extends slot g (g.serve other c).2 [] [] := by
  have hg (method : String) : slot < (g.enter method).lines.length := h
  cases c with
  | create flowDir =>
    have hs : (g.serve other (.create flowDir)).2 = g.create.2 := by
      rw [serve]
      rcases g.create with ⟨(_ | _) | _, _⟩ <;> rfl
    rw [hs]
    exact extends_create h
  | release => exact extends_release_elsewhere h ho
  | apiVersion => exact extends_guarded_elsewhere h (.refl (hg _))
  | tradingDay => exact extends_guarded_elsewhere h (.refl (hg _))
  | registerUser user => exact extends_guarded_elsewhere h (.refl (hg _))
  | init =>
    apply extends_guarded_elsewhere h
    unfold start
    split
    · exact .refl (hg _)
    · have hm := extends_modifyLine_of_ne (hg (Vendor.method .init)) ho
        fun l => { l with connected := true }
      exact hm.trans (extends_modifyLine_of_ne hm.opened ho _)
  | registerFront address =>
    exact extends_guarded_elsewhere h (extends_modifyLine_of_ne (hg _) ho _)
  | registerNameServer address =>
    exact extends_guarded_elsewhere h (extends_modifyLine_of_ne (hg _) ho _)
  | subscribe feed ids =>
    exact extends_guarded_elsewhere h (extends_ifConnected_elsewhere (hg _) ho _)
  | unsubscribe feed ids =>
    exact extends_guarded_elsewhere h (extends_ifConnected_elsewhere (hg _) ho _)
  | login r requestId =>
    apply extends_guarded_elsewhere h
    unfold login
    split
    · exact .refl (hg _)
    · exact extends_ifConnected_elsewhere (hg _) ho _
  | logout user requestId =>
    exact extends_guarded_elsewhere h (extends_ifConnected_elsewhere (hg _) ho _)

end

/-- A line in use: it has registered and promised what the exchanges with its session say, and its
thread has not been told to stop. -/
structure InUse (slot : Nat) (es : List Exchange) (g : Loopback) : Prop where
  opened : slot < g.lines.length
  running : (g.line slot).running = true
  joined : (g.line slot).joined = false
  unstopped : .stop ∉ (g.line slot).queue
  fronts : (g.line slot).fronts = es.flatMap registration
  promised : (g.line slot).promised = stream g.options es

theorem InUse.quiet (h : InUse slot es g) (he : Extends slot g g' [] []) : InUse slot es g' := by
  apply InUse.mk
  case opened => exact he.opened
  case running => exact he.running.trans h.running
  case joined => exact he.joined.trans h.joined
  case unstopped => exact he.unstopped h.unstopped
  case fronts => rw [he.fronts, List.append_nil, h.fronts]
  case promised => rw [he.promised, List.append_nil, h.promised, he.options]

theorem InUse.call (h : InUse slot es g) {e : Exchange}
    (he : Extends slot g g' (registration e) (block g.options es e)) :
    InUse slot (es ++ [e]) g' := by
  apply InUse.mk
  case opened => exact he.opened
  case running => exact he.running.trans h.running
  case joined => exact he.joined.trans h.joined
  case unstopped => exact he.unstopped h.unstopped
  case fronts => rw [he.fronts, h.fronts, List.flatMap_append, List.flatMap_singleton]
  case promised => rw [he.promised, h.promised, he.options, stream_concat]

theorem inUse_of_create {g₀ : Loopback} (flowDir : String)
    (h : g₀.create = (.returned (.ok slot), g)) :
    InUse slot [⟨.create flowDir, .returned (.ok ())⟩] g := by
  rcases create_cases g₀ with ⟨hn, -⟩ | ⟨hr, he⟩
  · exact absurd (congrArg Prod.fst h) (hn slot)
  · rw [h] at hr he
    cases hr
    change g = _ at he
    have hg : g.line g₀.lines.length = {} := he ▸ line_addLine (g₀.enter (Vendor.method .create))
    apply InUse.mk
    case opened => rw [he]; exact Nat.lt_of_lt_of_eq (Nat.lt_add_one _) (length_lines_addLine _).symm
    case running => rw [hg]
    case joined => rw [hg]
    case unstopped => rw [hg]; exact List.not_mem_nil
    case fronts => rw [hg]; rfl
    case promised => rw [hg]; rfl

theorem inUse_of_serving (h : Serving slot es g) : InUse slot es g := by
  induction h with
  | create flowDir h => exact inUse_of_create flowDir h
  | call _ c reply hc hr hs ih =>
    have he := extends_serve ih.opened ih.fronts hc hr
    rw [hs] at he
    exact ih.call he
  | raise _ ha ih => exact ih.quiet (extends_raise ih.opened ih.unstopped ha)
  | callElsewhere _ ho c ih => exact ih.quiet (extends_serve_elsewhere ih.opened ho c)
  | raiseElsewhere _ ho _ ih => exact ih.quiet (extends_modifyLine_of_ne ih.opened ho _)
  | dropElsewhere _ ho ih => exact ih.quiet (extends_drop_elsewhere ih.opened ho)

/-- Ending the thread of a line brings out all that was promised. -/
theorem raised_stopCallbacks (h : InUse slot es g) :
    slot < (g.stopCallbacks slot).lines.length ∧
      ((g.stopCallbacks slot).line slot).raised = stream g.options es := by
  have he := ends_stopCallbacks (g := g) slot
  constructor
  · rw [he.length]
    exact h.opened
  · rw [← h.promised]
    exact (he.finished h.opened h.running h.joined h.unstopped).raised

/-- When the release of a session has returned, its sink has received the blocks of all calls on
it, one after the other. -/
theorem raised_eq_stream (h : Serving slot es g) (hr : g.release slot = (.returned (), g')) :
    (g'.line slot).raised = stream g.options (es ++ [⟨.release, .returned ()⟩]) := by
  have hu : InUse slot es (g.enter (Vendor.method .exit)) :=
    (inUse_of_serving h).quiet (extends_enter (inUse_of_serving h).opened _)
  obtain ⟨hl, hs⟩ := raised_stopCallbacks hu
  unfold release at hr
  rcases guarded_eq (Vendor.method .exit) g _ with ⟨p, he⟩ | he
  · rw [he] at hr
    cases hr
  · rw [he] at hr
    cases hr
    rw [stream_concat]
    change ((((g.enter (Vendor.method .exit)).stopCallbacks slot).modifyLine slot
      fun l => { l with connected := false }).line slot).raised = stream g.options es ++ []
    rw [line_modifyLine hl, List.append_nil]
    exact hs

theorem raised_eq_stream_of_late_front :
    ∃ es g g', Serving 0 es g ∧ g.release 0 = (.returned (), g') ∧
      es.map (fun e => e.call.operation) = [.create, .init, .registerFront, .tradingDay, .init,
        .login, .subscribe .marketData] ∧
      (g'.line 0).raised = [.frontConnected,
        .login
          (some
            { tradingDay := "20240105", loginTime := "09:00:00", brokerId := "9999",
              userId := "u", systemName := "SimNow", frontId := 1, sessionId := 42,
              maxOrderRef := "1" })
          ⟨none, 7, true⟩,
        .subscribed .marketData (some ⟨"IF2401"⟩) ⟨none, 0, false⟩,
        .subscribed .marketData (some ⟨"IF2402"⟩) ⟨none, 0, true⟩,
        .tick (sampleTick "IF2401" 3500.0), .tick (sampleTick "IF2402" 3500.0)] := by
  let g₀ : Loopback := { options := { panicOn := some "trading_day" } }
  have hc : g₀.create = (.returned (.ok 0), g₀.create.2) := rfl
  have h₀ := Serving.create "flow" hc
  have h₁ := h₀.call .init _ (by decide) (by decide) rfl
  have h₂ := h₁.call (.registerFront "tcp://127.0.0.1:17001") _ (by decide) (by decide) rfl
  have h₃ := h₂.call .tradingDay _ (by decide) (by decide) rfl
  have h₄ := h₃.call .init _ (by decide) (by decide) rfl
  have h₅ := h₄.call (.login { brokerId := "9999", userId := "u" } 7) _ (by decide) (by decide) rfl
  have h₆ := h₅.raise rfl
  have h₇ := h₆.call (.subscribe .marketData ["IF2401", "IF2402"]) _ (by decide) (by decide) rfl
  exact ⟨_, _, _, h₇, rfl, rfl, (raised_eq_stream h₇ rfl).trans rfl⟩

end Loopback

end MarketFeed
