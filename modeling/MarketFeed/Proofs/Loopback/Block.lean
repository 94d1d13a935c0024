import MarketFeed.Proofs.Loopback.Ending

namespace MarketFeed

open Vendor (Exchange Reply)

namespace Loopback

/-- The address that a call registered, unless it panicked. -/
def registration : Exchange → List String
  | ⟨.registerFront address, .returned _⟩ => [address]
  | ⟨.registerNameServer address, .returned _⟩ => [address]
  | _ => []

def acknowledgements (ack : Option Instrument → Ack → Callback) (ids : List String) :
    List Callback :=
  ids.mapIdx fun i id => ack (some ⟨id⟩) ⟨none, 0, i + 1 = ids.length⟩

/-- The callbacks of one call on the session, after the calls before it. -/
def block (options : Options) (earlier : List Exchange) : Exchange → List Callback
  | ⟨.init, .returned _⟩ =>
    if earlier.flatMap registration = [] then [] else [.frontConnected]
  | ⟨.login r requestId, .returned status⟩ =>
    if status = 0 then
      [.login
        (some
          { tradingDay := options.tradingDay, loginTime := "09:00:00", brokerId := r.brokerId,
            userId := r.userId, systemName := "SimNow", frontId := 1, sessionId := 42,
            maxOrderRef := "1" })
        ⟨options.loginError, requestId, true⟩]
    else []
  | ⟨.logout user requestId, .returned status⟩ =>
    if status = 0 then [.logout (some user) ⟨none, requestId, true⟩] else []
  | ⟨.subscribe .marketData ids, .returned status⟩ =>
    if status = 0 then
      acknowledgements (.subscribed .marketData) ids ++
        ids.map fun id => .tick (sampleTick id 3500.0)
    else []
  | ⟨.subscribe .quotes ids, .returned status⟩ =>
    if status = 0 then acknowledgements (.subscribed .quotes) ids else []
  | ⟨.unsubscribe feed ids, .returned status⟩ =>
    if status = 0 then acknowledgements (.unsubscribed feed) ids else []
  | _ => []

theorem acknowledge_eq (ack : Option Instrument → Ack → Callback) (ids : List String) :
    acknowledge ack ids = acknowledgements ack ids := by
  induction ids with
  | nil => rfl
  | cons id ids ih =>
    rw [acknowledgements, List.mapIdx_cons]
    cases ids with
    | nil => rfl
    | cons id' ids =>
      have hlast : decide (0 + 1 = (id :: id' :: ids).length) = false := by simp
      rw [hlast, acknowledge, ih, acknowledgements]
      · simp only [List.length_cons, Nat.add_right_cancel_iff]
      · exact fun h => List.cons_ne_nil _ _ h

variable {slot : Nat} {g g' : Loopback} {es : List Exchange}

theorem extends_start (h : slot < g.lines.length) :
    Extends slot g (start slot g).2 []
      (if (g.line slot).fronts = [] then [] else [.frontConnected]) := by
  by_cases hf : (g.line slot).fronts = []
  · rw [start, if_pos hf, if_pos hf]
    exact .refl h
  · rw [start, if_neg hf, if_neg hf]
    have hc : Extends slot g (g.modifyLine slot fun l => { l with connected := true }) [] [] := by
      have hl := line_modifyLine h fun l => { l with connected := true }
      apply Extends.mk
      case options => rfl
      case opened => rwa [length_lines_modifyLine]
      case running => rw [hl]
      case joined => rw [hl]
      case unstopped => rw [hl]; exact id
      case fronts => rw [hl, List.append_nil]
      case promised => rw [hl, List.append_nil]; rfl
    exact hc.trans (extends_push hc.opened _)

theorem extends_addFront (h : slot < g.lines.length) (address : String) :
    Extends slot g (addFront slot address g).2 [address] [] := by
  have hl := line_modifyLine h fun l => { l with fronts := l.fronts ++ [address] }
  apply Extends.mk
  case options => rfl
  case opened => rwa [addFront, length_lines_modifyLine]
  case running => rw [addFront, hl]
  case joined => rw [addFront, hl]
  case unstopped => rw [addFront, hl]; exact id
  case fronts => rw [addFront, hl]
  case promised => rw [addFront, hl, List.append_nil]; rfl

theorem extends_ifConnected (h : slot < g.lines.length) (css : List (List Callback)) :
    Extends slot g (g.ifConnected slot css).2 []
      (if (g.ifConnected slot css).1 = 0 then css.flatten else []) := by
  unfold ifConnected
  cases (g.line slot).connected with
  | true => exact extends_pushes h css
  | false => exact .refl h

theorem extends_subscribe (h : slot < g.lines.length) (feed : Feed) (ids : List String) :
    Extends slot g (subscribe slot feed ids g).2 []
      (block g.options es ⟨.subscribe feed ids, .returned (subscribe slot feed ids g).1⟩) := by
  cases feed with
  | marketData =>
    have he := extends_ifConnected h (acknowledge (.subscribed .marketData) ids ::
      ids.map fun id => [.tick (sampleTick id 3500.0)])
    rw [List.flatten_cons, acknowledge_eq, ← List.flatMap_def, ← List.map_eq_flatMap] at he
    rwa [subscribe, block, acknowledge_eq]
  | quotes =>
    have he := extends_ifConnected h [acknowledge (.subscribed .quotes) ids]
    rw [List.flatten_singleton, acknowledge_eq] at he
    rwa [subscribe, block, acknowledge_eq]

theorem extends_login (h : slot < g.lines.length) (r : LoginRequest) (requestId : Int32) :
    Extends slot g (login slot r requestId g).2 []
      (block g.options es ⟨.login r requestId, .returned (login slot r requestId g).1⟩) := by
  unfold login
  by_cases hs : (g.line slot).connected ∧ g.options.loginStatus ≠ 0
  · rw [if_pos hs, block, if_neg hs.2]
    exact .refl h
  · rw [if_neg hs]
    exact extends_ifConnected h _

theorem registration_of_panic (c : Vendor.Call) (p : Panic) :
    registration ⟨c, .panicked p⟩ = [] := by
  cases c <;> rfl

theorem block_of_panic (options : Options) (c : Vendor.Call) (p : Panic) :
    block options es ⟨c, .panicked p⟩ = [] := by
  cases c with
  | subscribe feed ids => cases feed <;> rfl
  | _ => rfl

theorem extends_guarded (c : Vendor.Call) {method : String} {body : Loopback → c.Answer × Loopback}
    (h : slot < g.lines.length)
    (hb : Extends slot (g.enter method) (body (g.enter method)).2
      (registration ⟨c, .returned (body (g.enter method)).1⟩)
      (block g.options es ⟨c, .returned (body (g.enter method)).1⟩)) :
    Extends slot g (g.guarded method body).2 (registration ⟨c, (g.guarded method body).1⟩)
      (block g.options es ⟨c, (g.guarded method body).1⟩) := by
  rcases guarded_eq method g body with ⟨p, he⟩ | he
  · rw [he, registration_of_panic, block_of_panic]
    exact (extends_enter h method).trans (extends_leave h)
  · rw [he]
    have ht := ((extends_enter h method).trans hb).trans (extends_leave hb.opened)
    rwa [List.nil_append, List.nil_append, List.append_nil, List.append_nil] at ht

/-- A call on the session registers and promises what its exchange says. -/
theorem extends_serve (h : slot < g.lines.length)
    (hf : (g.line slot).fronts = es.flatMap registration) {c : Vendor.Call}
    (hc : c.operation ≠ .create) (hr : c.operation ≠ .exit) :
    Extends slot g (g.serve slot c).2 (registration ⟨c, (g.serve slot c).1⟩)
      (block g.options es ⟨c, (g.serve slot c).1⟩) := by
  have hg (method : String) : slot < (g.enter method).lines.length := h
  cases c with
  | create flowDir => exact absurd rfl hc
  | release => exact absurd rfl hr
  | apiVersion => exact extends_guarded .apiVersion h (.refl (hg _))
  | tradingDay => exact extends_guarded .tradingDay h (.refl (hg _))
  | registerUser user => exact extends_guarded (.registerUser user) h (.refl (hg _))
  | init =>
    apply extends_guarded .init h
    rw [block, ← hf]
    exact extends_start (hg _)
  | registerFront address =>
    exact extends_guarded (.registerFront address) h (extends_addFront (hg _) address)
  | registerNameServer address =>
    exact extends_guarded (.registerNameServer address) h (extends_addFront (hg _) address)
  | subscribe feed ids =>
    exact extends_guarded (.subscribe feed ids) h (extends_subscribe (hg _) feed ids)
  | unsubscribe feed ids =>
    rw [serve, acknowledge_eq]
    apply extends_guarded (.unsubscribe feed ids) h
    have he := extends_ifConnected (hg (Vendor.method (.unsubscribe feed)))
      [acknowledgements (.unsubscribed feed) ids]
    rwa [List.flatten_singleton] at he
  | login r requestId =>
    exact extends_guarded (.login r requestId) h (extends_login (hg _) r requestId)
  | logout user requestId =>
    exact extends_guarded (.logout user requestId) h (extends_ifConnected (hg _) _)

end Loopback

end MarketFeed
