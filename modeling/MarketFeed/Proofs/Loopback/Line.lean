import MarketFeed.Loopback.Run

namespace MarketFeed.Loopback

open Vendor (Exchange Reply)

def Item.callbacks : Item → List Callback
  | raise callbacks => callbacks
  | stop => []

namespace Line

/-- The callbacks raised so far, and then those that wait to be raised. -/
def promised (l : Line) : List Callback := l.raised ++ l.queue.flatMap Item.callbacks

theorem promised_push (l : Line) (i : Item) : (l.push i).promised = l.promised ++ i.callbacks := by
  simp [promised, push]

theorem promised_advance? {l l' : Line} (h : l.advance? = some l') :
    l'.promised = l.promised := by
  cases hr : l.running with
  | false => simp [advance?, hr] at h
  | true =>
    rcases hq : l.queue with _ | ⟨i, rest⟩
    · simp [advance?, hr, hq] at h
    · cases i with
      | raise callbacks =>
        simp only [advance?, hr, hq, if_true, Option.some.injEq] at h
        simp [← h, promised, hq, Item.callbacks]
      | stop =>
        simp only [advance?, hr, hq, if_true, Option.some.injEq] at h
        simp [← h, promised, hq, Item.callbacks]

theorem settle_go_of_stopped {l : Line} (h : l.running = false) (n : Nat) : settle.go n l = l := by
  cases n with
  | zero => rfl
  | succ n => simp [settle.go, advance?, h]

/-- A thread that was told to stop first raises all that was pushed before. -/
theorem settle_go_of_told {l : Line} {q : List Item} {n : Nat} (hr : l.running = true)
    (hq : l.queue = q ++ [.stop]) (hs : .stop ∉ q) (hn : q.length < n) :
    settle.go n l = { l with queue := [], running := false, raised := l.promised } := by
  induction q generalizing l n with
  | nil =>
    obtain ⟨n, rfl⟩ : ∃ m, n = m + 1 := ⟨n - 1, by simp at hn; omega⟩
    have ha : l.advance? = some { l with queue := [], running := false } := by
      simp [advance?, hr, hq]
    have hp : l.promised = l.raised := by
      simp [promised, hq, Item.callbacks]
    rw [settle.go, ha]
    change settle.go n { l with queue := [], running := false } = _
    rw [settle_go_of_stopped rfl, hp]
  | cons i q ih =>
    obtain ⟨n, rfl⟩ : ∃ m, n = m + 1 := ⟨n - 1, by simp at hn; omega⟩
    cases i with
    | stop => simp at hs
    | raise callbacks =>
      have ha : l.advance? =
          some { l with queue := q ++ [.stop], raised := l.raised ++ callbacks } := by
        simp [advance?, hr, hq]
      rw [← promised_advance? ha, settle.go, ha]
      exact ih hr rfl (fun h => hs (List.mem_cons_of_mem _ h)) (by simp at hn; omega)

theorem settle_of_told {l : Line} {q : List Item} (hr : l.running = true)
    (hq : l.queue = q ++ [.stop]) (hs : .stop ∉ q) :
    l.settle = { l with queue := [], running := false, raised := l.promised } :=
  settle_go_of_told hr hq hs (by rw [hq, List.length_append]; exact Nat.lt_add_one _)

end Line

section
variable {g : Loopback} {slot other : Nat}

theorem line_modifyLine (h : slot < g.lines.length) (f : Line → Line) :
    (g.modifyLine slot f).line slot = f (g.line slot) := by
  simp [line, modifyLine, List.getElem?_eq_getElem h]

theorem line_modifyLine_of_ne (h : other ≠ slot) (f : Line → Line) :
    (g.modifyLine other f).line slot = g.line slot := by
  simp [line, modifyLine, h]

theorem length_lines_modifyLine (slot : Nat) (f : Line → Line) :
    (g.modifyLine slot f).lines.length = g.lines.length := List.length_modify ..

end

/-- What happens to a line in use: addresses are registered on it and callbacks promised, in order,
and its thread goes on. -/
structure Extends (slot : Nat) (g g' : Loopback) (addresses : List String)
    (callbacks : List Callback) : Prop where
  options : g'.options = g.options
  opened : slot < g'.lines.length
  running : (g'.line slot).running = (g.line slot).running
  joined : (g'.line slot).joined = (g.line slot).joined
  unstopped : .stop ∉ (g.line slot).queue → .stop ∉ (g'.line slot).queue
  fronts : (g'.line slot).fronts = (g.line slot).fronts ++ addresses
  promised : (g'.line slot).promised = (g.line slot).promised ++ callbacks

section
variable {slot other : Nat} {g g₁ g₂ : Loopback} {as as' : List String} {cs cs' : List Callback}

theorem Extends.trans (h : Extends slot g g₁ as cs) (h' : Extends slot g₁ g₂ as' cs') :
    Extends slot g g₂ (as ++ as') (cs ++ cs') := by
  apply Extends.mk
  case options => exact h'.options.trans h.options
  case opened => exact h'.opened
  case running => exact h'.running.trans h.running
  case joined => exact h'.joined.trans h.joined
  case unstopped => exact fun hs => h'.unstopped (h.unstopped hs)
  case fronts => rw [h'.fronts, h.fronts, List.append_assoc]
  case promised => rw [h'.promised, h.promised, List.append_assoc]

theorem Extends.of_line_eq (ho : g₁.options = g.options) (hl : slot < g₁.lines.length)
    (h : g₁.line slot = g.line slot) : Extends slot g g₁ [] [] := by
  apply Extends.mk ho hl
  case running => rw [h]
  case joined => rw [h]
  case unstopped => rw [h]; exact id
  case fronts => rw [h, List.append_nil]
  case promised => rw [h, List.append_nil]

theorem Extends.refl (h : slot < g.lines.length) : Extends slot g g [] [] := .of_line_eq rfl h rfl

theorem extends_enter (h : slot < g.lines.length) (method : String) :
    Extends slot g (g.enter method) [] [] := .of_line_eq rfl h rfl

theorem extends_leave (h : slot < g.lines.length) : Extends slot g g.leave [] [] :=
  .of_line_eq rfl h rfl

theorem extends_modifyLine_of_ne (h : slot < g.lines.length) (ho : other ≠ slot)
    (f : Line → Line) : Extends slot g (g.modifyLine other f) [] [] :=
  .of_line_eq rfl (by rwa [length_lines_modifyLine]) (line_modifyLine_of_ne ho f)

theorem extends_push (h : slot < g.lines.length) (cs : List Callback) :
    Extends slot g (g.push slot cs) [] cs := by
  have hl : (g.push slot cs).line slot = (g.line slot).push (.raise cs) :=
    line_modifyLine h (·.push (.raise cs))
  apply Extends.mk
  case options => rfl
  case opened => rwa [push, length_lines_modifyLine]
  case running => rw [hl]; rfl
  case joined => rw [hl]; rfl
  case unstopped => rw [hl]; simp [Line.push]
  case fronts => rw [hl, List.append_nil]; rfl
  case promised => rw [hl, Line.promised_push]; rfl

theorem extends_pushes (h : slot < g.lines.length) (css : List (List Callback)) :
    Extends slot g (css.foldl (push · slot) g) [] css.flatten := by
  induction css generalizing g with
  | nil => exact .refl h
  | cons cs css ih => exact (extends_push h cs).trans (ih (extends_push h cs).opened)

theorem extends_raise {l : Line} (h : slot < g.lines.length) (hs : .stop ∉ (g.line slot).queue)
    (ha : (g.line slot).advance? = some l) :
    Extends slot g (g.modifyLine slot fun _ => l) [] [] := by
  have hl : (g.modifyLine slot fun _ => l).line slot = l := line_modifyLine h _
  have hr : (g.line slot).running = true := by
    cases hr : (g.line slot).running with
    | true => rfl
    | false => simp [Line.advance?, hr] at ha
  rcases hq : (g.line slot).queue with _ | ⟨_ | callbacks, rest⟩
  · simp [Line.advance?, hr, hq] at ha
  · rename_i callbacks
    have hp := Line.promised_advance? ha
    simp only [Line.advance?, hr, hq, if_true, Option.some.injEq] at ha
    subst ha
    apply Extends.mk
    case options => rfl
    case opened => rwa [length_lines_modifyLine]
    case running => rw [hl, hr]
    case joined => rw [hl]
    case unstopped => rw [hl, hq]; exact fun _ hm => hs (hq ▸ List.mem_cons_of_mem _ hm)
    case fronts => rw [hl, List.append_nil]
    case promised => rw [hl, List.append_nil, hp]
  · exact absurd (hq ▸ List.mem_cons_self) hs

end

end MarketFeed.Loopback
