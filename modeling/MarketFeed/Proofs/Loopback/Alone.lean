import MarketFeed.Proofs.Loopback.InTime

namespace MarketFeed.Loopback

theorem modifyLine_eq_const (g : Loopback) (slot : Nat) (f : Line → Line) :
    g.modifyLine slot f = g.modifyLine slot fun _ => f (g.line slot) := by
  have hlines : g.lines.modify slot f = g.lines.modify slot fun _ => f (g.line slot) := by
    apply List.ext_getElem?
    intro i
    by_cases hi : slot = i
    · subst hi
      rw [List.getElem?_modify_eq, List.getElem?_modify_eq, line]
      cases g.lines[slot]? <;> rfl
    · rw [List.getElem?_modify_ne _ _ hi, List.getElem?_modify_ne _ _ hi]
  rw [modifyLine, modifyLine, hlines]

theorem modifyLine_line (g : Loopback) (slot : Nat) :
    (g.modifyLine slot fun _ => g.line slot) = g := by
  refine (modifyLine_eq_const g slot id).symm.trans ?_
  rw [modifyLine, List.modify_id]

theorem modifyLine_modifyLine (g : Loopback) (slot : Nat) (l l' : Line) :
    (g.modifyLine slot fun _ => l).modifyLine slot (fun _ => l') =
      g.modifyLine slot fun _ => l' := by
  rw [modifyLine, modifyLine, List.modify_modify_eq, modifyLine]
  rfl

/-- What comes of a call at a gateway that has one caller at a time: the caller as it returns, if the
call takes more than one step, and the gateway that it leaves. -/
def Move.alone? (g : Loopback) : Move → Option (List Caller × Loopback)
  | create => some ([], g.create.2)
  | push slot callbacks => some ([], g.push slot callbacks)
  | emit callbacks =>
    let (taken, g') := g.emit callbacks
    some ([.emit callbacks (.done (if taken then g.live else none))], g')
  | finish slot => some ([.finish slot .done], g.stopCallbacks slot)
  | advance _ | raise _ => none

namespace Shared

variable {s : Shared} {slot : Nat} {c : Caller}

theorem isLocked_join (hc : c.ownsLive = false) : (s.join c).isLocked = s.isLocked := by
  rw [isLocked, join, List.any_append, List.any_cons, hc]
  exact Bool.or_false _

theorem setCaller_join (s : Shared) (c c' : Caller) :
    (s.join c).setCaller s.callers.length c' = s.join c' := by
  rw [setCaller, join, set_concat_length]
  rfl

theorem getElem?_join (s : Shared) (c : Caller) :
    (s.join c).callers[s.callers.length]? = some c := List.getElem?_concat_length

theorem run_of_step {t : Shared} {m : Move} {ms : List Move} (h : s.step? m = some t) :
    s.run (m :: ms) = t.run ms := by
  rw [run_cons, h]
  rfl

theorem step?_join {c' : Caller} (hp : (s.join c).Proceeds c c') :
    (s.join c).step? (.advance s.callers.length) = some (s.join c') :=
  (advance?_of_proceeds (getElem?_join s c) hp).trans (congrArg some (setCaller_join s c c'))

/-- A move and what may come behind it, up to where the call has returned. -/
def CallsAlone (s : Shared) (m : Move) (cs : List Caller) (g : Loopback) : Prop :=
  ∃ ms t, s.run (m :: ms) = some t ∧ t.callers = s.callers ++ cs ∧ t.gateway = g

theorem callsAlone_emit (free : s.isLocked = false) (callbacks : List Callback) :
    s.CallsAlone (.emit callbacks) [.emit callbacks (.done s.gateway.live)]
      (s.gateway.emit callbacks).2 := by
  have hcome : s.step? (.emit callbacks) = some (s.join (.emit callbacks .arrived)) := rfl
  have hlook := step?_join (.look callbacks ((isLocked_join rfl).trans free))
  refine ⟨[.advance s.callers.length, .advance s.callers.length], ?_⟩
  rw [run_of_step hcome, run_of_step hlook, emit]
  change ∃ t, (s.join (.emit callbacks (.holding s.gateway.live))).run _ = some t ∧ _
  cases s.gateway.live with
  | none =>
    rw [run_of_step (step?_join (.refuse callbacks))]
    exact ⟨_, rfl, rfl, rfl⟩
  | some slot =>
    have hdeliver := advance?_deliver (getElem?_join s (.emit callbacks (.holding (some slot))))
    rw [setCaller_join] at hdeliver
    rw [run_of_step (m := .advance _) hdeliver]
    exact ⟨_, rfl, rfl, rfl⟩

theorem exists_run_raises (s : Shared) (slot n : Nat) :
    ∃ ms, s.run ms = some
      { s with gateway := s.gateway.modifyLine slot fun _ =>
          Line.settle.go n (s.gateway.line slot) } := by
  induction n generalizing s with
  | zero =>
    refine ⟨[], ?_⟩
    rw [Line.settle.go, modifyLine_line]
    rfl
  | succ n ih =>
    cases ha : (s.gateway.line slot).advance? with
    | none =>
      refine ⟨[], ?_⟩
      rw [Line.settle.go, ha, modifyLine_line]
      rfl
    | some l =>
      have hl := lt_of_running (Line.advance?_cases ha).1
      have hraise : s.step? (.raise slot) =
          some { s with gateway := s.gateway.modifyLine slot fun _ => l } := by
        rw [step?, ha]
        rfl
      obtain ⟨ms, hms⟩ := ih { s with gateway := s.gateway.modifyLine slot fun _ => l }
      rw [line_modifyLine hl, modifyLine_modifyLine] at hms
      refine ⟨.raise slot :: ms, ?_⟩
      rw [run_of_step hraise, hms, Line.settle.go, ha]

theorem exists_run_clear (free : s.isLocked = false) (slot : Nat) :
    ∃ ms t, (s.join (.finish slot .joined)).run ms = some t ∧
      t.gateway = s.gateway.clearLive slot ∧ t.callers = s.callers ++ [.finish slot .done] := by
  have hlock := step?_join (.lock slot ((isLocked_join rfl).trans free))
  have hclear := advance?_clear (getElem?_join s (.finish slot .holding))
  rw [setCaller_join] at hclear
  refine ⟨[.advance s.callers.length, .advance s.callers.length],
    { s.join (.finish slot .done) with gateway := s.gateway.clearLive slot }, ?_, rfl, rfl⟩
  rw [run_of_step hlock, run_of_step (m := .advance _) hclear]
  rfl

theorem Sound.stopped (h : s.Sound) (hl : slot < s.gateway.lines.length)
    (hj : (s.gateway.line slot).joined = false) :
    (((s.gateway.pushStop slot).join slot).line slot).running = false := by
  rw [Loopback.join, line_modifyLine (by rwa [pushStop, length_lines_modifyLine]), pushStop,
    line_modifyLine hl]
  cases h.kept.serves hl with
  | atWork hj' hr hs =>
    have hset := Line.settle_of_told
      (l := { (s.gateway.line slot).push .stop with joined := true }) hr rfl hs
    rw [hset]
  | told q rest hj' | ended hj' => cases hj.symm.trans hj'

theorem Sound.callsAlone_finish (h : s.Sound) (free : s.isLocked = false)
    (hs : s.isFree slot = true) :
    s.CallsAlone (.finish slot) [.finish slot .done] (s.gateway.stopCallbacks slot) := by
  have hcome : s.step? (.finish slot) = some (s.join (.finish slot .arrived)) := if_pos hs
  cases hj : (s.gateway.line slot).joined with
  | true =>
    have hskip := step?_join (s := s) (.skip slot hj)
    obtain ⟨ms, t, ht, hg, hc⟩ := exists_run_clear free slot
    refine ⟨.advance s.callers.length :: ms, t, ?_, hc, ?_⟩
    · rw [run_of_step hcome, run_of_step hskip, ht]
    · rw [hg, stopCallbacks, hj]
      rfl
  | false =>
    have htell := advance?_tell (getElem?_join s (.finish slot .arrived)) hj
    rw [setCaller_join] at htell
    let g := s.gateway.pushStop slot
    -- the caller waits while the thread raises what is left
    let u : Shared := { s with gateway := g.join slot }
    obtain ⟨ms, hms⟩ := exists_run_raises { s.join (.finish slot .told) with gateway := g } slot
      (g.line slot).queue.length
    have hraised : { s.join (.finish slot .told) with gateway := g }.run ms =
        some (u.join (.finish slot .told)) := by
      rw [hms]
      exact congrArg (fun g' => some { s.join (.finish slot .told) with gateway := g' })
        (modifyLine_eq_const g slot Line.settle).symm
    have hjoin := step?_join (s := u) (.join slot (h.stopped (lt_of_free hs) hj))
    obtain ⟨ms', t, ht, hg, hc⟩ := exists_run_clear (s := u) free slot
    refine ⟨.advance s.callers.length :: (ms ++ .advance s.callers.length :: ms'), t, ?_, hc, ?_⟩
    · rw [run_of_step hcome, run_of_step (m := .advance _) htell, run_append]
      have hbind := congrArg (·.bind fun v => v.run (.advance s.callers.length :: ms')) hraised
      exact hbind.trans ((run_of_step hjoin).trans ht)
    · rw [hg, stopCallbacks, hj]
      rfl

/-- Whoever finds the lock free and is not interfered with finds a gateway that has one caller at a
time. -/
theorem Sound.servesAlone (h : s.Sound) (free : s.isLocked = false) {m : Move}
    (hm : (s.step? m).isSome = true) {cs : List Caller} {g : Loopback}
    (ha : m.alone? s.gateway = some (cs, g)) : s.CallsAlone m cs g := by
  obtain ⟨t, ht⟩ := Option.isSome_iff_exists.1 hm
  cases m with
  | create =>
    cases ha
    obtain ⟨-, he⟩ := Option.ite_none_left_eq_some.1 ht
    cases he
    exact ⟨[], _, run_of_step ht, (List.append_nil _).symm, rfl⟩
  | push slot callbacks =>
    cases ha
    obtain ⟨-, he⟩ := Option.ite_none_right_eq_some.1 ht
    cases he
    exact ⟨[], _, run_of_step ht, (List.append_nil _).symm, rfl⟩
  | emit callbacks =>
    have he := callsAlone_emit free callbacks
    rw [Move.alone?, Loopback.emit] at ha
    rw [Loopback.emit] at he
    cases hl : s.gateway.live with
    | none =>
      rw [hl] at ha he
      cases ha
      exact he
    | some slot =>
      rw [hl] at ha he
      cases ha
      exact he
  | finish slot =>
    cases ha
    obtain ⟨hs, -⟩ := Option.ite_none_right_eq_some.1 ht
    exact h.callsAlone_finish free hs
  | advance place => cases ha
  | raise slot => cases ha

end Shared

end MarketFeed.Loopback
