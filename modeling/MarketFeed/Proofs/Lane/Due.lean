import MarketFeed.Loopback
import MarketFeed.Proofs.Lane.Handle
import MarketFeed.Proofs.Lane.Order
import MarketFeed.Proofs.Lane.Receiver
import MarketFeed.Proofs.Worker.Course

namespace MarketFeed

def Job.ends {κ : Type} : Job κ → Bool
  | run s => s.operation = .exit
  | stop => true

/-- The jobs that a worker comes to, if it is given these. -/
def Job.ahead {κ : Type} : List (Job κ) → List (Job κ)
  | [] => []
  | j :: later => if j.ends then [j] else j :: ahead later

/-- The requests ahead of the first stop, none of them behind the first exit. -/
def Job.due {κ : Type} (js : List (Job κ)) : List (Submission κ) :=
  (ahead js).filterMap Job.submission?

namespace Job

variable {κ : Type}

theorem ahead_append_of_open {xs : List (Job κ)} (h : ∀ x ∈ xs, x.ends = false)
    (ys : List (Job κ)) : ahead (xs ++ ys) = xs ++ ahead ys := by
  induction xs with
  | nil => rfl
  | cons x xs ih =>
    rw [List.cons_append, ahead, h x List.mem_cons_self, if_neg Bool.false_ne_true,
      ih fun y hy => h y (List.mem_cons_of_mem _ hy)]
    rfl

theorem ahead_append_of_ends {xs : List (Job κ)} {x : Job κ} (hx : x ∈ xs)
    (he : x.ends = true) (ys : List (Job κ)) : ahead (xs ++ ys) = ahead xs := by
  induction xs with
  | nil => cases hx
  | cons y xs ih =>
    rw [List.cons_append, ahead, ahead]
    cases hy : y.ends with
    | true => rfl
    | false =>
      rcases List.mem_cons.1 hx with rfl | hx
      · rw [hy] at he
        cases he
      · rw [if_neg Bool.false_ne_true, if_neg Bool.false_ne_true, ih hx]

theorem ahead_of_ends {j : Job κ} (h : j.ends = true) (js : List (Job κ)) :
    ahead (j :: js) = [j] := if_pos h

end Job

namespace Worker

variable {σ κ : Type}

def completions (V : Vendor σ) (w : Worker σ) (xs : List (Submission κ)) :
    List (Completion κ) :=
  List.zipWith Completion.mk xs (w.results V xs)

theorem completions_append (V : Vendor σ) (w : Worker σ) (xs ys : List (Submission κ)) :
    w.completions V (xs ++ ys) = w.completions V xs ++ (w.serve V xs).completions V ys := by
  rw [completions, results_append, List.zipWith_append (length_results V w xs).symm]
  rfl

def attend (V : Vendor σ) (w : Worker σ) : List (Job κ) → Worker σ
  | [] => w
  | .run s :: later => attend V (w.execute V s.request s.requestId).worker later
  | .stop :: later => attend V (w.release V).worker later

theorem attend_append (V : Vendor σ) (w : Worker σ) (xs ys : List (Job κ)) :
    w.attend V (xs ++ ys) = (w.attend V xs).attend V ys := by
  induction xs generalizing w with
  | nil => rfl
  | cons x xs ih => cases x <;> exact ih _

theorem attend_map_run (V : Vendor σ) (w : Worker σ) (xs : List (Submission κ)) :
    w.attend V (xs.map Job.run) = w.serve V xs := by
  induction xs generalizing w with
  | nil => rfl
  | cons x xs ih => exact ih _

theorem exchanges_attend (V : Vendor σ) (w : Worker σ) (js : List (Job κ)) :
    w.exchanges <+: (w.attend V js).exchanges := by
  induction js generalizing w with
  | nil => exact List.prefix_rfl
  | cons j js ih =>
    cases j with
    | run s => exact (w.exchanges_execute V s.request s.requestId).trans (ih _)
    | stop => exact (w.exchanges_release V).trans (ih _)

end Worker

namespace Lane

variable {σ κ : Type}

def Move.job? : Move κ → Option (Job κ)
  | submit s => some (.run s)
  | stop => some .stop
  | _ => none

def asked (ms : List (Move κ)) : List (Job κ) := ms.filterMap Move.job?

def attended (l : Lane σ κ) : List (Job κ) :=
  match l.phase with
  | .ended => l.served.map .run ++ l.current
  | _ => l.served.map .run

/-- The jobs that a worker will come to, if it is given no others. -/
def upcoming (l : Lane σ κ) : List (Job κ) :=
  match l.phase with
  | .ended => []
  | _ => Job.ahead (l.current ++ l.jobs.items)

theorem ends_of_not_exited {l : Lane σ κ} (h : l.exited = false) {j : Job κ}
    (hj : j ∈ l.served.map Job.run) : j.ends = false := by
  obtain ⟨s, hs, rfl⟩ := List.mem_map.1 hj
  obtain ⟨c, hc, rfl⟩ := List.mem_map.1 hs
  exact Bool.eq_false_iff.2 (List.any_eq_false.1 h c hc)

theorem Orderly.served_of_exited {V : Vendor σ} {vendor : σ} {l : Lane σ κ}
    (h : l.Orderly V vendor) (hx : l.exited = true) :
    ∃ before c, l.executed = before ++ [c] ∧ c.submission.operation = .exit ∧
      ∀ x ∈ before, x.submission.operation ≠ .exit := by
  obtain ⟨c, hc, ho⟩ := List.any_eq_true.1 hx
  have hlast := h.exit_last
  rcases List.eq_nil_or_concat l.executed with hnil | ⟨before, c', he⟩
  · rw [hnil] at hc
    cases hc
  · rw [List.concat_eq_append] at he
    rw [he, List.dropLast_concat] at hlast
    rw [he] at hc
    rcases List.mem_append.1 hc with hc | hc
    · exact absurd (of_decide_eq_true ho) (hlast c hc)
    · obtain rfl := List.mem_singleton.1 hc
      exact ⟨before, c, he, of_decide_eq_true ho, hlast⟩

theorem Orderly.ahead_served {V : Vendor σ} {vendor : σ} {l : Lane σ κ}
    (h : l.Orderly V vendor) (hx : l.exited = true) (js : List (Job κ)) :
    Job.ahead (l.served.map .run ++ js) = l.served.map .run := by
  obtain ⟨before, c, he, ho, hb⟩ := h.served_of_exited hx
  have hs : l.served.map Job.run =
      (before.map fun c => Job.run c.submission) ++ [.run c.submission] := by
    rw [served, he, List.map_map, List.map_append]
    rfl
  have hopen (j : Job κ) (hj : j ∈ before.map fun c => Job.run c.submission) :
      j.ends = false := by
    obtain ⟨x, hx, rfl⟩ := List.mem_map.1 hj
    exact decide_eq_false (hb x hx)
  rw [hs, List.append_assoc, Job.ahead_append_of_open hopen]
  rw [List.singleton_append, Job.ahead_of_ends (j := .run c.submission) (decide_eq_true ho)]

/-- The jobs that a worker comes to are those it has come to, and then those it will come to. -/
theorem Orderly.ahead_issued {V : Vendor σ} {vendor : σ} {l : Lane σ κ}
    (h : l.Orderly V vendor) : Job.ahead l.issued = l.attended ++ l.upcoming := by
  rw [h.issued, List.append_assoc]
  cases hp : l.phase with
  | ended =>
    simp only [attended, upcoming, hp, List.append_nil]
    cases hx : l.exited with
    | true => simp only [current, hp, hx, if_true, List.append_nil, h.ahead_served hx]
    | false =>
      simp only [current, hp, hx, Bool.false_eq_true, if_false]
      rw [Job.ahead_append_of_open fun j hj => ends_of_not_exited hx hj]
      rfl
  | waiting =>
    have hx := h.not_exited (not_ended_of_waiting hp)
    simp only [attended, upcoming, hp]
    exact Job.ahead_append_of_open (fun j hj => ends_of_not_exited hx hj) _
  | busy s =>
    have hx := h.not_exited (not_ended_of_busy hp)
    simp only [attended, upcoming, hp]
    exact Job.ahead_append_of_open (fun j hj => ends_of_not_exited hx hj) _

theorem Orderly.worker_eq_attend {V : Vendor σ} {vendor : σ} {l : Lane σ κ}
    (h : l.Orderly V vendor) : l.worker = (Worker.fresh vendor).attend V l.attended := by
  cases hp : l.phase with
  | ended =>
    rw [attended, hp]
    simp only [Worker.attend_append, Worker.attend_map_run, current, hp]
    cases hx : l.exited with
    | true => exact h.worker fun _ => hx
    | false => exact h.stopped hp hx
  | waiting =>
    simp only [attended, hp, Worker.attend_map_run]
    exact h.worker fun he => absurd he (not_ended_of_waiting hp)
  | busy s =>
    simp only [attended, hp, Worker.attend_map_run]
    exact h.worker fun he => absurd he (not_ended_of_busy hp)

theorem submissions_attended (l : Lane σ κ) :
    l.attended.filterMap Job.submission? = l.served := by
  cases hp : l.phase with
  | ended =>
    simp only [attended, hp, List.filterMap_append, filterMap_run, current]
    cases l.exited <;> exact List.append_nil _
  | waiting => simp only [attended, hp, filterMap_run]
  | busy s => simp only [attended, hp, filterMap_run]

theorem Orderly.executed_eq {V : Vendor σ} {vendor : σ} {l : Lane σ κ} (h : l.Orderly V vendor) :
    l.executed = (Worker.fresh vendor).completions V l.served := by
  rw [Worker.completions, ← h.results, served, List.zipWith_map, List.zipWith_self]
  exact (List.map_id _).symm

/-- A worker that can go no further has come to all of its jobs. -/
theorem upcoming_of_rest {V : Vendor σ} {l : Lane σ κ} (h : l.advance? V = none) :
    l.upcoming = [] := by
  cases hp : l.phase with
  | ended => simp only [upcoming, hp]
  | waiting =>
    simp only [upcoming, hp, current, List.nil_append]
    cases hj : l.jobs.items with
    | nil => rfl
    | cons j rest =>
      have hq : l.jobs.pop? = some (j, ⟨rest⟩) := Queue.pop?_eq_some_iff.2 hj
      cases j <;> simp [advance?, hp, hq] at h
  | busy s => simp [advance?, hp] at h

/-- A lane and what it was asked for: of the stops, it has taken the first one only. -/
structure Answers (l : Lane σ κ) (js : List (Job κ)) : Prop where
  ahead : ∀ later, Job.ahead (l.issued ++ later) = Job.ahead (js ++ later)
  stopped : l.stopped = true → .stop ∈ l.issued

theorem answers_fresh (vendor : σ) : (fresh vendor : Lane σ κ).Answers [] where
  ahead _ := rfl
  stopped h := by cases h

theorem Answers.of_eq {l l' : Lane σ κ} {js : List (Job κ)} (h : l.Answers js)
    (hi : l'.issued = l.issued) (hs : l'.stopped = l.stopped) : l'.Answers js where
  ahead := hi ▸ h.ahead
  stopped := by
    rw [hi, hs]
    exact h.stopped

theorem Answers.issue {l : Lane σ κ} {js : List (Job κ)} (h : l.Answers js) (j : Job κ) :
    ∀ later, Job.ahead ((l.issue j).issued ++ later) = Job.ahead (js ++ [j] ++ later) := by
  intro later
  have ha := h.ahead (j :: later)
  rw [List.append_assoc js]
  rw [show (l.issue j).issued = l.issued ++ [j] from rfl, List.append_assoc]
  exact ha

theorem Answers.stop {l : Lane σ κ} {js : List (Job κ)} (h : l.Answers js) :
    l.stop.Answers (js ++ [.stop]) := by
  rw [Lane.stop]
  cases hs : l.stopped with
  | true =>
    rw [if_pos rfl]
    refine ⟨fun later => ?_, fun _ => h.stopped hs⟩
    have hmem := h.stopped hs
    rw [List.append_assoc js, List.singleton_append, ← h.ahead (.stop :: later),
      Job.ahead_append_of_ends hmem rfl, Job.ahead_append_of_ends hmem rfl]
  | false =>
    rw [if_neg Bool.false_ne_true]
    exact ⟨h.issue .stop, fun _ => List.mem_append_right _ (List.mem_singleton_self _)⟩

theorem Answers.step {V : Vendor σ} {l l' : Lane σ κ} {js : List (Job κ)} (h : l.Answers js)
    {m : Move κ} (hs : l.step? V m = some l') : l'.Answers (js ++ m.job?.toList) := by
  cases m with
  | submit s =>
    cases hs
    exact ⟨h.issue (.run s), fun ht => List.mem_append_left _ (h.stopped ht)⟩
  | stop =>
    cases hs
    exact h.stop
  | work =>
    obtain ⟨⟨raised, l''⟩, ha, rfl⟩ := Option.map_eq_some_iff.1 hs
    obtain ⟨hi, ht, -⟩ := (Advance.of_advance? ha).frame
    exact (List.append_nil js).symm ▸ h.of_eq hi ht
  | receive =>
    obtain ⟨⟨c, l''⟩, hr, rfl⟩ := Option.map_eq_some_iff.1 hs
    obtain ⟨rest, -, rfl⟩ := receive?_eq_some_iff.1 hr
    exact (List.append_nil js).symm ▸ h.of_eq rfl rfl
  | stopReceiving =>
    cases hs
    exact (List.append_nil js).symm ▸ h.of_eq rfl rfl

theorem Answers.run {V : Vendor σ} {l l' : Lane σ κ} {js : List (Job κ)} {ms : List (Move κ)}
    (h : l.Answers js) (hr : l.run V ms = some l') : l'.Answers (js ++ asked ms) := by
  induction ms generalizing l js with
  | nil =>
    cases hr
    exact (List.append_nil js).symm ▸ h
  | cons m ms ih =>
    rw [Lane.run, List.foldlM_cons] at hr
    obtain ⟨l₁, hm, hr⟩ := Option.bind_eq_some_iff.1 hr
    have h' := ih (h.step hm) hr
    have ha : asked (m :: ms) = m.job?.toList ++ asked ms := by
      cases m <;> rfl
    rw [ha, ← List.append_assoc]
    exact h'

theorem exists_rest (V : Vendor σ) (l : Lane σ κ) :
    ∃ n l', l.run V (List.replicate n .work) = some l' ∧ l'.advance? V = none := by
  generalize hn : l.workLeft = n
  induction n using Nat.strongRecOn generalizing l with
  | ind n ih =>
    cases ha : l.advance? V with
    | none => exact ⟨0, l, rfl, ha⟩
    | some next =>
      obtain ⟨raised, l₁⟩ := next
      obtain ⟨k, l', hr, hrest⟩ := ih _ (hn ▸ workLeft_advance? ha) l₁ rfl
      refine ⟨k + 1, l', ?_, hrest⟩
      rw [List.replicate_succ, Lane.run, List.foldlM_cons, step?, ha]
      exact hr

/-- What a lane makes of the jobs it was asked for, and of what it has sent. -/
structure Performs (V : Vendor σ) (vendor : σ) (js : List (Job κ)) (sent : List (Completion κ))
    (l : Lane σ κ) : Prop where
  executed : l.executed = sent
  in_order : sent <+: (Worker.fresh vendor).completions V (Job.due js)
  calls : l.worker.exchanges <+: ((Worker.fresh vendor).attend V (Job.ahead js)).exchanges
  at_rest : l.advance? V = none →
    sent = (Worker.fresh vendor).completions V (Job.due js) ∧
      l.worker = (Worker.fresh vendor).attend V (Job.ahead js)
  comes_to_rest : ∃ n l', l.run V (List.replicate n .work) = some l' ∧ l'.advance? V = none
  no_handle : l.phase = .ended → l.worker.hasHandle = false

theorem Orderly.performs {V : Vendor σ} {vendor : σ} {l : Lane σ κ} {js : List (Job κ)}
    {sent : List (Completion κ)} (h : l.Orderly V vendor) (hh : l.Handled) (ha : l.Answers js)
    (hs : l.executed = sent) : l.Performs V vendor js sent := by
  have hahead : Job.ahead js = l.attended ++ l.upcoming := by
    have hj := ha.ahead []
    rw [List.append_nil, List.append_nil] at hj
    rw [← hj, h.ahead_issued]
  have hdue : Job.due js = l.served ++ l.upcoming.filterMap Job.submission? := by
    rw [Job.due, hahead, List.filterMap_append, submissions_attended]
  have hworker := h.worker_eq_attend
  refine ⟨hs, ?_, ?_, ?_, l.exists_rest V, fun hp => (hh.gone hp).hasHandle⟩
  case refine_1 =>
    rw [← hs, h.executed_eq, hdue, Worker.completions_append]
    exact List.prefix_append _ _
  case refine_2 =>
    rw [hahead, Worker.attend_append, ← hworker]
    exact Worker.exchanges_attend V _ _
  case refine_3 =>
    intro hrest
    have hnil := upcoming_of_rest hrest
    rw [hnil, List.append_nil] at hahead
    rw [hnil, List.filterMap_nil, List.append_nil] at hdue
    exact ⟨by rw [← hs, h.executed_eq, hdue], by rw [hahead, hworker]⟩

/-- In every run of a lane the requests that are sent back are those ahead of the first stop, none
behind the first exit, in their order and with the results of one worker that carries them out in
turn; the rest is not carried out, and brings no call of the vendor. The worker always comes to the
last of them, and has no handle when it has ended. It carries out the same if nobody receives. -/
theorem performs_due (V : Vendor σ) (vendor : σ) {ms : List (Move κ)} {l : Lane σ κ}
    (hr : (fresh vendor).run V ms = some l) :
    l.Performs V vendor (asked ms) ((fresh vendor).received V ms ++ l.unreceived) ∧
    ∃ l', (fresh vendor).run V (ms.filter fun m => !m.receives) = some l' ∧
      l'.executed = l.executed ∧ l'.worker = l.worker ∧ l'.phase = l.phase := by
  apply And.intro
  · have horderly := orderly_of_run hr
    have hhandled : l.Handled :=
      run_induction (fun _ _ hl hs => hl.step hs) hr (handled_fresh vendor)
    have hanswers := (answers_fresh vendor).run hr
    obtain ⟨cs, he, hu⟩ := (heard_fresh vendor).received_run hr
    exact horderly.performs hhandled hanswers (he.trans hu)
  · obtain ⟨l', hl', hw⟩ := (SameWork.refl (fresh vendor)).run hr
    exact ⟨l', hl', hw.executed, hw.worker, hw.phase⟩

theorem performs_due_of_stop :
    ∃ l : Lane Loopback Unit, (fresh {}).run Loopback.vendor
      [.submit ⟨.create "flow", none, ()⟩, .work, .work, .receive, .stopReceiving,
        .submit ⟨.apiVersion, none, ()⟩, .stop, .submit ⟨.exit, none, ()⟩, .stop,
        .submit ⟨.init, none, ()⟩, .work, .work, .work] = some l ∧
      l.phase = .ended ∧ l.worker.calls = [.create "flow", .apiVersion, .release] ∧
      l.Performs Loopback.vendor {}
        [.run ⟨.create "flow", none, ()⟩, .run ⟨.apiVersion, none, ()⟩, .stop,
          .run ⟨.exit, none, ()⟩, .stop, .run ⟨.init, none, ()⟩]
        l.executed := by
  obtain ⟨l, hl, hp⟩ := Option.map_eq_some_iff.1
    (rfl : ((fresh {}).run Loopback.vendor
      [.submit ⟨.create "flow", none, ()⟩, .work, .work, .receive, .stopReceiving,
        .submit ⟨.apiVersion, none, ()⟩, .stop, .submit ⟨.exit, none, ()⟩, .stop,
        .submit ⟨.init, none, ()⟩, .work, .work, .work]).map
          (fun l => (l.phase, l.worker.calls)) =
        some (.ended, [.create "flow", .apiVersion, .release]))
  obtain ⟨hphase, hcalls⟩ := Prod.mk.inj hp
  have hperforms := (performs_due Loopback.vendor {} hl).1
  exact ⟨l, hl, hphase, hcalls, hperforms.executed ▸ hperforms⟩

end Lane

end MarketFeed
