import MarketFeed.Proofs.Lane.Step
import MarketFeed.Proofs.Worker.Sequence

namespace MarketFeed

def Worker.fresh {σ : Type} (vendor : σ) : Worker σ := { vendor := vendor }

namespace Lane

variable {σ κ : Type}

def exited (l : Lane σ κ) : Bool := l.executed.any fun c => c.submission.operation = .exit

/-- The job the worker has taken and not sent back. A worker that was told to stop stays at that. -/
def current (l : Lane σ κ) : List (Job κ) :=
  match l.phase with
  | .waiting => []
  | .busy s => [.run s]
  | .ended => if l.exited then [] else [.stop]

def executing (l : Lane σ κ) : List (Submission κ) :=
  match l.phase with
  | .busy s => [s]
  | _ => []

def served (l : Lane σ κ) : List (Submission κ) := l.executed.map (·.submission)

/-- What was issued is what was carried out, then the job the worker is at, then what is still
queued. The results are those of a worker that carries out the same requests without a queue. -/
structure Orderly (V : Vendor σ) (vendor : σ) (l : Lane σ κ) : Prop where
  issued : l.issued = l.served.map .run ++ l.current ++ l.jobs.items
  results : l.executed.map (·.result) = (Worker.fresh vendor).results V l.served
  worker : (l.phase = .ended → l.exited = true) →
    l.worker = (Worker.fresh vendor).serve V l.served
  stopped : l.phase = .ended → l.exited = false →
    l.worker = (((Worker.fresh vendor).serve V l.served).release V).worker
  exited : l.exited = true → l.phase = .ended
  exit_last : ∀ c ∈ l.executed.dropLast, c.submission.operation ≠ .exit

theorem orderly_fresh (V : Vendor σ) (vendor : σ) : (fresh vendor : Lane σ κ).Orderly V vendor where
  issued := rfl
  results := rfl
  worker _ := rfl
  stopped h := by cases h
  exited h := by cases h
  exit_last c h := by cases h

theorem Orderly.issue {V : Vendor σ} {vendor : σ} {l : Lane σ κ} (h : l.Orderly V vendor)
    (j : Job κ) : (l.issue j).Orderly V vendor where
  issued := by
    change l.issued ++ [j] = l.served.map .run ++ l.current ++ (l.jobs.items ++ [j])
    rw [h.issued, List.append_assoc _ l.jobs.items]
  results := h.results
  worker := h.worker
  stopped := h.stopped
  exited := h.exited
  exit_last := h.exit_last

theorem Orderly.not_exited {V : Vendor σ} {vendor : σ} {l : Lane σ κ} (h : l.Orderly V vendor)
    (hp : l.phase ≠ .ended) : l.exited = false := by
  cases he : l.exited with
  | false => rfl
  | true => exact absurd (h.exited he) hp

theorem Orderly.take {V : Vendor σ} {vendor : σ} {l : Lane σ κ} (h : l.Orderly V vendor)
    {s : Submission κ} {rest : List (Job κ)} (hp : l.phase = .waiting)
    (hj : l.jobs.items = .run s :: rest) :
    Orderly V vendor { l with jobs := ⟨rest⟩, phase := .busy s } where
  issued := by
    have hi := h.issued
    simp only [current, hp, hj, List.append_nil] at hi
    change l.issued = l.served.map .run ++ [.run s] ++ rest
    rw [hi, List.append_assoc]
    rfl
  results := h.results
  worker _ := h.worker fun he => absurd he (not_ended_of_waiting hp)
  stopped he := by cases he
  exited he := by rw [h.exited he] at hp; cases hp
  exit_last := h.exit_last

theorem Orderly.finish {V : Vendor σ} {vendor : σ} {l : Lane σ κ} (h : l.Orderly V vendor)
    {rest : List (Job κ)} (hp : l.phase = .waiting) (hj : l.jobs.items = .stop :: rest) :
    Orderly V vendor
      { l with jobs := ⟨rest⟩, worker := (l.worker.release V).worker, phase := .ended } := by
  have hx : l.exited = false := h.not_exited (not_ended_of_waiting hp)
  have hw := h.worker fun he => absurd he (not_ended_of_waiting hp)
  apply Orderly.mk
  case issued =>
    have hi := h.issued
    simp only [current, hp, hj, List.append_nil] at hi
    change l.issued = l.served.map .run ++ (if l.exited then [] else [.stop]) ++ rest
    rw [hi, hx, List.append_assoc]
    rfl
  case results => exact h.results
  case worker =>
    intro he
    have hx' : l.exited = true := he rfl
    rw [hx] at hx'
    cases hx'
  case stopped =>
    intro _ _
    change (l.worker.release V).worker = _
    rw [hw]
    rfl
  case exited => exact fun _ => rfl
  case exit_last => exact h.exit_last

theorem served_of_append {l l' : Lane σ κ} {c : Completion κ}
    (h : l'.executed = l.executed ++ [c]) : l'.served = l.served ++ [c.submission] := by
  simp only [served, h, List.map_append, List.map_cons, List.map_nil]

theorem exited_of_append {l l' : Lane σ κ} {c : Completion κ}
    (h : l'.executed = l.executed ++ [c]) :
    l'.exited = (l.exited || decide (c.submission.operation = .exit)) := by
  simp only [exited, h, List.any_append, List.any_cons, List.any_nil, Bool.or_false]

theorem Orderly.execute {V : Vendor σ} {vendor : σ} {l : Lane σ κ} (h : l.Orderly V vendor)
    {s : Submission κ} {e : Worker.Execution σ} (hp : l.phase = .busy s)
    (he : l.worker.execute V s.request s.requestId = e) :
    (l.carryOut s e).Orderly V vendor := by
  have hx : l.exited = false := h.not_exited (not_ended_of_busy hp)
  have hw := h.worker fun he => absurd he (not_ended_of_busy hp)
  have hex : (l.carryOut s e).executed = l.executed ++ [⟨s, e.result⟩] := rfl
  have hph : (l.carryOut s e).phase = if s.operation = .exit then .ended else .waiting := rfl
  have hs : (l.carryOut s e).served = l.served ++ [s] := served_of_append hex
  have hexit : (l.carryOut s e).exited = decide (s.operation = .exit) := by
    rw [exited_of_append hex, hx, Bool.false_or]
  have hcur : (l.carryOut s e).current = [] := by
    rw [current, hph, hexit]
    by_cases ho : s.operation = .exit <;> simp only [ho, if_true, if_false, decide_true]
  have hw' : (l.carryOut s e).worker = (Worker.fresh vendor).serve V (l.served ++ [s]) := by
    rw [Worker.serve_append, ← hw]
    exact congrArg Worker.Execution.worker he.symm
  apply Orderly.mk
  case issued =>
    have hi := h.issued
    simp only [current, hp] at hi
    change l.issued = _ ++ _ ++ l.jobs.items
    rw [hi, hcur, hs, List.map_append, List.append_nil]
    rfl
  case results =>
    rw [hex, hs, Worker.results_append, ← hw, List.map_append, h.results, ← he]
    rfl
  case worker =>
    intro _
    rw [hw', hs]
  case stopped =>
    intro hend hfalse
    rw [hexit, decide_eq_false_iff_not] at hfalse
    rw [hph, if_neg hfalse] at hend
    cases hend
  case exited =>
    intro ho
    rw [hexit, decide_eq_true_eq] at ho
    rw [hph, if_pos ho]
  case exit_last =>
    intro c hc
    rw [hex, List.dropLast_concat] at hc
    have hall := List.any_eq_false.1 hx c hc
    simpa using hall

theorem Orderly.send {V : Vendor σ} {vendor : σ} {l : Lane σ κ} (h : l.Orderly V vendor)
    (c : Completion κ) : (l.send c).Orderly V vendor := by
  obtain ⟨cs, us, he⟩ := l.send_eq c
  rw [he]
  exact ⟨h.issued, h.results, h.worker, h.stopped, h.exited, h.exit_last⟩

theorem Orderly.advance {V : Vendor σ} {vendor : σ} {l l' : Lane σ κ} (h : l.Orderly V vendor)
    (ha : Advance V l l') : l'.Orderly V vendor := by
  cases ha with
  | take s rest hp hj => exact h.take hp hj
  | finish rest hp hj => exact h.finish hp hj
  | execute s e hp he => exact (h.execute hp he).send _

theorem Orderly.step {V : Vendor σ} {vendor : σ} {l l' : Lane σ κ} (h : l.Orderly V vendor)
    (hs : Step V l l') : l'.Orderly V vendor := by
  cases hs with
  | submit s => exact h.issue _
  | stop =>
    have hl : Orderly V vendor { l with stopped := true } :=
      ⟨h.issued, h.results, h.worker, h.stopped, h.exited, h.exit_last⟩
    exact hl.issue _
  | stopAgain => exact h
  | work l' ha => exact h.advance ha
  | receive c rest hc => exact ⟨h.issued, h.results, h.worker, h.stopped, h.exited, h.exit_last⟩
  | stopReceiving => exact ⟨h.issued, h.results, h.worker, h.stopped, h.exited, h.exit_last⟩

theorem orderly_of_run {V : Vendor σ} {vendor : σ} {l : Lane σ κ} {ms : List (Move κ)}
    (h : (fresh vendor).run V ms = some l) : l.Orderly V vendor :=
  run_induction (fun _ _ hl hs => hl.step hs) h (orderly_fresh V vendor)

theorem filterMap_run (xs : List (Submission κ)) :
    (xs.map Job.run).filterMap Job.submission? = xs := by
  rw [List.filterMap_map]
  exact List.filterMap_some

theorem Orderly.submitted_eq {V : Vendor σ} {vendor : σ} {l : Lane σ κ}
    (h : l.Orderly V vendor) : l.submitted = l.served ++ l.executing ++ l.queued := by
  have hc : l.current.filterMap Job.submission? = l.executing := by
    cases hp : l.phase with
    | waiting => simp only [current, executing, hp, List.filterMap_nil]
    | busy s => simp only [current, executing, hp, List.filterMap_cons, Job.submission?,
        List.filterMap_nil]
    | ended =>
      simp only [current, executing, hp]
      cases l.exited <;> rfl
  rw [submitted, h.issued, List.filterMap_append, List.filterMap_append, filterMap_run, hc]
  rfl

end Lane

end MarketFeed
