import MarketFeed.Queue
import MarketFeed.Worker

namespace MarketFeed

/-- A request on its way, with what is to be done about its outcome. -/
structure Submission (κ : Type) where
  request : Request
  requestId : Option Int32
  continuation : κ

def Submission.operation {κ : Type} (s : Submission κ) : Operation := s.request.operation

structure Completion (κ : Type) where
  submission : Submission κ
  result : CallResult

inductive Job (κ : Type) where
  | run (s : Submission κ)
  | stop

def Job.submission? {κ : Type} : Job κ → Option (Submission κ)
  | run s => some s
  | stop => none

inductive Phase (κ : Type) where
  | waiting
  | busy (s : Submission κ)
  | ended

/-- Requests wait in a queue for the worker, which carries them out one at a time and sends each
back with its result, up to the first exit or to where it is told to stop. A lane keeps the jobs it
was ever given, the requests carried out so far, and the completions that nobody was there to take.
-/
structure Lane (σ κ : Type) where
  worker : Worker σ
  jobs : Queue (Job κ) := .empty
  phase : Phase κ := .waiting
  stopped : Bool := false
  receiving : Bool := true
  completions : Queue (Completion κ) := .empty
  issued : List (Job κ) := []
  executed : List (Completion κ) := []
  unheard : List (Completion κ) := []

namespace Lane

variable {σ κ : Type}

def fresh (vendor : σ) : Lane σ κ := { worker := { vendor := vendor } }

def issue (l : Lane σ κ) (j : Job κ) : Lane σ κ :=
  { l with jobs := l.jobs.push j, issued := l.issued ++ [j] }

def submit (l : Lane σ κ) (s : Submission κ) : Lane σ κ := l.issue (.run s)

/-- Asks the worker to give the handle up once the requests already queued have run; asking again
changes nothing. -/
def stop (l : Lane σ κ) : Lane σ κ :=
  if l.stopped then l else { l with stopped := true }.issue .stop

def stopReceiving (l : Lane σ κ) : Lane σ κ :=
  { l with
    receiving := false
    completions := .empty
    unheard := l.unheard ++ l.completions.items }

def send (l : Lane σ κ) (c : Completion κ) : Lane σ κ :=
  if l.receiving then { l with completions := l.completions.push c }
  else { l with unheard := l.unheard ++ [c] }

def receive? (l : Lane σ κ) : Option (Completion κ × Lane σ κ) :=
  l.completions.pop?.map fun (c, rest) => (c, { l with completions := rest })

/-- One step of the worker's thread, with the callbacks raised by it: it takes the next job, or
carries out the request it has taken. `none` when it waits or has ended. -/
def advance? (V : Vendor σ) (l : Lane σ κ) : Option (List Callback × Lane σ κ) :=
  match l.phase with
  | .ended => none
  | .waiting =>
    match l.jobs.pop? with
    | none => none
    | some (.run s, jobs) => some ([], { l with jobs := jobs, phase := .busy s })
    | some (.stop, jobs) =>
      let r := l.worker.release V
      some (r.raised, { l with jobs := jobs, worker := r.worker, phase := .ended })
  | .busy s =>
    let e := l.worker.execute V s.request s.requestId
    let phase := if s.operation = .exit then .ended else .waiting
    let done : Completion κ := ⟨s, e.result⟩
    some (e.raised,
      { l with worker := e.worker, phase := phase, executed := l.executed ++ [done] }.send done)

def workLeft (l : Lane σ κ) : Nat :=
  match l.phase with
  | .ended => 0
  | .waiting => 2 * l.jobs.size
  | .busy _ => 2 * l.jobs.size + 1

def runFor (V : Vendor σ) : Nat → Lane σ κ → List Callback × Lane σ κ
  | 0, l => ([], l)
  | n + 1, l =>
    match l.advance? V with
    | none => ([], l)
    | some (raised, l) =>
      let (more, l) := runFor V n l
      (raised ++ more, l)

def drain (V : Vendor σ) (l : Lane σ κ) : List Callback × Lane σ κ := l.runFor V l.workLeft

theorem workLeft_send (l : Lane σ κ) (c : Completion κ) : (l.send c).workLeft = l.workLeft := by
  cases h : l.receiving <;> simp [send, workLeft, h]

theorem workLeft_advance? {V : Vendor σ} {l l' : Lane σ κ} {raised : List Callback}
    (h : l.advance? V = some (raised, l')) : l'.workLeft < l.workLeft := by
  cases hp : l.phase with
  | ended => simp [advance?, hp] at h
  | waiting =>
    cases hj : l.jobs.pop? with
    | none => simp [advance?, hp, hj] at h
    | some r =>
      obtain ⟨job, rest⟩ := r
      have hs : l.jobs.size = rest.size + 1 := by
        simp [Queue.size, Queue.pop?_eq_some_iff.1 hj]
      cases job with
      | run s =>
        simp only [advance?, hp, hj, Option.some.injEq, Prod.mk.injEq] at h
        simp only [← h.2, workLeft, hp, hs]
        omega
      | stop =>
        simp only [advance?, hp, hj, Option.some.injEq, Prod.mk.injEq] at h
        simp only [← h.2, workLeft, hp, hs]
        omega
  | busy s =>
    simp only [advance?, hp, Option.some.injEq, Prod.mk.injEq] at h
    rw [← h.2, workLeft_send]
    by_cases he : s.operation = .exit <;> simp [workLeft, hp, he]

theorem advance?_of_workLeft {V : Vendor σ} {l : Lane σ κ} (h : l.workLeft = 0) :
    l.advance? V = none := by
  cases ha : l.advance? V with
  | none => rfl
  | some r =>
    have := workLeft_advance? ha
    omega

theorem advance?_runFor {V : Vendor σ} {n : Nat} {l : Lane σ κ} (h : l.workLeft ≤ n) :
    (l.runFor V n).2.advance? V = none := by
  induction n generalizing l with
  | zero => exact advance?_of_workLeft (Nat.le_zero.1 h)
  | succ n ih =>
    cases ha : l.advance? V with
    | none => simp [runFor, ha]
    | some r =>
      have := workLeft_advance? ha
      simp only [runFor, ha]
      exact ih (by omega)

theorem advance?_drain (V : Vendor σ) (l : Lane σ κ) : (l.drain V).2.advance? V = none :=
  advance?_runFor (Nat.le_refl _)

def submitted (l : Lane σ κ) : List (Submission κ) := l.issued.filterMap Job.submission?

def queued (l : Lane σ κ) : List (Submission κ) := l.jobs.items.filterMap Job.submission?

def abandoned (l : Lane σ κ) : List (Submission κ) := l.unheard.map (·.submission)

end Lane

end MarketFeed
