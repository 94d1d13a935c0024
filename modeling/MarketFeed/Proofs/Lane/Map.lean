import MarketFeed.Lane

namespace MarketFeed

variable {σ κ κ' : Type}

def Submission.map (f : κ → κ') (s : Submission κ) : Submission κ' :=
  ⟨s.request, s.requestId, f s.continuation⟩

def Completion.map (f : κ → κ') (c : Completion κ) : Completion κ' :=
  ⟨c.submission.map f, c.result⟩

def Job.map (f : κ → κ') : Job κ → Job κ'
  | run s => .run (s.map f)
  | stop => .stop

def Phase.map (f : κ → κ') : Phase κ → Phase κ'
  | waiting => .waiting
  | busy s => .busy (s.map f)
  | ended => .ended

namespace Lane

def map (f : κ → κ') (l : Lane σ κ) : Lane σ κ' where
  worker := l.worker
  jobs := ⟨l.jobs.items.map (Job.map f)⟩
  phase := l.phase.map f
  stopped := l.stopped
  receiving := l.receiving
  completions := ⟨l.completions.items.map (Completion.map f)⟩
  issued := l.issued.map (Job.map f)
  executed := l.executed.map (Completion.map f)
  unheard := l.unheard.map (Completion.map f)

variable (f : κ → κ')

theorem map_issue (l : Lane σ κ) (j : Job κ) : (l.issue j).map f = (l.map f).issue (j.map f) := by
  simp only [map, issue, Queue.push, List.map_append, List.map_cons, List.map_nil]

theorem map_submit (l : Lane σ κ) (s : Submission κ) :
    (l.submit s).map f = (l.map f).submit (s.map f) :=
  l.map_issue f (.run s)

theorem map_stop (l : Lane σ κ) : l.stop.map f = (l.map f).stop := by
  unfold stop
  cases hs : l.stopped with
  | true => exact (if_pos hs).symm
  | false =>
    rw [if_neg Bool.false_ne_true, map_issue]
    exact (if_neg (Bool.eq_false_iff.1 hs)).symm

theorem map_stopReceiving (l : Lane σ κ) :
    l.stopReceiving.map f = (l.map f).stopReceiving := by
  simp only [map, stopReceiving, List.map_append]
  rfl

theorem map_send (l : Lane σ κ) (c : Completion κ) :
    (l.send c).map f = (l.map f).send (c.map f) := by
  unfold send
  cases hr : l.receiving <;>
    simp only [map, hr, Queue.push, List.map_append, List.map_cons, List.map_nil,
      Bool.false_eq_true, if_true, if_false]

theorem receive?_map (l : Lane σ κ) :
    (l.map f).receive? = l.receive?.map fun (c, l') => (c.map f, l'.map f) := by
  cases hi : l.completions.items with
  | nil => simp [receive?, map, Queue.pop?, hi]
  | cons c rest => simp [receive?, map, Queue.pop?, hi]

theorem advance?_map (V : Vendor σ) (l : Lane σ κ) :
    (l.map f).advance? V = (l.advance? V).map fun (raised, l') => (raised, l'.map f) := by
  cases hp : l.phase with
  | ended => simp only [advance?, hp, map, Phase.map, Option.map_none]
  | waiting =>
    rcases hj : l.jobs.items with _ | ⟨_ | _, rest⟩ <;>
      simp [advance?, hp, map, Phase.map, Queue.pop?, hj, Job.map]
  | busy s =>
    have hp' : (l.map f).phase = .busy (s.map f) := congrArg (Phase.map f) hp
    have hop : (s.map f).operation = s.operation := rfl
    simp only [advance?, hp, hp', hop, Option.map_some, map_send]
    simp only [map, List.map_append, List.map_cons, List.map_nil]
    split <;> rfl

end Lane

end MarketFeed
