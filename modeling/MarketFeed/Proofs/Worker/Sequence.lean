import MarketFeed.Lane

namespace MarketFeed.Worker

variable {σ κ : Type}

def serve (V : Vendor σ) (w : Worker σ) : List (Submission κ) → Worker σ
  | [] => w
  | s :: later => serve V (w.execute V s.request s.requestId).worker later

/-- What some requests result in, each carried out by the worker that the ones before it left. -/
def results (V : Vendor σ) (w : Worker σ) : List (Submission κ) → List CallResult
  | [] => []
  | s :: later =>
    let e := w.execute V s.request s.requestId
    e.result :: results V e.worker later

theorem serve_append (V : Vendor σ) (w : Worker σ) (xs ys : List (Submission κ)) :
    w.serve V (xs ++ ys) = (w.serve V xs).serve V ys := by
  induction xs generalizing w with
  | nil => rfl
  | cons x xs ih => exact ih _

theorem results_append (V : Vendor σ) (w : Worker σ) (xs ys : List (Submission κ)) :
    w.results V (xs ++ ys) = w.results V xs ++ (w.serve V xs).results V ys := by
  induction xs generalizing w with
  | nil => rfl
  | cons x xs ih => exact congrArg (_ :: ·) (ih _)

theorem length_results (V : Vendor σ) (w : Worker σ) (xs : List (Submission κ)) :
    (w.results V xs).length = xs.length := by
  induction xs generalizing w with
  | nil => rfl
  | cons x xs ih => simp only [results, List.length_cons, ih]

end MarketFeed.Worker
