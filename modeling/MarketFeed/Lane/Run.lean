import MarketFeed.Lane

namespace MarketFeed.Lane

inductive Move (κ : Type) where
  | submit (s : Submission κ)
  | stop
  | work
  | receive
  | stopReceiving

variable {σ κ : Type}

def step? (V : Vendor σ) (l : Lane σ κ) : Move κ → Option (Lane σ κ)
  | .submit s => some (l.submit s)
  | .stop => some l.stop
  | .work => (l.advance? V).map (·.2)
  | .receive => l.receive?.map (·.2)
  | .stopReceiving => some l.stopReceiving

def run (V : Vendor σ) (l : Lane σ κ) (ms : List (Move κ)) : Option (Lane σ κ) :=
  ms.foldlM (step? V) l

end MarketFeed.Lane
