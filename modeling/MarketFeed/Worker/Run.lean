import MarketFeed.Worker

namespace MarketFeed.Worker

inductive Move where
  | execute (request : Request) (requestId : Option Int32)
  | release

def Move.givesUp : Move → Bool
  | execute request _ => request.operation = .exit
  | release => true

variable {σ : Type}

def step (V : Vendor σ) (w : Worker σ) : Move → Worker σ
  | .execute request requestId => (w.execute V request requestId).worker
  | .release => (w.release V).worker

def run (V : Vendor σ) (w : Worker σ) (ms : List Move) : Worker σ := ms.foldl (step V) w

theorem run_append (V : Vendor σ) (w : Worker σ) (ms ns : List Move) :
    w.run V (ms ++ ns) = (w.run V ms).run V ns :=
  List.foldl_append

end MarketFeed.Worker
