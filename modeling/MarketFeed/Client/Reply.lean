import MarketFeed.Client.Calls

namespace MarketFeed.Client

inductive Reply where
  | done
  | text (s : String)
  | status (n : Int32)
  deriving DecidableEq

/-- What a client's method makes of the outcome of its call. -/
def reply (op : Operation) (outcome : Outcome) : Except Failure Reply :=
  match op with
  | .apiVersion | .tradingDay => (outcome.bind CallValue.asText).map .text
  | .subscribe _ | .unsubscribe _ | .login | .logout =>
    (outcome.bind CallValue.asStatus).map .status
  | .create | .init | .registerFront | .registerNameServer | .registerUser | .exit =>
    outcome.map fun _ => .done

end MarketFeed.Client
