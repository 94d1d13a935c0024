import MarketFeed.Session.Run
import MarketFeed.Text.Quoted

namespace MarketFeed

structure Ticket where
  tag : Nat
  deriving DecidableEq

structure Client (σ : Type) where
  session : Session σ
  nextRequestId : Int32 := 1
  tickets : Nat := 0

namespace CallValue

def describe : CallValue → String
  | none => "None"
  | text s => "Text(" ++ Text.quote s ++ ")"
  | status n => "Status(" ++ toString n.toInt ++ ")"

def unexpected (v : CallValue) : Failure :=
  .callFailed (-1) ("unexpected return value: " ++ v.describe)

def asText (v : CallValue) : Except Failure String :=
  match v.text? with
  | some s => .ok s
  | Option.none => .error v.unexpected

def asStatus (v : CallValue) : Except Failure Int32 :=
  match v.status? with
  | some n => .ok n
  | Option.none => .error v.unexpected

end CallValue

namespace Client

variable {σ : Type}

def takeRequestId (c : Client σ) : Int32 × Client σ :=
  (c.nextRequestId, { c with nextRequestId := c.nextRequestId + 1 })

def book (c : Client σ) (request : Request) (requestId : Option Int32) :
    Except Failure Ticket × Client σ :=
  match c.session.book request requestId ⟨c.tickets, []⟩ with
  | (.error f, _) => (.error f, c)
  | (.ok (), session) => (.ok ⟨c.tickets⟩, { c with session := session, tickets := c.tickets + 1 })

def enqueue (c : Client σ) : Client σ := { c with session := c.session.enqueue }

def begin (c : Client σ) (request : Request) (requestId : Option Int32) :
    Except Failure Ticket × Client σ :=
  let (r, c) := c.book request requestId
  (r, c.enqueue)

/-- The outcome of a call once everything has settled. A call whose continuation was lost is
disconnected. -/
def outcome (c : Client σ) (t : Ticket) : Outcome :=
  match c.session.finished.find? fun f => f.tag == t.tag with
  | some f => f.outcome
  | none => .error .disconnected

def settle (V : Vendor σ) (fuel : Nat) (c : Client σ) : Client σ :=
  { c with session := c.session.settle V fuel }

end Client

end MarketFeed
