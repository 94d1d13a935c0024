import MarketFeed.Client.Connect

namespace MarketFeed

/-- The receiving end of a stream of events: the listener it belongs to, and how many of that
listener's notifications it has given out. -/
structure EventStream where
  registration : Nat
  kind : EventKind
  taken : Nat := 0
  deriving DecidableEq

namespace Client

variable {σ : Type}

def events (c : Client σ) (kind : EventKind) : EventStream × Client σ :=
  (⟨c.session.registrations, kind, 0⟩,
    { c with session := (c.session.on kind ⟨kind.name, []⟩).2 })

def eventsNamed (c : Client σ) (event : String) : Except Failure EventStream × Client σ :=
  match EventKind.named event with
  | .error f => (.error f, c)
  | .ok kind =>
    let (stream, c) := c.events kind
    (.ok stream, c)

def received (c : Client σ) (e : EventStream) : List Notification :=
  c.session.deliveries.filterMap fun d =>
    if d.listener.any fun r => r.number == e.registration then some d.notification else none

/-- Whether nothing more can come: the stream's listener is no longer in the table, or went with the
whole session. -/
def isClosed (c : Client σ) (e : EventStream) : Bool :=
  c.session.isGone ||
    !(c.session.listeners.find? e.kind).any fun r => r.number == e.registration

def receive (c : Client σ) (e : EventStream) : List Notification × EventStream :=
  let all := c.received e
  (all.drop e.taken, { e with taken := all.length })

end Client

end MarketFeed
