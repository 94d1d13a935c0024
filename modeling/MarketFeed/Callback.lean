import MarketFeed.Event

namespace MarketFeed

structure Ack where
  error : Option ErrorInfo
  requestId : Int32
  isLast : Bool
  deriving DecidableEq

inductive Callback where
  | frontConnected
  | frontDisconnected (reason : Int32)
  | heartbeatWarning (timeLapse : Int32)
  | error (ack : Ack)
  | login (data : Option LoginReply) (ack : Ack)
  | logout (data : Option LogoutUser) (ack : Ack)
  | subscribed (feed : Feed) (data : Option Instrument) (ack : Ack)
  | unsubscribed (feed : Feed) (data : Option Instrument) (ack : Ack)
  | tick (data : Tick)
  | quoteRequest (data : QuoteRequest)
  deriving DecidableEq

namespace Notification

def acknowledgement (kind : EventKind) (data : Option Payload) (ack : Ack) : Notification :=
  response kind data ack.error ack.requestId ack.isLast

def ofCallback : Callback → Notification
  | .frontConnected => signal .frontConnected none
  | .frontDisconnected reason => signal .frontDisconnected (some (.reason reason))
  | .heartbeatWarning lapse => signal .heartbeatWarning (some (.timeLapse lapse))
  | .error ack => acknowledgement .error none ack
  | .login data ack => acknowledgement .login (data.map .login) ack
  | .logout data ack => acknowledgement .logout (data.map .logout) ack
  | .subscribed feed data ack => acknowledgement (.subscribed feed) (data.map .instrument) ack
  | .unsubscribed feed data ack => acknowledgement (.unsubscribed feed) (data.map .instrument) ack
  | .tick data => stream .tick (.tick data)
  | .quoteRequest data => stream .quoteRequest (.quoteRequest data)

/-- The acknowledgement part of a notification that answers a request. -/
def ack? (n : Notification) : Option Ack :=
  n.requestId.map fun id => ⟨n.error, id, n.isFinal⟩

def callback? (n : Notification) : Option Callback :=
  match n.kind, n.data, n.ack? with
  | .frontConnected, none, none => some .frontConnected
  | .frontDisconnected, some (.reason reason), none => some (.frontDisconnected reason)
  | .heartbeatWarning, some (.timeLapse lapse), none => some (.heartbeatWarning lapse)
  | .error, none, some ack => some (.error ack)
  | .login, none, some ack => some (.login none ack)
  | .login, some (.login reply), some ack => some (.login (some reply) ack)
  | .logout, none, some ack => some (.logout none ack)
  | .logout, some (.logout user), some ack => some (.logout (some user) ack)
  | .subscribed feed, none, some ack => some (.subscribed feed none ack)
  | .subscribed feed, some (.instrument i), some ack => some (.subscribed feed (some i) ack)
  | .unsubscribed feed, none, some ack => some (.unsubscribed feed none ack)
  | .unsubscribed feed, some (.instrument i), some ack => some (.unsubscribed feed (some i) ack)
  | .tick, some (.tick data), none => some (.tick data)
  | .quoteRequest, some (.quoteRequest data), none => some (.quoteRequest data)
  | _, _, _ => none

theorem callback?_ofCallback (c : Callback) : (ofCallback c).callback? = some c := by
  cases c with
  | login data ack => cases data <;> rfl
  | logout data ack => cases data <;> rfl
  | subscribed feed data ack => cases data <;> rfl
  | unsubscribed feed data ack => cases data <;> rfl
  | _ => rfl

end Notification

end MarketFeed
