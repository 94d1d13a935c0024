import MarketFeed.Record.Payload

namespace MarketFeed

inductive Feed where
  | marketData
  | quotes
  deriving DecidableEq, Repr

inductive EventKind where
  | frontConnected
  | frontDisconnected
  | heartbeatWarning
  | login
  | logout
  | error
  | subscribed (feed : Feed)
  | unsubscribed (feed : Feed)
  | tick
  | quoteRequest
  deriving DecidableEq, Repr

namespace EventKind

def all : List EventKind :=
  [frontConnected, frontDisconnected, heartbeatWarning, login, logout, error,
    subscribed .marketData, unsubscribed .marketData, subscribed .quotes, unsubscribed .quotes,
    tick, quoteRequest]

def index : EventKind → Fin 12
  | frontConnected => 0
  | frontDisconnected => 1
  | heartbeatWarning => 2
  | login => 3
  | logout => 4
  | error => 5
  | subscribed .marketData => 6
  | unsubscribed .marketData => 7
  | subscribed .quotes => 8
  | unsubscribed .quotes => 9
  | tick => 10
  | quoteRequest => 11

theorem all_index (k : EventKind) : all[k.index]? = some k := by
  cases k with
  | subscribed f | unsubscribed f => cases f <;> rfl
  | _ => rfl

theorem index_injective {a b : EventKind} (h : a.index = b.index) : a = b := by
  have ha := all_index a
  rw [h, all_index b] at ha
  exact (Option.some.inj ha).symm

def name : EventKind → String
  | frontConnected => "FrontConnected"
  | frontDisconnected => "FrontDisconnected"
  | heartbeatWarning => "HeartBeatWarning"
  | login => "RspUserLogin"
  | logout => "RspUserLogout"
  | error => "RspError"
  | subscribed .marketData => "RspSubMarketData"
  | unsubscribed .marketData => "RspUnSubMarketData"
  | subscribed .quotes => "RspSubForQuoteRsp"
  | unsubscribed .quotes => "RspUnSubForQuoteRsp"
  | tick => "RtnDepthMarketData"
  | quoteRequest => "RtnForQuoteRsp"

def ofName? (s : String) : Option EventKind := all.find? fun k => k.name = s

/-- Events that no request asked for one by one. -/
def isStream : EventKind → Bool
  | tick | quoteRequest => true
  | _ => false

end EventKind

inductive Payload where
  | reason (code : Int32)
  | timeLapse (millis : Int32)
  | login (reply : LoginReply)
  | logout (user : LogoutUser)
  | instrument (i : Instrument)
  | tick (t : Tick)
  | quoteRequest (q : QuoteRequest)
  deriving DecidableEq

structure Notification where
  kind : EventKind
  data : Option Payload
  error : Option ErrorInfo
  requestId : Option Int32
  isFinal : Bool
  deriving DecidableEq

namespace Notification

def signal (kind : EventKind) (data : Option Payload) : Notification :=
  ⟨kind, data, none, none, true⟩

def response (kind : EventKind) (data : Option Payload) (error : Option ErrorInfo)
    (requestId : Int32) (isFinal : Bool) : Notification :=
  ⟨kind, data, error, some requestId, isFinal⟩

def stream (kind : EventKind) (data : Payload) : Notification := signal kind (some data)

def isError (n : Notification) : Bool := n.error.any ErrorInfo.isError

end Notification

end MarketFeed
