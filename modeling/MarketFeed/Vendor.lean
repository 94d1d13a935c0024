import MarketFeed.Failure
import MarketFeed.Callback

namespace MarketFeed

inductive Panic where
  | text (s : String)
  | other
  deriving DecidableEq

def Panic.message : Panic → String
  | text s => s
  | other => "unknown panic payload"

namespace Vendor

inductive Call where
  | create (flowDir : String)
  | apiVersion
  | init
  | tradingDay
  | registerFront (address : String)
  | registerNameServer (address : String)
  | registerUser (user : NameServerUser)
  | subscribe (feed : Feed) (ids : List String)
  | unsubscribe (feed : Feed) (ids : List String)
  | login (request : LoginRequest) (requestId : Int32)
  | logout (user : LogoutUser) (requestId : Int32)
  | release
  deriving DecidableEq

def Call.operation : Call → Operation
  | create _ => .create
  | apiVersion => .apiVersion
  | init => .init
  | tradingDay => .tradingDay
  | registerFront _ => .registerFront
  | registerNameServer _ => .registerNameServer
  | registerUser _ => .registerUser
  | subscribe feed _ => .subscribe feed
  | unsubscribe feed _ => .unsubscribe feed
  | login .. => .login
  | logout .. => .logout
  | release => .exit

def method : Operation → String
  | .create => "create"
  | .apiVersion => "api_version"
  | .init => "init"
  | .tradingDay => "trading_day"
  | .registerFront => "register_front"
  | .registerNameServer => "register_name_server"
  | .registerUser => "register_fens_user_info"
  | .subscribe .marketData => "subscribe_market_data"
  | .unsubscribe .marketData => "unsubscribe_market_data"
  | .subscribe .quotes => "subscribe_for_quote_rsp"
  | .unsubscribe .quotes => "unsubscribe_for_quote_rsp"
  | .login => "req_user_login"
  | .logout => "req_user_logout"
  | .exit => "release"

def Call.name (c : Call) : String := method c.operation

/-- What a call returns: a creation may be refused with a reason, requests to the exchange return a
status, the two questions a text. -/
abbrev Call.Answer : Call → Type
  | .create _ => Except String Unit
  | .apiVersion => String
  | .tradingDay => String
  | .subscribe .. => Int32
  | .unsubscribe .. => Int32
  | .login .. => Int32
  | .logout .. => Int32
  | _ => Unit

inductive Reply (α : Type) where
  | returned (a : α)
  | panicked (p : Panic)

structure Exchange where
  call : Call
  reply : Reply call.Answer

/-- The end of a call, the callbacks raised by it, and the vendor after it. -/
structure Turn (c : Call) (σ : Type) where
  reply : Reply c.Answer
  raised : List Callback
  state : σ

end Vendor

/-- A vendor: how it answers the next call, which may depend on all calls before, and whether a
callback from outside would now reach the session's sink. -/
structure Vendor (σ : Type) where
  call : (c : Vendor.Call) → σ → Vendor.Turn c σ
  isListening : σ → Bool

def statusMessage (status : Int32) : String :=
  if status = 0 then "accepted"
  else if status = -1 then "network connection failed"
  else if status = -2 then "too many unprocessed requests"
  else if status = -3 then "request rate limit exceeded"
  else "request rejected by native session"

end MarketFeed
