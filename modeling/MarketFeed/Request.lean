import MarketFeed.Event

namespace MarketFeed

inductive Operation where
  | create
  | apiVersion
  | init
  | tradingDay
  | registerFront
  | registerNameServer
  | registerUser
  | subscribe (feed : Feed)
  | unsubscribe (feed : Feed)
  | login
  | logout
  | exit
  deriving DecidableEq, Repr

inductive CallValue where
  | none
  | text (s : String)
  | status (n : Int32)
  deriving DecidableEq

namespace CallValue

def text? : CallValue → Option String
  | text s => some s
  | _ => Option.none

def status? : CallValue → Option Int32
  | status n => some n
  | _ => Option.none

end CallValue

inductive ReturnShape where
  | nothing
  | text
  | status
  deriving DecidableEq, Repr

def ReturnShape.fits : ReturnShape → CallValue → Bool
  | nothing, .none => true
  | text, .text _ => true
  | status, .status _ => true
  | _, _ => false

namespace Operation

def all : List Operation :=
  [create, apiVersion, init, tradingDay, registerFront, registerNameServer, registerUser,
    subscribe .marketData, unsubscribe .marketData, subscribe .quotes, unsubscribe .quotes,
    login, logout, exit]

def name : Operation → String
  | create => "createFtdcMdApi"
  | apiVersion => "getApiVersion"
  | init => "init"
  | tradingDay => "getTradingDay"
  | registerFront => "registerFront"
  | registerNameServer => "registerNameServer"
  | registerUser => "registerFensUserInfo"
  | subscribe .marketData => "subscribeMarketData"
  | unsubscribe .marketData => "unSubscribeMarketData"
  | subscribe .quotes => "subscribeForQuoteRsp"
  | unsubscribe .quotes => "unSubscribeForQuoteRsp"
  | login => "reqUserLogin"
  | logout => "reqUserLogout"
  | exit => "exit"

def returns : Operation → ReturnShape
  | apiVersion | tradingDay => .text
  | subscribe _ | unsubscribe _ | login | logout => .status
  | _ => .nothing

/-- Operations that make sense only once the gateway's own thread runs. -/
def requiresInit : Operation → Bool
  | tradingDay | subscribe _ | unsubscribe _ | login | logout => true
  | _ => false

end Operation

inductive Request where
  | create (flowDir : String)
  | apiVersion
  | init
  | tradingDay
  | registerFront (address : String)
  | registerNameServer (address : String)
  | registerUser (user : NameServerUser)
  | subscribe (feed : Feed) (ids : List String)
  | unsubscribe (feed : Feed) (ids : List String)
  | login (request : LoginRequest)
  | logout (user : LogoutUser)
  | exit
  deriving DecidableEq

def Request.operation : Request → Operation
  | create _ => .create
  | apiVersion => .apiVersion
  | init => .init
  | tradingDay => .tradingDay
  | registerFront _ => .registerFront
  | registerNameServer _ => .registerNameServer
  | registerUser _ => .registerUser
  | subscribe feed _ => .subscribe feed
  | unsubscribe feed _ => .unsubscribe feed
  | login _ => .login
  | logout _ => .logout
  | exit => .exit

end MarketFeed
