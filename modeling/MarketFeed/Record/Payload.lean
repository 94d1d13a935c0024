import MarketFeed.Record.Layout

namespace MarketFeed

structure LoginRequest where
  tradingDay : String := ""
  brokerId : String := ""
  userId : String := ""
  password : String := ""
  userProductInfo : String := ""
  macAddress : String := ""
  clientIpAddress : String := ""
  loginRemark : String := ""
  deriving DecidableEq, Inhabited

structure LogoutUser where
  brokerId : String := ""
  userId : String := ""
  deriving DecidableEq, Inhabited

structure NameServerUser where
  brokerId : String := ""
  userId : String := ""
  loginMode : String := ""
  deriving DecidableEq, Inhabited

structure ErrorInfo where
  code : Int32 := 0
  message : String := ""
  deriving DecidableEq, Inhabited

/-- A zero code reports success. -/
def ErrorInfo.isError (e : ErrorInfo) : Bool := e.code != 0

structure LoginReply where
  tradingDay : String := ""
  loginTime : String := ""
  brokerId : String := ""
  userId : String := ""
  systemName : String := ""
  frontId : Int32 := 0
  sessionId : Int32 := 0
  maxOrderRef : String := ""
  deriving DecidableEq, Inhabited

structure Instrument where
  id : String := ""
  deriving DecidableEq, Inhabited

structure Tick where
  tradingDay : String := ""
  instrumentId : String := ""
  exchangeId : String := ""
  lastPrice : Binary64 := ⟨0⟩
  preSettlementPrice : Binary64 := ⟨0⟩
  preClosePrice : Binary64 := ⟨0⟩
  openPrice : Binary64 := ⟨0⟩
  highestPrice : Binary64 := ⟨0⟩
  lowestPrice : Binary64 := ⟨0⟩
  volume : Int32 := 0
  turnover : Binary64 := ⟨0⟩
  openInterest : Binary64 := ⟨0⟩
  upperLimitPrice : Binary64 := ⟨0⟩
  lowerLimitPrice : Binary64 := ⟨0⟩
  bidPrice : Binary64 := ⟨0⟩
  bidVolume : Int32 := 0
  askPrice : Binary64 := ⟨0⟩
  askVolume : Int32 := 0
  updateTime : String := ""
  updateMillisec : Int32 := 0
  actionDay : String := ""
  deriving DecidableEq, Inhabited

structure QuoteRequest where
  tradingDay : String := ""
  instrumentId : String := ""
  quoteId : String := ""
  quoteTime : String := ""
  actionDay : String := ""
  exchangeId : String := ""
  deriving DecidableEq, Inhabited

def textColumns (keys : List String) : List Column := keys.map (⟨·, .text⟩)

def LoginRequest.layout : Layout LoginRequest where
  columns := textColumns ["TradingDay", "BrokerID", "UserID", "Password", "UserProductInfo",
    "MacAddress", "ClientIPAddress", "LoginRemark"]
  leniency := .keysAndTail
  toRow r := [.text r.tradingDay, .text r.brokerId, .text r.userId, .text r.password,
    .text r.userProductInfo, .text r.macAddress, .text r.clientIpAddress, .text r.loginRemark]
  ofRow?
    | [.text a, .text b, .text c, .text d, .text e, .text f, .text g, .text h] =>
      some ⟨a, b, c, d, e, f, g, h⟩
    | _ => none

def LogoutUser.layout : Layout LogoutUser where
  columns := textColumns ["BrokerID", "UserID"]
  leniency := .keysAndTail
  toRow r := [.text r.brokerId, .text r.userId]
  ofRow?
    | [.text a, .text b] => some ⟨a, b⟩
    | _ => none

def NameServerUser.layout : Layout NameServerUser where
  columns := textColumns ["BrokerID", "UserID", "LoginMode"]
  leniency := .keysAndTail
  toRow r := [.text r.brokerId, .text r.userId, .text r.loginMode]
  ofRow?
    | [.text a, .text b, .text c] => some ⟨a, b, c⟩
    | _ => none

def ErrorInfo.layout : Layout ErrorInfo where
  columns := [⟨"ErrorID", .int⟩, ⟨"ErrorMsg", .text⟩]
  leniency := .none
  toRow r := [.int r.code, .text r.message]
  ofRow?
    | [.int a, .text b] => some ⟨a, b⟩
    | _ => none

def LoginReply.layout : Layout LoginReply where
  columns := textColumns ["TradingDay", "LoginTime", "BrokerID", "UserID", "SystemName"] ++
    [⟨"FrontID", .int⟩, ⟨"SessionID", .int⟩, ⟨"MaxOrderRef", .text⟩]
  leniency := .none
  toRow r := [.text r.tradingDay, .text r.loginTime, .text r.brokerId, .text r.userId,
    .text r.systemName, .int r.frontId, .int r.sessionId, .text r.maxOrderRef]
  ofRow?
    | [.text a, .text b, .text c, .text d, .text e, .int f, .int g, .text h] =>
      some ⟨a, b, c, d, e, f, g, h⟩
    | _ => none

def Instrument.layout : Layout Instrument where
  columns := textColumns ["InstrumentID"]
  leniency := .none
  toRow r := [.text r.id]
  ofRow?
    | [.text a] => some ⟨a⟩
    | _ => none

def Tick.layout : Layout Tick where
  columns := textColumns ["TradingDay", "InstrumentID", "ExchangeID"] ++
    [⟨"LastPrice", .real⟩, ⟨"PreSettlementPrice", .real⟩, ⟨"PreClosePrice", .real⟩,
      ⟨"OpenPrice", .real⟩, ⟨"HighestPrice", .real⟩, ⟨"LowestPrice", .real⟩, ⟨"Volume", .int⟩,
      ⟨"Turnover", .real⟩, ⟨"OpenInterest", .real⟩, ⟨"UpperLimitPrice", .real⟩,
      ⟨"LowerLimitPrice", .real⟩, ⟨"BidPrice1", .real⟩, ⟨"BidVolume1", .int⟩,
      ⟨"AskPrice1", .real⟩, ⟨"AskVolume1", .int⟩, ⟨"UpdateTime", .text⟩,
      ⟨"UpdateMillisec", .int⟩, ⟨"ActionDay", .text⟩]
  leniency := .none
  toRow r := [.text r.tradingDay, .text r.instrumentId, .text r.exchangeId, .real r.lastPrice,
    .real r.preSettlementPrice, .real r.preClosePrice, .real r.openPrice, .real r.highestPrice,
    .real r.lowestPrice, .int r.volume, .real r.turnover, .real r.openInterest,
    .real r.upperLimitPrice, .real r.lowerLimitPrice, .real r.bidPrice, .int r.bidVolume,
    .real r.askPrice, .int r.askVolume, .text r.updateTime, .int r.updateMillisec,
    .text r.actionDay]
  ofRow?
    | [.text a, .text b, .text c, .real d, .real e, .real f, .real g, .real h, .real i, .int j,
        .real k, .real l, .real m, .real n, .real o, .int p, .real q, .int r, .text s, .int t,
        .text u] =>
      some ⟨a, b, c, d, e, f, g, h, i, j, k, l, m, n, o, p, q, r, s, t, u⟩
    | _ => none

def QuoteRequest.layout : Layout QuoteRequest where
  columns := textColumns ["TradingDay", "InstrumentID", "ForQuoteSysID", "ForQuoteTime",
    "ActionDay", "ExchangeID"]
  leniency := .none
  toRow r := [.text r.tradingDay, .text r.instrumentId, .text r.quoteId, .text r.quoteTime,
    .text r.actionDay, .text r.exchangeId]
  ofRow?
    | [.text a, .text b, .text c, .text d, .text e, .text f] => some ⟨a, b, c, d, e, f⟩
    | _ => none

end MarketFeed
