import MarketFeed.Vendor

namespace MarketFeed

namespace Loopback

structure Options where
  createError : Option String := none
  loginStatus : Int32 := 0
  loginError : Option ErrorInfo := none
  panicOn : Option String := none
  tradingDay : String := "20240105"
  apiVersion : String := "v6.3.15_20190220 9:39:53 (sim)"

/-- An entry of a line's queue: callbacks to raise one after the other, or the end of the thread. All
callbacks return: a batch that panics would end the thread before its stop, and is not modelled. -/
inductive Item where
  | raise (callbacks : List Callback)
  | stop
  deriving DecidableEq

structure Line where
  fronts : List String := []
  connected : Bool := false
  queue : List Item := []
  running : Bool := true
  joined : Bool := false
  raised : List Callback := []
  deriving DecidableEq

namespace Line

def push (l : Line) (i : Item) : Line := { l with queue := l.queue ++ [i] }

/-- The thread takes the next entry. What it raises returns, so only a stop ends it. -/
def advance? (l : Line) : Option Line :=
  if l.running then
    match l.queue with
    | [] => none
    | .raise callbacks :: rest => some { l with queue := rest, raised := l.raised ++ callbacks }
    | .stop :: rest => some { l with queue := rest, running := false }
  else none

def settle (l : Line) : Line := go l.queue.length l
where
  go : Nat → Line → Line
    | 0, l => l
    | n + 1, l =>
      match l.advance? with
      | none => l
      | some l => go n l

theorem length_queue_advance? {l l' : Line} (h : l.advance? = some l') :
    l'.queue.length < l.queue.length := by
  cases hr : l.running with
  | false => simp [advance?, hr] at h
  | true =>
    cases hq : l.queue with
    | nil => simp [advance?, hr, hq] at h
    | cons i rest =>
      cases i with
      | raise callbacks =>
        simp only [advance?, hr, hq, if_true, Option.some.injEq] at h
        simp [← h]
      | stop =>
        simp only [advance?, hr, hq, if_true, Option.some.injEq] at h
        simp [← h]

theorem advance?_go {n : Nat} {l : Line} (h : l.queue.length ≤ n) :
    (settle.go n l).advance? = none := by
  induction n generalizing l with
  | zero =>
    cases ha : l.advance? with
    | none => exact ha
    | some l' =>
      have := length_queue_advance? ha
      omega
  | succ n ih =>
    cases ha : l.advance? with
    | none => simp [settle.go, ha]
    | some l' =>
      have := length_queue_advance? ha
      simp only [settle.go, ha]
      exact ih (by omega)

theorem advance?_settle (l : Line) : l.settle.advance? = none := advance?_go (Nat.le_refl _)

end Line

inductive Event where
  | disconnect (reason : Int32)
  | reconnect
  | heartbeatWarning (timeLapse : Int32)
  | pushTick (instrumentId : String) (price : Binary64)
  | pushQuoteRequest (instrumentId : String)
  | error (error : ErrorInfo) (requestId : Int32)

def sampleTick (instrumentId : String) (price : Binary64) : Tick where
  tradingDay := "20240105"
  instrumentId := instrumentId
  exchangeId := "CFFEX"
  lastPrice := price
  preSettlementPrice := price - 10.0
  preClosePrice := price - 12.0
  openPrice := price - 5.0
  highestPrice := price + 8.0
  lowestPrice := price - 9.0
  volume := 1200
  turnover := price * 1200.0 * 300.0
  openInterest := 15000.0
  upperLimitPrice := price * 1.1
  lowerLimitPrice := price * 0.9
  bidPrice := price - 0.2
  bidVolume := 3
  askPrice := price + 0.2
  askVolume := 5
  updateTime := "09:30:00"
  updateMillisec := 500
  actionDay := "20240105"

def Event.callback (options : Options) : Event → Callback
  | disconnect reason => .frontDisconnected reason
  | reconnect => .frontConnected
  | heartbeatWarning lapse => .heartbeatWarning lapse
  | pushTick id price => .tick (sampleTick id price)
  | pushQuoteRequest id =>
    .quoteRequest
      { tradingDay := options.tradingDay, instrumentId := id, quoteId := "FQ0001",
        quoteTime := "09:30:00", actionDay := "20240105", exchangeId := "CFFEX" }
  | error e requestId => .error ⟨some e, requestId, true⟩

def acknowledge (ack : Option Instrument → Ack → Callback) : List String → List Callback
  | [] => []
  | [id] => [ack (some ⟨id⟩) ⟨none, 0, true⟩]
  | id :: ids => ack (some ⟨id⟩) ⟨none, 0, false⟩ :: acknowledge ack ids

end Loopback

/-- A vendor that answers by itself. Every session made at it has a line: a queue of callbacks and a
thread that raises them in order on the session's sink. What the gateway emits goes to the line that
was opened last, as long as that is live. -/
structure Loopback where
  options : Loopback.Options := {}
  live : Option Nat := none
  calls : List String := []
  inFlight : Nat := 0
  peak : Nat := 0
  created : Nat := 0
  released : Nat := 0
  lines : List Loopback.Line := []

namespace Loopback

open Vendor (Reply method)

def line (g : Loopback) (slot : Nat) : Line := g.lines[slot]?.getD { running := false }

def modifyLine (g : Loopback) (slot : Nat) (f : Line → Line) : Loopback :=
  { g with lines := g.lines.modify slot f }

def push (g : Loopback) (slot : Nat) (callbacks : List Callback) : Loopback :=
  g.modifyLine slot (·.push (.raise callbacks))

def emit (g : Loopback) (callbacks : List Callback) : Bool × Loopback :=
  match g.live with
  | some slot => (true, g.push slot callbacks)
  | none => (false, g)

def enter (g : Loopback) (method : String) : Loopback :=
  { g with
    calls := g.calls ++ [method], inFlight := g.inFlight + 1, peak := max g.peak (g.inFlight + 1) }

def leave (g : Loopback) : Loopback := { g with inFlight := g.inFlight - 1 }

def guarded {α : Type} (method : String) (g : Loopback) (body : Loopback → α × Loopback) :
    Reply α × Loopback :=
  let g := g.enter method
  if g.options.panicOn = some method then
    (.panicked (.text ("simulated fault in " ++ method)), g.leave)
  else
    let (a, g) := body g
    (.returned a, g.leave)

def create (g : Loopback) : Reply (Except String Nat) × Loopback :=
  g.guarded (method .create) fun g =>
    match g.options.createError with
    | some reason => (.error reason, g)
    | none =>
      (.ok g.lines.length,
        { g with lines := g.lines ++ [{}], live := some g.lines.length, created := g.created + 1 })

def pushStop (g : Loopback) (slot : Nat) : Loopback :=
  g.modifyLine slot fun l => { l.push .stop with joined := true }

/-- Waits for the line's thread, which raises all that was pushed before the stop. -/
def join (g : Loopback) (slot : Nat) : Loopback := g.modifyLine slot Line.settle

def clearLive (g : Loopback) (slot : Nat) : Loopback :=
  if g.live = some slot then { g with live := none } else g

def stopCallbacks (g : Loopback) (slot : Nat) : Loopback :=
  let g := if (g.line slot).joined then g else (g.pushStop slot).join slot
  g.clearLive slot

def release (g : Loopback) (slot : Nat) : Reply Unit × Loopback :=
  g.guarded (method .exit) fun g =>
    let g := (g.stopCallbacks slot).modifyLine slot fun l => { l with connected := false }
    ((), { g with released := g.released + 1 })

/-- A connected line pushes what the request brings and accepts it; another one has no network. -/
def ifConnected (slot : Nat) (callbacks : List (List Callback)) (g : Loopback) : Int32 × Loopback :=
  if (g.line slot).connected then (0, callbacks.foldl (push · slot) g) else (-1, g)

def start (slot : Nat) (g : Loopback) : Unit × Loopback :=
  if (g.line slot).fronts = [] then ((), g)
  else ((), (g.modifyLine slot fun l => { l with connected := true }).push slot [.frontConnected])

def addFront (slot : Nat) (address : String) (g : Loopback) : Unit × Loopback :=
  ((), g.modifyLine slot fun l => { l with fronts := l.fronts ++ [address] })

def subscribe (slot : Nat) (feed : Feed) (ids : List String) (g : Loopback) : Int32 × Loopback :=
  let ticks :=
    match feed with
    | .marketData => ids.map fun id => [Callback.tick (sampleTick id 3500.0)]
    | .quotes => []
  g.ifConnected slot (acknowledge (.subscribed feed) ids :: ticks)

def login (slot : Nat) (r : LoginRequest) (requestId : Int32) (g : Loopback) : Int32 × Loopback :=
  if (g.line slot).connected ∧ g.options.loginStatus ≠ 0 then (g.options.loginStatus, g)
  else
    g.ifConnected slot
      [[.login
        (some
          { tradingDay := g.options.tradingDay, loginTime := "09:00:00", brokerId := r.brokerId,
            userId := r.userId, systemName := "SimNow", frontId := 1, sessionId := 42,
            maxOrderRef := "1" })
        ⟨g.options.loginError, requestId, true⟩]]

def serve (slot : Nat) (g : Loopback) : (c : Vendor.Call) → Reply c.Answer × Loopback
  | .create _ =>
    match g.create with
    | (.returned (.ok _), g) => (.returned (.ok ()), g)
    | (.returned (.error reason), g) => (.returned (.error reason), g)
    | (.panicked p, g) => (.panicked p, g)
  | .release => g.release slot
  | .apiVersion => g.guarded (method .apiVersion) fun g => (g.options.apiVersion, g)
  | .tradingDay => g.guarded (method .tradingDay) fun g => (g.options.tradingDay, g)
  | .init => g.guarded (method .init) (start slot)
  | .registerFront a => g.guarded (method .registerFront) (addFront slot a)
  | .registerNameServer a => g.guarded (method .registerNameServer) (addFront slot a)
  | .registerUser _ => g.guarded (method .registerUser) fun g => ((), g)
  | .subscribe feed ids =>
    g.guarded (method (.subscribe feed)) (subscribe slot feed ids)
  | .unsubscribe feed ids =>
    g.guarded (method (.unsubscribe feed))
      (ifConnected slot [acknowledge (.unsubscribed feed) ids])
  | .login r requestId => g.guarded (method .login) (login slot r requestId)
  | .logout u requestId =>
    g.guarded (method .logout)
      (ifConnected slot [[.logout (some u) ⟨none, requestId, true⟩]])

def drop (g : Loopback) (slot : Nat) : Loopback := g.stopCallbacks slot

def newest (g : Loopback) : Nat := g.lines.length - 1

/-- A release that panics drops the handle on the way out. -/
def dropOnPanic {α : Type} (slot : Nat) : Reply α × Loopback → Loopback
  | (.returned _, g) => g
  | (.panicked _, g) => g.drop slot

/-- A gateway as the vendor of one worker, whose handle is that of the newest line. The line's
thread keeps up: what a call pushes has been raised when the call returns. -/
def vendor : Vendor Loopback where
  call c g :=
    let slot := match c with
      | .create _ => g.lines.length
      | _ => g.newest
    let before := (g.line slot).raised.length
    let ending := g.serve slot c
    let g' := match c with
      | .release => dropOnPanic slot ending
      | _ => ending.2.join slot
    { reply := ending.1, raised := (g'.line slot).raised.drop before, state := g' }
  isListening g := g.live.isSome

end Loopback

end MarketFeed
