import MarketFeed.Vendor

namespace MarketFeed

/-- The worker is the only holder of the vendor's handle. -/
structure Worker (σ : Type) where
  vendor : σ
  hasHandle : Bool := false
  initialized : Bool := false
  released : Bool := false
  exchanges : List Vendor.Exchange := []

def Worker.calls {σ : Type} (w : Worker σ) : List Vendor.Call := w.exchanges.map (·.call)

/-- The call that a request is carried out by. Logins and logouts without a request number get 0. -/
def Request.vendorCall (requestId : Option Int32) : Request → Vendor.Call
  | create flowDir => .create flowDir
  | apiVersion => .apiVersion
  | init => .init
  | tradingDay => .tradingDay
  | registerFront address => .registerFront address
  | registerNameServer address => .registerNameServer address
  | registerUser user => .registerUser user
  | subscribe feed ids => .subscribe feed ids
  | unsubscribe feed ids => .unsubscribe feed ids
  | login request => .login request (requestId.getD 0)
  | logout user => .logout user (requestId.getD 0)
  | exit => .release

namespace CallResult

def notReady (detail : String) : CallResult := .failed (.callFailed (-1) detail)

def ofStatus (status : Int32) : CallResult :=
  if status = 0 then .ok (.status 0)
  else ⟨status, .status status, some (.callFailed status (statusMessage status))⟩

def ofPanic (p : Panic) : CallResult := .failed (.nativePanic p.message)

def ofRelease : Option Panic → CallResult
  | none => .ok .none
  | some p => ofPanic p

def ofAnswer : (c : Vendor.Call) → c.Answer → CallResult
  | .create _, .ok () => .ok .none
  | .create _, .error reason =>
    .failed (.callFailed (-1) ("Failed to create native session: " ++ reason))
  | .apiVersion, s => .ok (.text s)
  | .tradingDay, s => .ok (.text s)
  | .subscribe _ _, n => ofStatus n
  | .unsubscribe _ _, n => ofStatus n
  | .login _ _, n => ofStatus n
  | .logout _ _, n => ofStatus n
  | .init, _ => .ok .none
  | .registerFront _, _ => .ok .none
  | .registerNameServer _, _ => .ok .none
  | .registerUser _, _ => .ok .none
  | .release, _ => .ok .none

/-- A success must have the shape that its operation declares. -/
def checked (op : Operation) (r : CallResult) : CallResult :=
  if r.error = none ∧ op.returns.fits r.value = false then
    .failed (.callFailed (-1) ("unexpected return value for " ++ op.name))
  else r

end CallResult

namespace Worker

variable {σ : Type}

def refusal? (w : Worker σ) (op : Operation) : Option String :=
  if w.released then some "native session already released"
  else
    match op with
    | .create => if w.hasHandle then some "native session already created" else none
    | .exit => none
    | op =>
      if !w.hasHandle then some "native session not created"
      else if op.requiresInit && !w.initialized then some "native session not initialized"
      else none

def afterReturn (w : Worker σ) : (c : Vendor.Call) → c.Answer → Worker σ
  | .create _, .ok () => { w with hasHandle := true }
  | .init, _ => { w with initialized := true }
  | _, _ => w

structure Execution (σ : Type) where
  result : CallResult
  raised : List Callback
  worker : Worker σ

def invoke (V : Vendor σ) (w : Worker σ) (c : Vendor.Call) : Execution σ :=
  let turn := V.call c w.vendor
  let w := { w with vendor := turn.state, exchanges := w.exchanges ++ [⟨c, turn.reply⟩] }
  match turn.reply with
  | .returned a => ⟨.ofAnswer c a, turn.raised, w.afterReturn c a⟩
  | .panicked p => ⟨.ofPanic p, turn.raised, w⟩

structure Release (σ : Type) where
  panic : Option Panic
  raised : List Callback
  worker : Worker σ

/-- Gives the handle up. The worker is marked as released unless the vendor panics on the way; the
handle is gone in either case. -/
def release (V : Vendor σ) (w : Worker σ) : Release σ :=
  if w.hasHandle then
    let turn := V.call .release w.vendor
    let w :=
      { w with
        hasHandle := false, vendor := turn.state
        exchanges := w.exchanges ++ [⟨.release, turn.reply⟩] }
    match turn.reply with
    | .returned _ => ⟨none, turn.raised, { w with initialized := false, released := true }⟩
    | .panicked p => ⟨some p, turn.raised, w⟩
  else ⟨none, [], { w with initialized := false, released := true }⟩

def execute (V : Vendor σ) (w : Worker σ) (request : Request) (requestId : Option Int32) :
    Execution σ :=
  match w.refusal? request.operation with
  | some detail => ⟨.notReady detail, [], w⟩
  | none =>
    match request with
    | .exit =>
      let r := w.release V
      ⟨.ofRelease r.panic, r.raised, r.worker⟩
    | request =>
      let e := w.invoke V (request.vendorCall requestId)
      { e with result := e.result.checked request.operation }

end Worker

end MarketFeed
