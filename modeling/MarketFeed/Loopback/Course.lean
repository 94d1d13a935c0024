import MarketFeed.Loopback

namespace MarketFeed.Loopback

open Vendor (Exchange Reply)

inductive Happening where
  | configured (options : Options)
  | created (reply : Reply (Except String Nat))
  | called (slot : Nat) (e : Exchange)
  | dropped (slot : Nat)
  | emitted (callbacks : List Callback) (taken : Bool)

/-- Courses of a gateway that any number of sessions share: the operations so far, one at a time,
and the gateway they lead to. Threads leave no trace here: a line may go on at any time. -/
inductive Course : List Happening → Loopback → Prop where
  | start : Course [] {}
  | configure {hs : List Happening} {g : Loopback} (h : Course hs g) (options : Options) :
      Course (hs ++ [.configured options]) { g with options := options }
  | create {hs : List Happening} {g g' : Loopback} {reply : Reply (Except String Nat)}
      (h : Course hs g) (hc : g.create = (reply, g')) : Course (hs ++ [.created reply]) g'
  | call {hs : List Happening} {g g' : Loopback} {slot : Nat} (h : Course hs g)
      (hl : slot < g.lines.length) (c : Vendor.Call) (reply : Reply c.Answer)
      (hc : c.operation ≠ .create) (he : g.serve slot c = (reply, g')) :
      Course (hs ++ [.called slot ⟨c, reply⟩]) g'
  | drop {hs : List Happening} {g : Loopback} {slot : Nat} (h : Course hs g)
      (hl : slot < g.lines.length) : Course (hs ++ [.dropped slot]) (g.drop slot)
  | emit {hs : List Happening} {g g' : Loopback} {taken : Bool} (h : Course hs g)
      (callbacks : List Callback) (he : g.emit callbacks = (taken, g')) :
      Course (hs ++ [.emitted callbacks taken]) g'
  | raise {hs : List Happening} {g : Loopback} {slot : Nat} {l : Line} (h : Course hs g)
      (hl : slot < g.lines.length) (ha : (g.line slot).advance? = some l) :
      Course hs (g.modifyLine slot fun _ => l)

namespace Happening

def opened? : Happening → Option Nat
  | created (.returned (.ok slot)) => some slot
  | _ => none

/-- Whether a session was dropped, or its release returned. -/
def ends (slot : Nat) : Happening → Bool
  | called other ⟨.release, .returned _⟩ => other == slot
  | dropped other => other == slot
  | _ => false

def exchange? (slot : Nat) : Happening → Option Exchange
  | called other e => if other = slot then some e else none
  | _ => none

def options? : Happening → Option Options
  | configured options => some options
  | _ => none

def isCall : Happening → Bool
  | created _ | called _ _ => true
  | _ => false

end Happening

variable (hs : List Happening)

/-- The session that was the last to be created. -/
def newest? : Option Nat := (hs.filterMap Happening.opened?).getLast?

def ended (slot : Nat) : Bool := hs.any (Happening.ends slot)

def exchanges (slot : Nat) : List Exchange := hs.filterMap (Happening.exchange? slot)

def optionsAfter : Options := (hs.filterMap Happening.options?).getLast?.getD {}

end MarketFeed.Loopback
