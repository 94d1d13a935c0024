import MarketFeed.Loopback

namespace MarketFeed.Loopback

open Vendor (Exchange Reply)

/-- A line that is in use, from its creation on: the exchanges with its session so far, and the
gateway they lead to. -/
inductive Serving (slot : Nat) : List Exchange → Loopback → Prop where
  | create {g₀ g : Loopback} (flowDir : String) (h : g₀.create = (.returned (.ok slot), g)) :
      Serving slot [⟨.create flowDir, .returned (.ok ())⟩] g
  | call {es : List Exchange} {g g' : Loopback} (h : Serving slot es g) (c : Vendor.Call)
      (reply : Reply c.Answer) (hc : c.operation ≠ .create) (hr : c.operation ≠ .exit)
      (hs : g.serve slot c = (reply, g')) : Serving slot (es ++ [⟨c, reply⟩]) g'
  | raise {es : List Exchange} {g : Loopback} {l : Line} (h : Serving slot es g)
      (ha : (g.line slot).advance? = some l) : Serving slot es (g.modifyLine slot fun _ => l)
  | callElsewhere {es : List Exchange} {g : Loopback} {other : Nat} (h : Serving slot es g)
      (ho : other ≠ slot) (c : Vendor.Call) : Serving slot es (g.serve other c).2
  | raiseElsewhere {es : List Exchange} {g : Loopback} {other : Nat} {l : Line}
      (h : Serving slot es g) (ho : other ≠ slot) (ha : (g.line other).advance? = some l) :
      Serving slot es (g.modifyLine other fun _ => l)
  | dropElsewhere {es : List Exchange} {g : Loopback} {other : Nat} (h : Serving slot es g)
      (ho : other ≠ slot) : Serving slot es (g.drop other)

end MarketFeed.Loopback
