
namespace MarketFeed

/-- An IEEE-754 binary64 number. It is kept as its bits, so that records which hold prices can be
compared exactly; arithmetic goes through the machine's own rounding. -/
structure Binary64 where
  bits : UInt64
  deriving DecidableEq, Inhabited, Repr

namespace Binary64

def ofFloat (x : Float) : Binary64 := ⟨x.toBits⟩

def toFloat (x : Binary64) : Float := Float.ofBits x.bits

def isFinite (x : Binary64) : Bool := (x.bits >>> 52) &&& 0x7ff != 0x7ff

instance : Add Binary64 := ⟨fun x y => ofFloat (x.toFloat + y.toFloat)⟩
instance : Sub Binary64 := ⟨fun x y => ofFloat (x.toFloat - y.toFloat)⟩
instance : Mul Binary64 := ⟨fun x y => ofFloat (x.toFloat * y.toFloat)⟩
instance : OfScientific Binary64 := ⟨fun m s e => ofFloat (OfScientific.ofScientific m s e)⟩

def powerOfTen (n : Nat) : Float := OfScientific.ofScientific 1 false n

/-- `x` times ten to the power `e`, by one multiplication or division where the power of ten is a
number itself, and by further divisions below that. `none` when the product is out of range. -/
def scale (x : Float) (e : Int) : Option Float :=
  if e < -308 then
    if x == 0 then some x else scale (x / powerOfTen 308) (e + 308)
  else if e < 0 then some (x / powerOfTen e.natAbs)
  else if 308 < e then
    if x == 0 then some x else none
  else
    let y := x * powerOfTen e.natAbs
    if y.isInf then none else some y
termination_by (-e).toNat
decreasing_by omega

end Binary64

end MarketFeed
