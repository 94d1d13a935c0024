import MarketFeed.Binary64

namespace MarketFeed.Json

abbrev Digit := Fin 10

namespace Digit

def toChar (d : Digit) : Char := Char.ofNat (48 + d.val)

def ofChar? (c : Char) : Option Digit :=
  if h : 48 ≤ c.toNat ∧ c.toNat ≤ 57 then some ⟨c.toNat - 48, by omega⟩ else none

end Digit

def appendDigits (n : Nat) (ds : List Digit) : Nat := ds.foldl (fun n d => n * 10 + d.val) n

def digitsOf (n : Nat) : List Digit :=
  if n < 10 then [Fin.ofNat 10 n] else digitsOf (n / 10) ++ [Fin.ofNat 10 n]
termination_by n
decreasing_by omega

def spanDigits : List Char → List Digit × List Char
  | [] => ([], [])
  | c :: cs =>
    match Digit.ofChar? c with
    | some d => let (ds, rest) := spanDigits cs; (d :: ds, rest)
    | none => ([], c :: cs)

/-- A number as written, so that a reader can tell `1` from `1.0`. The fraction is empty when there
is none. -/
structure Literal where
  negative : Bool
  whole : List Digit
  fraction : List Digit
  exponent : Option Int
  deriving DecidableEq, Repr

namespace Literal

def readExponent? : List Char → Option (Option Int)
  | [] => some none
  | c :: cs =>
    if c = 'e' ∨ c = 'E' then
      let (negative, cs) :=
        match cs with
        | '-' :: cs => (true, cs)
        | '+' :: cs => (false, cs)
        | cs => (false, cs)
      match spanDigits cs with
      | (d :: ds, []) =>
        let n := appendDigits 0 (d :: ds)
        some (some (if negative then -(n : Int) else n))
      | _ => none
    else none

def readFraction? : List Char → Option (List Digit × List Char)
  | '.' :: cs =>
    match spanDigits cs with
    | (d :: ds, rest) => some (d :: ds, rest)
    | _ => none
  | cs => some ([], cs)

def readUnsigned? (negative : Bool) (cs : List Char) : Option Literal :=
  match spanDigits cs with
  | ([], _) => none
  | (d :: ds, rest) =>
    if d = 0 ∧ ds ≠ [] then none
    else do
      let (fraction, rest) ← readFraction? rest
      let exponent ← readExponent? rest
      return ⟨negative, d :: ds, fraction, exponent⟩

def ofChars? : List Char → Option Literal
  | '-' :: cs => readUnsigned? true cs
  | cs => readUnsigned? false cs

def ofInt (n : Int) : Literal := ⟨decide (n < 0), digitsOf n.natAbs, [], none⟩

def chars (n : Literal) : List Char :=
  (if n.negative then ['-'] else []) ++ n.whole.map Digit.toChar ++
  (if n.fraction = [] then [] else '.' :: n.fraction.map Digit.toChar) ++
  match n.exponent with
  | none => []
  | some e =>
    'e' :: (if e < 0 then ['-'] else []) ++ (digitsOf e.natAbs).map Digit.toChar

/-- The integer that a literal without fraction and exponent stands for. `-0` is not an integer:
its sign would be lost. -/
def toInt? (n : Literal) : Option Int :=
  if n.fraction ≠ [] ∨ n.exponent.isSome then none
  else
    let m := appendDigits 0 n.whole
    if n.negative then if m = 0 then none else some (-(m : Int)) else some m

def toInt32? (n : Literal) : Option Int32 := do
  let i ← n.toInt?
  if -2147483648 ≤ i ∧ i ≤ 2147483647 then some (Int32.ofInt i) else none

/-- Takes digits into a significand as long as 64 bits hold it, and counts those taken. -/
def absorb (s : Nat) : List Digit → Nat × Nat
  | [] => (s, 0)
  | d :: ds =>
    if s * 10 + d.val < 2 ^ 64 then
      let (s', n) := absorb (s * 10 + d.val) ds
      (s', n + 1)
    else (s, 0)

/-- The binary64 number for a literal: the leading digits that 64 bits hold, scaled by the power of
ten that the others and the exponent leave. `none` when out of range. -/
def toBinary64? (n : Literal) : Option Binary64 := do
  let (s, whole) := absorb 0 n.whole
  let (s, fraction) := absorb s n.fraction
  let e := (n.whole.length - whole : Int) - fraction + n.exponent.getD 0
  let x ← Binary64.scale (UInt64.ofNat s).toFloat e
  return .ofFloat (if n.negative then -x else x)

end Literal

end MarketFeed.Json
