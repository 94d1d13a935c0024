import MarketFeed.Json.Value

namespace MarketFeed.Json

def hexNumber? (cs : List Char) : Option Nat :=
  cs.foldlM (fun n c => (Lexer.hexValue? c).map (n * 16 + ·)) 0

/-- A character stands for itself, unless it is a control or has a meaning of its own; some characters
have a short escape; and four hexadecimal digits stand for a unit. -/
inductive Piece.Spelled : Piece → List Char → Prop where
  | plain {c : Char} (hc : 0x20 ≤ c.toNat) (hq : c ≠ '"') (hb : c ≠ '\\') :
      Piece.Spelled (.char c) [c]
  | short {c e : Char} (h : Lexer.shortEscape? e = some c) : Piece.Spelled (.char c) ['\\', e]
  | unit {hex : List Char} {n : Nat} (hl : hex.length = 4) (hn : hexNumber? hex = some n) :
      Piece.Spelled (.unit (UInt16.ofNat n)) ('\\' :: 'u' :: hex)

inductive Text.Spelled : Text → List Char → Prop where
  | nil : Text.Spelled [] []
  | cons {p : Piece} {t : Text} {cs ds : List Char} (hp : p.Spelled cs) (ht : Text.Spelled t ds) :
      Text.Spelled (p :: t) (cs ++ ds)

def Token.isMark : Token → Bool
  | openBrace | closeBrace | openBracket | closeBracket | colon | comma => true
  | _ => false

inductive Token.Spelled : Token → List Char → Prop where
  | mark {t : Token} (h : t.isMark = true) : Token.Spelled t t.written
  | null : Token.Spelled .null Token.null.written
  | bool (b : Bool) : Token.Spelled (.bool b) (Token.bool b).written
  | number {n : Literal} {cs : List Char} (h : Literal.ofChars? cs = some n) :
      Token.Spelled (.number n) cs
  | text {t : Text} {cs : List Char} (h : t.Spelled cs) : Token.Spelled (.text t) ('"' :: cs ++ ['"'])

def Blank (cs : List Char) : Prop := ∀ c ∈ cs, Lexer.isBlank c = true

inductive Spelled : List Token → List Char → Prop where
  | nil {bs : List Char} (hb : Blank bs) : Spelled [] bs
  | cons {t : Token} {ts : List Token} {bs cs ds : List Char} (hb : Blank bs) (ht : t.Spelled cs)
      (hs : Spelled ts ds) : Spelled (t :: ts) (bs ++ cs ++ ds)

/-- A text that writes a value out, in one of many ways. -/
def Value.Spells (v : Value) (s : String) : Prop := Spelled v.tokens s.toList

end MarketFeed.Json
