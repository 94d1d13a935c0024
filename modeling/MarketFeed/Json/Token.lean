import MarketFeed.Json.Literal

namespace MarketFeed.Json

/-- A piece of a string as it is written: a character, or the sixteen-bit unit of a four-digit
escape. Whether units pair up to characters is asked only where the text is wanted. -/
inductive Piece where
  | char (c : Char)
  | unit (u : UInt16)
  deriving DecidableEq, Repr

abbrev Text := List Piece

def isLead (u : UInt16) : Bool := 0xd800 ≤ u && u ≤ 0xdbff

def isTrail (u : UInt16) : Bool := 0xdc00 ≤ u && u ≤ 0xdfff

def pairChar (u v : UInt16) : Char :=
  Char.ofNat (0x10000 + (u.toNat - 0xd800) * 0x400 + (v.toNat - 0xdc00))

namespace Text

def ofString (s : String) : Text := s.toList.map .char

/-- The characters of a string, unless a unit of a pair stands alone. -/
def chars? : Text → Option (List Char)
  | [] => some []
  | .char c :: rest => (chars? rest).map (c :: ·)
  | .unit u :: .unit v :: rest =>
    if isLead u then
      if isTrail v then (chars? rest).map (pairChar u v :: ·) else none
    else if isTrail u then none
    else (chars? (.unit v :: rest)).map (Char.ofNat u.toNat :: ·)
  | .unit u :: rest =>
    if isLead u || isTrail u then none else (chars? rest).map (Char.ofNat u.toNat :: ·)

def toString? (t : Text) : Option String := t.chars?.map String.ofList

end Text

inductive Token where
  | openBrace
  | closeBrace
  | openBracket
  | closeBracket
  | colon
  | comma
  | null
  | bool (b : Bool)
  | number (n : Literal)
  | text (t : Text)
  deriving DecidableEq, Repr

def hexDigit (n : Nat) : Char :=
  if n < 10 then Char.ofNat (48 + n) else Char.ofNat (87 + n)

def hexUnit (n : Nat) : List Char :=
  ['\\', 'u', hexDigit (n / 4096 % 16), hexDigit (n / 256 % 16), hexDigit (n / 16 % 16),
    hexDigit (n % 16)]

/-- How a piece is written: short escapes where JSON has them, four digits for the other controls,
and every other character as itself. -/
def Piece.written : Piece → List Char
  | .unit u => hexUnit u.toNat
  | .char c =>
    if c = '"' then ['\\', '"']
    else if c = '\\' then ['\\', '\\']
    else if c = '\x08' then ['\\', 'b']
    else if c = '\x0c' then ['\\', 'f']
    else if c = '\n' then ['\\', 'n']
    else if c = '\r' then ['\\', 'r']
    else if c = '\t' then ['\\', 't']
    else if c.toNat < 0x20 then hexUnit c.toNat
    else [c]

namespace Token

def written : Token → List Char
  | openBrace => ['\x7b']
  | closeBrace => ['\x7d']
  | openBracket => ['[']
  | closeBracket => [']']
  | colon => [':']
  | comma => [',']
  | null => ['n', 'u', 'l', 'l']
  | bool true => ['t', 'r', 'u', 'e']
  | bool false => ['f', 'a', 'l', 's', 'e']
  | number n => n.chars
  | text t => '"' :: t.flatMap Piece.written ++ ['"']

end Token

end MarketFeed.Json
