import MarketFeed.Json.Token

namespace MarketFeed.Json

/-- The token that is being read; a word or a number runs as far as its characters do and is judged
when it ends. Lists hold what was read, last first. -/
inductive Partial where
  | nothing
  | text (pieces : List Piece)
  | escape (pieces : List Piece)
  | unit (pieces : List Piece) (digits value : Nat)
  | word (letters : List Char)
  | number (written : List Char)
  deriving DecidableEq

structure Lexer where
  done : List Token
  reading : Partial
  deriving DecidableEq

namespace Lexer

def start : Lexer := ⟨[], .nothing⟩

def isBlank (c : Char) : Bool := c == ' ' || c == '\t' || c == '\n' || c == '\r'

def isNumberChar (c : Char) : Bool :=
  (Digit.ofChar? c).isSome || c == '-' || c == '+' || c == '.' || c == 'e' || c == 'E'

def isLetter (c : Char) : Bool := 'a' ≤ c && c ≤ 'z'

def word? : List Char → Option Token
  | ['n', 'u', 'l', 'l'] => some .null
  | ['t', 'r', 'u', 'e'] => some (.bool true)
  | ['f', 'a', 'l', 's', 'e'] => some (.bool false)
  | _ => none

def mark? (c : Char) : Option Token :=
  if c = '\x7b' then some .openBrace
  else if c = '\x7d' then some .closeBrace
  else if c = '[' then some .openBracket
  else if c = ']' then some .closeBracket
  else if c = ':' then some .colon
  else if c = ',' then some .comma
  else none

def shortEscape? (c : Char) : Option Char :=
  if c = '"' then some '"'
  else if c = '\\' then some '\\'
  else if c = '/' then some '/'
  else if c = 'b' then some '\x08'
  else if c = 'f' then some '\x0c'
  else if c = 'n' then some '\n'
  else if c = 'r' then some '\r'
  else if c = 't' then some '\t'
  else none

def hexValue? (c : Char) : Option Nat :=
  if '0' ≤ c && c ≤ '9' then some (c.toNat - 48)
  else if 'a' ≤ c && c ≤ 'f' then some (c.toNat - 87)
  else if 'A' ≤ c && c ≤ 'F' then some (c.toNat - 55)
  else none

/-- The tokens read so far, with the open word or number closed. -/
def close (l : Lexer) : Option (List Token) :=
  match l.reading with
  | .nothing => some l.done
  | .word letters => (word? letters.reverse).map (· :: l.done)
  | .number written => (Literal.ofChars? written.reverse).map (.number · :: l.done)
  | .text _ | .escape _ | .unit .. => none

def begin (done : List Token) (c : Char) : Option Lexer :=
  if isBlank c then some ⟨done, .nothing⟩
  else if c = '"' then some ⟨done, .text []⟩
  else
    match mark? c with
    | some t => some ⟨t :: done, .nothing⟩
    | none =>
      if isLetter c then some ⟨done, .word [c]⟩
      else if c = '-' || (Digit.ofChar? c).isSome then some ⟨done, .number [c]⟩
      else none

def feed (l : Lexer) (c : Char) : Option Lexer :=
  match l.reading with
  | .nothing => begin l.done c
  | .word letters =>
    if isLetter c then some ⟨l.done, .word (c :: letters)⟩
    else l.close.bind (begin · c)
  | .number written =>
    if isNumberChar c then some ⟨l.done, .number (c :: written)⟩
    else l.close.bind (begin · c)
  | .text pieces =>
    if c = '"' then some ⟨.text pieces.reverse :: l.done, .nothing⟩
    else if c = '\\' then some ⟨l.done, .escape pieces⟩
    else if c.toNat < 0x20 then none
    else some ⟨l.done, .text (.char c :: pieces)⟩
  | .escape pieces =>
    if c = 'u' then some ⟨l.done, .unit pieces 0 0⟩
    else (shortEscape? c).map fun e => ⟨l.done, .text (.char e :: pieces)⟩
  | .unit pieces digits value =>
    (hexValue? c).map fun h =>
      let value := value * 16 + h
      if digits = 3 then ⟨l.done, .text (.unit (UInt16.ofNat value) :: pieces)⟩
      else ⟨l.done, .unit pieces (digits + 1) value⟩

end Lexer

def tokens? (cs : List Char) : Option (List Token) := do
  let l ← cs.foldlM Lexer.feed Lexer.start
  let done ← l.close
  return done.reverse

end MarketFeed.Json
