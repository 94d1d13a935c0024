import MarketFeed.Json.Lexer

namespace MarketFeed.Json

inductive Value where
  | null
  | bool (b : Bool)
  | number (n : Literal)
  | text (t : Text)
  | array (items : List Value)
  | object (members : List (Text × Value))

namespace Value

def ofString (s : String) : Value := .text (.ofString s)

def ofInt (n : Int) : Value := .number (.ofInt n)

mutual

def tokens : Value → List Token
  | null => [.null]
  | bool b => [.bool b]
  | number n => [.number n]
  | text t => [.text t]
  | array items => .openBracket :: tokensOfItems items
  | object members => .openBrace :: tokensOfMembers members

def tokensOfItems : List Value → List Token
  | [] => [.closeBracket]
  | [v] => tokens v ++ [.closeBracket]
  | v :: vs => tokens v ++ .comma :: tokensOfItems vs

def tokensOfMembers : List (Text × Value) → List Token
  | [] => [.closeBrace]
  | [(k, v)] => .text k :: .colon :: tokens v ++ [.closeBrace]
  | (k, v) :: ms => .text k :: .colon :: tokens v ++ .comma :: tokensOfMembers ms

end

def compact (v : Value) : String := String.ofList (v.tokens.flatMap Token.written)

end Value

/-- A container that is still open, with what it holds so far, last first. The reader keeps them in
a list, so that nesting has no limit. -/
inductive Frame where
  | array (items : List Value)
  | object (members : List (Text × Value)) (key : Text)

/-- Where a reader stands: what may come next, inside which open containers. -/
inductive Reader where
  | value (outer : List Frame)
  | firstItem (outer : List Frame)
  | firstKey (outer : List Frame)
  | key (members : List (Text × Value)) (outer : List Frame)
  | colon (members : List (Text × Value)) (key : Text) (outer : List Frame)
  | after (v : Value) (outer : List Frame)

namespace Reader

def feedValue (outer : List Frame) : Token → Option Reader
  | .null => some (.after .null outer)
  | .bool b => some (.after (.bool b) outer)
  | .number n => some (.after (.number n) outer)
  | .text t => some (.after (.text t) outer)
  | .openBracket => some (.firstItem outer)
  | .openBrace => some (.firstKey outer)
  | _ => none

def feed : Reader → Token → Option Reader
  | value outer, t => feedValue outer t
  | firstItem outer, .closeBracket => some (.after (.array []) outer)
  | firstItem outer, t => feedValue (.array [] :: outer) t
  | firstKey outer, .closeBrace => some (.after (.object []) outer)
  | firstKey outer, .text k => some (.colon [] k outer)
  | key members outer, .text k => some (.colon members k outer)
  | colon members k outer, .colon => some (.value (.object members k :: outer))
  | after v (.array items :: outer), .comma => some (.value (.array (v :: items) :: outer))
  | after v (.array items :: outer), .closeBracket =>
    some (.after (.array (v :: items).reverse) outer)
  | after v (.object members k :: outer), .comma => some (.key ((k, v) :: members) outer)
  | after v (.object members k :: outer), .closeBrace =>
    some (.after (.object ((k, v) :: members).reverse) outer)
  | _, _ => none

end Reader

def Value.ofTokens? (ts : List Token) : Option Value :=
  match ts.foldlM Reader.feed (Reader.value []) with
  | some (.after v []) => some v
  | _ => none

def Value.read? (s : String) : Option Value := (tokens? s.toList).bind ofTokens?

end MarketFeed.Json
