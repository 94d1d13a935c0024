import MarketFeed.Json.Value

namespace MarketFeed

open Json

inductive Cell where
  | text (s : String)
  | int (n : Int32)
  | real (x : Binary64)
  | flag (b : Bool)
  | absent
  deriving DecidableEq

inductive CellType where
  | text
  | int
  | real
  | optionalText
  | optionalFlag
  deriving DecidableEq, Repr

namespace CellType

def read? : CellType → Value → Option Cell
  | text, .text t => t.toString?.map .text
  | int, .number n => n.toInt32?.map .int
  | real, .number n => n.toBinary64?.map .real
  | optionalText, .text t => t.toString?.map .text
  | optionalText, .null => some .absent
  | optionalFlag, .bool b => some (.flag b)
  | optionalFlag, .null => some .absent
  | _, _ => none

def empty : CellType → Cell
  | text => .text ""
  | int => .int 0
  | real => .real ⟨0⟩
  | optionalText => .absent
  | optionalFlag => .absent

end CellType

structure Column where
  key : String
  type : CellType

/-- What becomes of cells that are not there: objects may lack a key, arrays may stop early. A cell
that may be missing is then empty. -/
inductive Leniency where
  | none
  | keys
  | keysAndTail
  deriving DecidableEq, Repr

namespace Leniency

def allowsMissingKey : Leniency → Bool
  | none => false
  | keys => true
  | keysAndTail => true

def allowsShortArray : Leniency → Bool
  | none => false
  | keys => false
  | keysAndTail => true

end Leniency

/-- How records of a type are written as rows of cells, which a layout names in order. A record is
read from an object by those names, in any order and with other members passed over, or from an
array by position. -/
structure Layout (α : Type) where
  columns : List Column
  leniency : Leniency
  toRow : α → List Cell
  ofRow? : List Cell → Option α

namespace Layout

def membersAt (key : String) (members : List (String × Value)) : List Value :=
  members.filterMap fun m => if m.1 = key then some m.2 else none

/-- The cell of a column in an object: its key must not come twice. -/
def cellOfMembers? (leniency : Leniency) (members : List (String × Value)) (c : Column) :
    Option Cell :=
  match membersAt c.key members with
  | [] => if leniency.allowsMissingKey then some c.type.empty else none
  | [v] => c.type.read? v
  | _ => none

/-- The cells of an array: no more than there are columns, and no fewer unless that is allowed. -/
def rowOfItems? (leniency : Leniency) : List Column → List Value → Option (List Cell)
  | [], [] => some []
  | [], _ :: _ => none
  | c :: cs, [] =>
    if leniency.allowsShortArray then
      (rowOfItems? leniency cs []).map (c.type.empty :: ·)
    else none
  | c :: cs, v :: vs => do
    let cell ← c.type.read? v
    let row ← rowOfItems? leniency cs vs
    return cell :: row

def namedMembers? (members : List (Text × Value)) : Option (List (String × Value)) :=
  members.mapM fun m => m.1.toString?.map (·, m.2)

def row? {α : Type} (l : Layout α) : Value → Option (List Cell)
  | .object members => do
    let members ← namedMembers? members
    l.columns.mapM (cellOfMembers? l.leniency members)
  | .array items => rowOfItems? l.leniency l.columns items
  | _ => none

def ofValue? {α : Type} (l : Layout α) (v : Value) : Option α := (l.row? v).bind l.ofRow?

def read? {α : Type} (l : Layout α) (s : String) : Option α := (Value.read? s).bind l.ofValue?

end Layout

/-- The JSON value of a cell of text or integer type; a number with a fraction has no one compact
writing here. -/
def Cell.value? : Cell → Option Value
  | text s => some (.ofString s)
  | int n => some (.ofInt n.toInt)
  | flag b => some (.bool b)
  | absent => some .null
  | real _ => none

namespace Layout

def toValue? {α : Type} (l : Layout α) (a : α) : Option Value := do
  let values ← (l.toRow a).mapM Cell.value?
  return .object ((l.columns.map fun c => Text.ofString c.key).zip values)

def write? {α : Type} (l : Layout α) (a : α) : Option String := (l.toValue? a).map Value.compact

end Layout

end MarketFeed
