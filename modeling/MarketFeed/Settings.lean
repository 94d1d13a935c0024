import MarketFeed.Failure
import MarketFeed.Record.Layout

namespace MarketFeed

structure Settings where
  flowDir? : Option String := none
  frontAddress? : Option String := none
  nameServerAddress? : Option String := none
  workerName? : Option String := none
  verbose? : Option Bool := none
  deriving DecidableEq, Inhabited

namespace Settings

def flowDir (s : Settings) : String := s.flowDir?.getD "./flow"

def workerName (s : Settings) : String := s.workerName?.getD "ctp-md-worker"

/-- What is wrong with the worker's name, if anything: the system takes the names of threads as bytes
that end with a zero, so a name with a zero inside cannot be told to it. -/
def workerNameFault? (s : Settings) : Option String :=
  let bytes := s.workerName.toUTF8.toList
  (bytes.findIdx? (· == 0)).map fun position =>
    "thread name may not contain interior null bytes: NulError(" ++ toString position ++ ", [" ++
      ", ".intercalate (bytes.map fun b => toString b.toNat) ++ "])"

def verbose (s : Settings) : Bool := s.verbose?.getD false

def textCell : Option String → Cell
  | some s => .text s
  | none => .absent

def flagCell : Option Bool → Cell
  | some b => .flag b
  | none => .absent

def cellText? : Cell → Option (Option String)
  | .text s => some (some s)
  | .absent => some none
  | _ => none

def cellFlag? : Cell → Option (Option Bool)
  | .flag b => some (some b)
  | .absent => some none
  | _ => none

def layout : Layout Settings where
  columns := [⟨"flowDir", .optionalText⟩, ⟨"frontAddress", .optionalText⟩,
    ⟨"nameServerAddress", .optionalText⟩, ⟨"workerThreadName", .optionalText⟩,
    ⟨"verbose", .optionalFlag⟩]
  leniency := .keys
  toRow s := [textCell s.flowDir?, textCell s.frontAddress?, textCell s.nameServerAddress?,
    textCell s.workerName?, flagCell s.verbose?]
  ofRow?
    | [a, b, c, d, e] => do
      return ⟨← cellText? a, ← cellText? b, ← cellText? c, ← cellText? d, ← cellFlag? e⟩
    | _ => none

/-- The settings that a JSON text holds. What is wrong with a rejected text is for the reader to say;
it is passed on as a fault of the configuration. -/
def ofJson (complaint : String → String) (json : String) : Except Failure Settings :=
  match layout.read? json with
  | some settings => .ok settings
  | none => .error (.configuration ("JSON error: " ++ complaint json))

end Settings

end MarketFeed
