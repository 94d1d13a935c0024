import MarketFeed.Request.Address

namespace MarketFeed

/-- The gateway holds texts in fields of fixed width, counted in bytes of UTF-8. -/
def checkWidth (name : String) (value : String) (max : Nat) : Except Failure Unit :=
  if max < value.utf8ByteSize then
    .error (.invalidArgument (name ++ " exceeds " ++ toString max ++ " bytes"))
  else .ok ()

def checkInstrument (id : String) : Except Failure Unit :=
  if id = "" then .error (.invalidArgument "instrument id must not be empty")
  else checkWidth "InstrumentID" id 30

def checkInstruments (ids : List String) : Except Failure Unit :=
  if ids = [] then .error (.invalidArgument "instrument list must not be empty")
  else ids.forM checkInstrument

/-- The first fault of a request, in the order in which its fields are listed. -/
def Request.check : Request → Except Failure Unit
  | registerFront address => Address.check address
  | registerNameServer address => Address.check address
  | subscribe _ ids => checkInstruments ids
  | unsubscribe _ ids => checkInstruments ids
  | login r => do
    checkWidth "BrokerID" r.brokerId 10
    checkWidth "UserID" r.userId 15
    checkWidth "Password" r.password 40
  | registerUser u => do
    checkWidth "BrokerID" u.brokerId 10
    checkWidth "UserID" u.userId 15
    checkWidth "LoginMode" u.loginMode 1
  | logout u => do
    checkWidth "BrokerID" u.brokerId 10
    checkWidth "UserID" u.userId 15
  | _ => .ok ()

end MarketFeed
