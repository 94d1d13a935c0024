import MarketFeed.Failure
import MarketFeed.Text.Quoted

namespace MarketFeed.Address

def afterTransport? (address : List Char) : Option (List Char) :=
  match address with
  | 't' :: 'c' :: 'p' :: ':' :: '/' :: '/' :: rest => some rest
  | 'u' :: 'd' :: 'p' :: ':' :: '/' :: '/' :: rest => some rest
  | _ => none

def splitLastColon? : List Char → Option (List Char × List Char)
  | [] => none
  | c :: cs =>
    match splitLastColon? cs with
    | some (host, port) => some (c :: host, port)
    | none => if c = ':' then some ([], cs) else none

def digit? (c : Char) : Option Nat :=
  if '0' ≤ c ∧ c ≤ '9' then some (c.toNat - '0'.toNat) else none

def decimal? (n : Nat) : List Char → Option Nat
  | [] => some n
  | c :: cs => (digit? c).bind fun d => decimal? (n * 10 + d) cs

/-- A port: at least one digit, after a plus sign or without one, for a number of sixteen bits. -/
def port? (cs : List Char) : Option Nat :=
  let digits := match cs with
    | '+' :: rest => rest
    | _ => cs
  if digits = [] then none
  else (decimal? 0 digits).filter (· < 65536)

def check (address : String) : Except Failure Unit :=
  match afterTransport? address.toList with
  | none =>
    .error (.invalidArgument
      ("front address must start with tcp:// or udp://, got " ++ Text.quote address))
  | some rest =>
    match splitLastColon? rest with
    | none => .error (.invalidArgument ("front address missing port: " ++ Text.quote address))
    | some (host, port) =>
      if host = [] ∨ port? port = none then
        .error (.invalidArgument ("malformed front address: " ++ Text.quote address))
      else .ok ()

end MarketFeed.Address
