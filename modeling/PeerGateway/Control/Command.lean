import PeerGateway.Address.Socket
import PeerGateway.Http.Url

/-!
# Commands

What the command line asks of a gateway. `Invocation.parse` reads the arguments: options
for the gateway's host and port, and the words of a command. `Command.path` is what a
command asks the gateway for.
-/

namespace PeerGateway.Control

/-- A question to a gateway. -/
inductive Command
  | status
  | peers
  | drop (id : String)
  | metrics
  | scores
  | select
  deriving DecidableEq, Repr

namespace Command

/-- The method of a command's request. -/
def method : Command → String
  | .drop _ => "DELETE"
  | _ => "GET"

/-- What a command asks for, below the address of the interface. -/
def path : Command → String
  | .status => "/status"
  | .peers => "/peers"
  | .drop id => "/peers/" ++ id
  | .metrics => "/metrics"
  | .scores => "/scores"
  | .select => "/select"

end Command

/-- Where a gateway listens. -/
structure Listener where
  host : String := "127.0.0.1"
  port : UInt16 := 8080
  deriving DecidableEq, Repr

/-- The address of the gateway's interface. -/
def Listener.interface (l : Listener) : String :=
  "http://" ++ l.host ++ ":" ++ toString l.port.toNat ++ "/api"

/-- The address that a command asks. -/
def Command.url (c : Command) (l : Listener) : String := l.interface ++ c.path

/-- What the arguments come to. -/
inductive Invocation
  | ask (command : Command) (listener : Listener)
  | help
  | unknown (words : List String)
  | wrong (option : String)
  deriving DecidableEq, Repr

namespace Invocation

/-- Why an option cannot be used. -/
def hostMissing : String := "--host requires a value"
def portMissing : String := "--port requires a value"
def portNotNumber : String := "--port must be a number"

/-- The command of words. -/
def ofWords (words : List String) (l : Listener) : Invocation :=
  match words with
  | [] => .ask .status l
  | ["status"] => .ask .status l
  | ["peers"] => .ask .peers l
  | ["peers", "drop", id] => .ask (.drop id) l
  | ["metrics"] => .ask .metrics l
  | ["scores"] => .ask .scores l
  | ["select"] => .ask .select l
  | ["help"] => .help
  | ["--help"] => .help
  | ["-h"] => .help
  | words => .unknown words

/-- Reads arguments, options first come first served. -/
def parseFrom (l : Listener) (words : List String) : List String → Invocation
  | [] => ofWords words l
  | "--port" :: value :: rest =>
    match naturalBelow? UInt16.size value.toList with
    | some n => parseFrom { l with port := UInt16.ofNat n } words rest
    | none => .wrong portNotNumber
  | ["--port"] => .wrong portMissing
  | "--host" :: value :: rest => parseFrom { l with host := value } words rest
  | ["--host"] => .wrong hostMissing
  | word :: rest => parseFrom l (words ++ [word]) rest

/-- Reads arguments. -/
def parse (arguments : List String) : Invocation := parseFrom {} [] arguments

end Invocation

end PeerGateway.Control
