import PeerGateway.Control.Command
import PeerGateway.Control.Tables

/-!
# Answers to commands

What the command line prints and ends with. `Command.request` is the request of a
command, and `Command.conclude` makes the lines of what its delivery came to.
-/

namespace PeerGateway.Control

open Http

/-- What a run of the command line leaves behind. -/
structure Outcome where
  code : UInt32 := 0
  output : List String := []
  complaint : List String := []
  deriving DecidableEq, Repr

namespace Outcome

/-- A run that failed. -/
def failed (reason : String) : Outcome := { code := 1, complaint := ["Error: " ++ reason] }

/-- A run that printed lines. -/
def printed (lines : List String) : Outcome := { output := lines }

end Outcome

/-- How to use the command line. -/
def usage : List String :=
  ["gatemesh-ctl [--host HOST] [--port PORT] <command>",
    "",
    "Commands:",
    "  status             Node identity, peer counts and local score",
    "  peers              Peer directory",
    "  peers drop <id>    Remove a peer from the directory",
    "  metrics            Local and peer load metrics",
    "  scores             Scores of local node and Connected peers",
    "  select             Best peer and current routing decision"]

/-- The phrase of a status. -/
def reason : Nat → String
  | 100 => "Continue" | 101 => "Switching Protocols" | 102 => "Processing"
  | 200 => "OK" | 201 => "Created" | 202 => "Accepted"
  | 203 => "Non Authoritative Information" | 204 => "No Content" | 205 => "Reset Content"
  | 206 => "Partial Content" | 207 => "Multi-Status" | 208 => "Already Reported" | 226 => "IM Used"
  | 300 => "Multiple Choices" | 301 => "Moved Permanently" | 302 => "Found" | 303 => "See Other"
  | 304 => "Not Modified" | 305 => "Use Proxy" | 307 => "Temporary Redirect"
  | 308 => "Permanent Redirect"
  | 400 => "Bad Request" | 401 => "Unauthorized" | 402 => "Payment Required" | 403 => "Forbidden"
  | 404 => "Not Found" | 405 => "Method Not Allowed" | 406 => "Not Acceptable"
  | 407 => "Proxy Authentication Required" | 408 => "Request Timeout" | 409 => "Conflict"
  | 410 => "Gone" | 411 => "Length Required" | 412 => "Precondition Failed"
  | 413 => "Payload Too Large" | 414 => "URI Too Long" | 415 => "Unsupported Media Type"
  | 416 => "Range Not Satisfiable" | 417 => "Expectation Failed" | 418 => "I'm a teapot"
  | 421 => "Misdirected Request" | 422 => "Unprocessable Entity" | 423 => "Locked"
  | 424 => "Failed Dependency" | 425 => "Too Early" | 426 => "Upgrade Required"
  | 428 => "Precondition Required" | 429 => "Too Many Requests"
  | 431 => "Request Header Fields Too Large" | 451 => "Unavailable For Legal Reasons"
  | 500 => "Internal Server Error" | 501 => "Not Implemented" | 502 => "Bad Gateway"
  | 503 => "Service Unavailable" | 504 => "Gateway Timeout" | 505 => "HTTP Version Not Supported"
  | 506 => "Variant Also Negotiates" | 507 => "Insufficient Storage" | 508 => "Loop Detected"
  | 510 => "Not Extended" | 511 => "Network Authentication Required"
  | _ => "<unknown status code>"

namespace Command

/-- The request of a command. -/
def request (c : Command) (l : Listener) : Outgoing where
  url := c.url l
  method := c.method
  headers := []
  body := .empty
  timeout := 0

/-- The lines that a command makes of a JSON text; none if the text is not what it expects. -/
def lines? (c : Command) (text : Bytes) : Option (List String) :=
  let read (s : Schema) (lines : s.Value → List String) : Option (List String) :=
    (s.parse text).toOption.map lines
  match c with
  | .status => read StatusReport.schema fun v => statusLines (.ofValue v)
  | .peers => read PeersReport.schema fun v => peersLines (v.1.map PeerReport.ofValue)
  | .drop _ => read DropReport.schema fun v => [dropLine (.ofValue v)]
  | .metrics => read LoadReport.schema fun v => loadLines (.ofValue v)
  | .scores => read ScoreReport.schema fun v => scoreLines (.ofValue v)
  | .select => (Json.parse text).toOption.map selectionLines

/-- What a command makes of a response. A peer that could not be dropped is told with the
status; any other response counts by its body alone. -/
def read (c : Command) (r : Response) : Outcome :=
  if c.method = "DELETE" && !r.isSuccess then
    let text := (String.fromUTF8? r.body).getD ""
    .failed (toString r.status ++ " " ++ reason r.status ++ ": " ++ text)
  else
    match c.lines? r.body.toList with
    | some lines => .printed lines
    | none => .failed "failed to parse response"

/-- The end of a command, once its request has come to something. -/
def conclude (c : Command) (l : Listener) : Delivery → Outcome
  | .answered r => c.read r
  | _ => .failed ("failed to connect to gatemeshd at " ++ c.url l ++ "; is it running?")

end Command

namespace Invocation

/-- What an invocation that asks nothing prints; the command and its listener otherwise. -/
def settle : Invocation → Outcome ⊕ Command × Listener
  | .ask c l => .inr (c, l)
  | .help => .inl (.printed usage)
  | .wrong reason => .inl (.failed reason)
  | .unknown words => .inl
      { code := 1, output := usage
        complaint := ["Unknown command: " ++ String.intercalate " " words, ""] }

end Invocation

end PeerGateway.Control
