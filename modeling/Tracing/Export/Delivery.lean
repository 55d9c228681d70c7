import Tracing.Log

/-!
# Delivery to the collector

What becomes of one attempt to send a payload, and how the answer of an HTTP collector is read: a success
accepts the payload, an error of the client rejects it for good, and everything else is worth another
attempt.
-/

namespace Tracing

/-! ### Status codes -/

/-- An HTTP status of three digits. -/
structure Status where
  code : Nat
deriving DecidableEq, Repr

namespace Status

/-- The status with a given number, if it has three digits. -/
def ofNat? (n : Nat) : Option Status := if 100 ≤ n ∧ n < 1000 then some ⟨n⟩ else none

def isSuccess (s : Status) : Bool := s.code / 100 == 2

def isClientError (s : Status) : Bool := s.code / 100 == 4

/-- Whether an answer with this status has no body. -/
def isBodiless (s : Status) : Bool := s.code == 204 || s.code == 304

/-- The registered phrase for a status. -/
def reason? (s : Status) : Option String :=
  match s.code with
  | 100 => some "Continue"
  | 101 => some "Switching Protocols"
  | 102 => some "Processing"
  | 103 => some "Early Hints"
  | 200 => some "OK"
  | 201 => some "Created"
  | 202 => some "Accepted"
  | 203 => some "Non Authoritative Information"
  | 204 => some "No Content"
  | 205 => some "Reset Content"
  | 206 => some "Partial Content"
  | 207 => some "Multi-Status"
  | 208 => some "Already Reported"
  | 226 => some "IM Used"
  | 300 => some "Multiple Choices"
  | 301 => some "Moved Permanently"
  | 302 => some "Found"
  | 303 => some "See Other"
  | 304 => some "Not Modified"
  | 305 => some "Use Proxy"
  | 307 => some "Temporary Redirect"
  | 308 => some "Permanent Redirect"
  | 400 => some "Bad Request"
  | 401 => some "Unauthorized"
  | 402 => some "Payment Required"
  | 403 => some "Forbidden"
  | 404 => some "Not Found"
  | 405 => some "Method Not Allowed"
  | 406 => some "Not Acceptable"
  | 407 => some "Proxy Authentication Required"
  | 408 => some "Request Timeout"
  | 409 => some "Conflict"
  | 410 => some "Gone"
  | 411 => some "Length Required"
  | 412 => some "Precondition Failed"
  | 413 => some "Payload Too Large"
  | 414 => some "URI Too Long"
  | 415 => some "Unsupported Media Type"
  | 416 => some "Range Not Satisfiable"
  | 417 => some "Expectation Failed"
  | 418 => some "I'm a teapot"
  | 421 => some "Misdirected Request"
  | 422 => some "Unprocessable Entity"
  | 423 => some "Locked"
  | 424 => some "Failed Dependency"
  | 425 => some "Too Early"
  | 426 => some "Upgrade Required"
  | 428 => some "Precondition Required"
  | 429 => some "Too Many Requests"
  | 431 => some "Request Header Fields Too Large"
  | 451 => some "Unavailable For Legal Reasons"
  | 500 => some "Internal Server Error"
  | 501 => some "Not Implemented"
  | 502 => some "Bad Gateway"
  | 503 => some "Service Unavailable"
  | 504 => some "Gateway Timeout"
  | 505 => some "HTTP Version Not Supported"
  | 506 => some "Variant Also Negotiates"
  | 507 => some "Insufficient Storage"
  | 508 => some "Loop Detected"
  | 510 => some "Not Extended"
  | 511 => some "Network Authentication Required"
  | _ => none

/-- A status as number and phrase. -/
def text (s : Status) : String :=
  toString s.code ++ " " ++ s.reason?.getD "<unknown status code>"

end Status

/-! ### Failures and replies -/

/-- Why a payload was not delivered. -/
inductive SendFailure where
  /-- Worth another attempt. -/
  | transient (reason : String)
  /-- The collector rejected the payload. -/
  | permanent (status : Option Status) (reason : String)
deriving DecidableEq, Repr

namespace SendFailure

/-- Whether another attempt is pointless. -/
def isPermanent : SendFailure → Bool
  | transient _ => false
  | permanent _ _ => true

def statusText : Option Status → String
  | some s => "Some(" ++ toString s.code ++ ")"
  | none => "None"

def message : SendFailure → String
  | transient reason => "transient failure: " ++ reason
  | permanent status reason => "permanent failure (" ++ statusText status ++ "): " ++ reason

end SendFailure

/-- What comes back from one attempt. -/
inductive Reply where
  | accepted
  | failed (failure : SendFailure)
  /-- No answer ever comes. -/
  | silence
deriving DecidableEq, Repr

/-- The far end: its reply to every attempt, counted from zero. -/
structure Transport where
  reply : Nat → Reply

/-! ### HTTP -/

/-- The header that keeps instrumented clients from tracing the request itself. -/
def tracingEnabledHeader : String := "x-datadog-tracing-enabled"

/-- The headers of a request. -/
def requestHeaders : List (String × String) :=
  [("content-type", "application/json"), (tracingEnabledHeader, "false")]

namespace Reply

/-- Reads the answer of a collector that came after some milliseconds. -/
def ofResponse (status : Status) (body : String) (millis : Nat) : Logged Reply :=
  let body := if status.isBodiless then "" else body
  if status.isSuccess then do
    log .debug ("TRACES | Payload accepted with status " ++ status.text ++ " in " ++ toString millis
      ++ " ms")
    return accepted
  else if status.isClientError then return failed (.permanent (some status) body)
  else return failed (.transient (status.text ++ ": " ++ body))

/-- The reply when the collector cannot be reached. -/
def unreachable (url : String) : Reply :=
  failed (.transient ("error sending request for url (" ++ url ++ ")"))

end Reply

end Tracing
