import DaemonBridge.Text.Percent

/-!
# Requests and responses

The messages on the control socket: a request names a method and a target, which is a path and perhaps
a query; a response has a status. Both may carry a body.
-/

namespace DaemonBridge.Http

/-- A request. -/
structure Request where
  method : String
  target : String
  contentType : Option String := none
  body : List UInt8 := []
  deriving DecidableEq, Repr

/-- A response. -/
structure Response where
  status : Nat
  body : List UInt8 := []
  deriving DecidableEq, Repr

namespace Request

/-- The first line of a request. -/
def line (r : Request) : String :=
  r.method ++ " " ++ r.target ++ " HTTP/1.1"

/-- The target without a fragment. -/
def resource (r : Request) : List Char :=
  r.target.toList.takeWhile fun c => c != '#'

/-- The path of the target. -/
def path (r : Request) : String :=
  String.ofList (Text.splitFirst '?' r.resource).1

/-- The fields of the target's query. -/
def fields (r : Request) : List (List Char × List Char) :=
  Text.formFields (Text.splitFirst '?' r.resource).2

end Request

/-- A response reports success. -/
def Response.isSuccess (r : Response) : Bool :=
  200 ≤ r.status && r.status < 300

/-- The phrase that goes with a status. -/
def reasonPhrase : Nat → String
  | 100 => "Continue"
  | 101 => "Switching Protocols"
  | 102 => "Processing"
  | 200 => "OK"
  | 201 => "Created"
  | 202 => "Accepted"
  | 203 => "Non Authoritative Information"
  | 204 => "No Content"
  | 205 => "Reset Content"
  | 206 => "Partial Content"
  | 207 => "Multi-Status"
  | 208 => "Already Reported"
  | 226 => "IM Used"
  | 300 => "Multiple Choices"
  | 301 => "Moved Permanently"
  | 302 => "Found"
  | 303 => "See Other"
  | 304 => "Not Modified"
  | 305 => "Use Proxy"
  | 307 => "Temporary Redirect"
  | 308 => "Permanent Redirect"
  | 400 => "Bad Request"
  | 401 => "Unauthorized"
  | 402 => "Payment Required"
  | 403 => "Forbidden"
  | 404 => "Not Found"
  | 405 => "Method Not Allowed"
  | 406 => "Not Acceptable"
  | 407 => "Proxy Authentication Required"
  | 408 => "Request Timeout"
  | 409 => "Conflict"
  | 410 => "Gone"
  | 411 => "Length Required"
  | 412 => "Precondition Failed"
  | 413 => "Payload Too Large"
  | 414 => "URI Too Long"
  | 415 => "Unsupported Media Type"
  | 416 => "Range Not Satisfiable"
  | 417 => "Expectation Failed"
  | 418 => "I'm a teapot"
  | 421 => "Misdirected Request"
  | 422 => "Unprocessable Entity"
  | 423 => "Locked"
  | 424 => "Failed Dependency"
  | 425 => "Too Early"
  | 426 => "Upgrade Required"
  | 428 => "Precondition Required"
  | 429 => "Too Many Requests"
  | 431 => "Request Header Fields Too Large"
  | 451 => "Unavailable For Legal Reasons"
  | 500 => "Internal Server Error"
  | 501 => "Not Implemented"
  | 502 => "Bad Gateway"
  | 503 => "Service Unavailable"
  | 504 => "Gateway Timeout"
  | 505 => "HTTP Version Not Supported"
  | 506 => "Variant Also Negotiates"
  | 507 => "Insufficient Storage"
  | 508 => "Loop Detected"
  | 510 => "Not Extended"
  | 511 => "Network Authentication Required"
  | _ => "<unknown status code>"

/-- A status with its phrase. -/
def statusText (status : Nat) : String :=
  toString status ++ " " ++ reasonPhrase status

end DaemonBridge.Http
