import DaemonBridge.Cache
import DaemonBridge.Control.Endpoint
import DaemonBridge.Control.Request
import DaemonBridge.Http.MediaType
import DaemonBridge.Http.Message
import DaemonBridge.Json.Reader

/-!
# Operations

What a request on the control socket asks for. A request is refused for the first of these reasons that
applies: its path or its method is not known, its body is not announced as JSON, its body does not
decode, or its query lacks a field, repeats one or holds a bad number. A refused request never becomes
an operation, so nothing is done for it.
-/

namespace DaemonBridge.Control

/-- What can be asked for. -/
inductive Operation where
  | health
  | stop
  | config
  | inquire (inquiry : Inquiry)
  | signals (after : UInt64)
  | submit (account : String) (order : Order)
  deriving DecidableEq, Repr

/-- Why a request is refused. -/
inductive Refusal where
  | unknownPath
  | wrongMethod
  | wrongMediaType
  | malformedBody
  | misshapenBody
  | badQuery
  deriving DecidableEq, Repr

/-- The status of a refusal. -/
def Refusal.status : Refusal → Nat
  | .unknownPath => 404
  | .wrongMethod => 405
  | .wrongMediaType => 415
  | .malformedBody => 400
  | .misshapenBody => 422
  | .badQuery => 400

/-- The value of a field of a query that may be absent; the field may not be repeated. -/
def soleField (name : String) (fields : List (List Char × List Char)) :
    Except Refusal (Option (List Char)) :=
  match fields.filter fun field => field.1 == name.toList with
  | [] => .ok none
  | [field] => .ok (some field.2)
  | _ => .error .badQuery

/-- The question in the query of a request for devices. -/
def devicesInquiry (fields : List (List Char × List Char)) : Except Refusal Inquiry := do
  let account ← soleField "pan_user" fields
  let user ← soleField "user_id" fields
  match account, user with
  | some account, some user => return .userDevices (String.ofList account) (String.ofList user)
  | some account, none => return .devices (String.ofList account)
  | none, _ => throw .badQuery

/-- The number after which signals are asked for; without one all of them. -/
def signalsAfter (fields : List (List Char × List Char)) : Except Refusal UInt64 := do
  match ← soleField "after" fields with
  | none => return 0
  | some text =>
    match Text.readUInt64? text with
    | some after => return after
    | none => throw .badQuery

/-- Decode the body of a request that has to be JSON. -/
def decodeBody {α : Type} (request : Http.Request) (decoder : Json.Decoder α) : Except Refusal α :=
  if (request.contentType.map Http.announcesJson).getD false then
    match (Json.Document.ofBytes request.body).decode decoder with
    | .ok value => .ok value
    | .error (.fault _) => .error .malformedBody
    | .error (.mismatch _) => .error .misshapenBody
  else .error .wrongMediaType

/-- What a request to an endpoint asks for. -/
def Endpoint.operation (request : Http.Request) : Endpoint → Except Refusal Operation
  | .health => .ok .health
  | .stop => .ok .stop
  | .config => .ok .config
  | .servers => .ok (.inquire .servers)
  | .devices => (devicesInquiry request.fields).map .inquire
  | .signals => (signalsAfter request.fields).map .signals
  | .order kind =>
    (decodeBody request (orderDecoder kind)).map fun (account, wanted) => .submit account wanted

/-- What a request asks for. -/
def Operation.ofRequest (request : Http.Request) : Except Refusal Operation :=
  match Endpoint.ofPath? request.path with
  | none => .error .unknownPath
  | some endpoint =>
    if endpoint.admits request.method then endpoint.operation request else .error .wrongMethod

end DaemonBridge.Control
