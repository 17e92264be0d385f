import DaemonBridge.Client.Connection
import DaemonBridge.Proofs.Control.Wire
import DaemonBridge.Proofs.Text.Percent

/-!
# Calls at the socket

A client that calls a bridge, whatever it asks for, is understood: the request is read as the operation
that is meant, whatever characters its arguments have, and the client reads the response as the bridge's
own answer. What the text of a request and of a response looks like does not matter from here on.
-/

namespace DaemonBridge

/-! ## Requests -/

namespace Control

open Client (Call)

/-- A target is cut into its path and the fields of its query. -/
theorem path_and_fields_of_target {request : Http.Request} (path : List Char)
    {fields : List (List Char × List Char)}
    (htarget : request.target.toList = path ++ '?' :: Text.queryText fields) (hmark : '?' ∉ path)
    (hhash : '#' ∉ path) : request.path = String.ofList path ∧ request.fields = fields := by
  have hquery : '#' ∉ Text.queryText fields := fun hmem =>
    Text.hash_not_mem_encode_queryText fields (List.mem_flatMap.mpr ⟨'#', hmem, by decide⟩)
  have hresource : request.resource = path ++ '?' :: Text.queryText fields := by
    rw [Http.Request.resource, htarget]
    apply List.takeWhile_eq_self_iff.mpr
    intro c hmem
    rw [bne_iff_ne]
    rintro rfl
    rcases List.mem_append.mp hmem with hmem | hmem
    · exact hhash hmem
    · exact hquery (List.mem_of_ne_of_mem (by decide) hmem)
  rw [Http.Request.path, Http.Request.fields, hresource, Text.splitFirst_append hmark]
  exact ⟨rfl, Text.formFields_queryText fields⟩

/-- A number is written in decimal digits. -/
theorem toList_toString (n : UInt64) : (toString n).toList = Text.decimal n.toNat := by
  show (Nat.repr n.toNat).toList = _
  rw [Nat.toList_repr]
  rfl

/-- The request for signals is cut into its path and its only field. -/
theorem path_and_fields_signals (after : UInt64) :
    (Call.signals after).request.path = "/signals" ∧
      (Call.signals after).request.fields = [("after".toList, Text.decimal after.toNat)] := by
  refine path_and_fields_of_target "/signals".toList ?_ (by decide) (by decide)
  show (Endpoint.signals.path ++ "?after=" ++ toString after).toList = _
  rw [String.toList_append, String.toList_append, toList_toString, Text.queryText, Text.fieldText,
    Text.percentEncode_decimal, List.append_assoc]
  rfl

/-- A call for the health of the bridge is understood. -/
theorem ofRequest_health : Operation.ofRequest Call.health.request = .ok .health := rfl

/-- A call to stop the bridge is understood. -/
theorem ofRequest_stop : Operation.ofRequest Call.stop.request = .ok .stop := rfl

/-- A call for the settings is understood. -/
theorem ofRequest_config : Operation.ofRequest Call.config.request = .ok .config := rfl

/-- A call for signals is understood. -/
theorem ofRequest_signals (after : UInt64) :
    Operation.ofRequest (Call.signals after).request = .ok (.signals after) := by
  obtain ⟨hpath, hfields⟩ := path_and_fields_signals after
  have hoperation : Endpoint.operation (Call.signals after).request .signals = .ok (.signals after) := by
    have hsole : soleField "after" [("after".toList, Text.decimal after.toNat)] =
        .ok (some (Text.decimal after.toNat)) := rfl
    have hafter : signalsAfter [("after".toList, Text.decimal after.toNat)] = .ok after := by
      simp only [signalsAfter, hsole, Json.ok_bind, Text.readUInt64?_decimal]
      rfl
    rw [Endpoint.operation, hfields, hafter]
    rfl
  rw [Operation.ofRequest, hpath]
  exact hoperation

/-- A call for the logins is understood. -/
theorem ofRequest_servers : Operation.ofRequest Call.servers.request = .ok (.inquire .servers) := rfl

/-- The fields of a request for devices. -/
def devicesFields (account : String) (user : Option String) : List (List Char × List Char) :=
  ("pan_user".toList, account.toList) ::
    match user with
    | some user => [("user_id".toList, user.toList)]
    | none => []

/-- The request for devices is cut into its path and its fields, whatever characters they have. -/
theorem path_and_fields_devices (account : String) (user : Option String) :
    (Call.devices account user).request.path = "/devices" ∧
      (Call.devices account user).request.fields = devicesFields account user := by
  have haccount : Text.percentEncode "pan_user".toList = "pan_user".toList := by decide +kernel
  have huser : Text.percentEncode "user_id".toList = "user_id".toList := by decide +kernel
  refine path_and_fields_of_target "/devices".toList ?_ (by decide) (by decide)
  show (Call.devicesTarget account user).toList = _
  cases user with
  | none =>
    simp only [Call.devicesTarget, devicesFields, Text.queryText, Text.fieldText, haccount,
      String.toList_append, String.toList_ofList]
    generalize Text.percentEncode account.toList = written
    simp [Endpoint.path]
  | some user =>
    simp only [Call.devicesTarget, devicesFields, Text.queryText, Text.fieldText, haccount, huser,
      String.toList_append, String.toList_ofList]
    generalize Text.percentEncode account.toList = written
    generalize Text.percentEncode user.toList = writtenUser
    simp [Endpoint.path]

/-- A call for devices is understood as the question in its fields. -/
theorem ofRequest_devicesFields {account : String} {user : Option String} {inquiry : Inquiry}
    (h : devicesInquiry (devicesFields account user) = .ok inquiry) :
    Operation.ofRequest (Call.devices account user).request = .ok (.inquire inquiry) := by
  obtain ⟨hpath, hfields⟩ := path_and_fields_devices account user
  have hoperation : Endpoint.operation (Call.devices account user).request .devices =
      .ok (.inquire inquiry) := by
    rw [Endpoint.operation, hfields, h]
    rfl
  have hadmits : Endpoint.devices.admits (Call.devices account user).request.method = true := rfl
  have hendpoint : Endpoint.ofPath? "/devices" = some .devices := Endpoint.ofPath?_path .devices
  rw [Operation.ofRequest, hpath, hendpoint]
  simp only [hadmits, if_true, hoperation]

/-- A call for the devices of an account is understood. -/
theorem ofRequest_devices (account : String) :
    Operation.ofRequest (Call.devices account none).request = .ok (.inquire (.devices account)) := by
  have haccount : soleField "pan_user" (devicesFields account none) = .ok (some account.toList) := rfl
  have huser : soleField "user_id" (devicesFields account none) = .ok none := rfl
  apply ofRequest_devicesFields
  simp only [devicesInquiry, haccount, huser, Json.ok_bind, String.ofList_toList]
  rfl

/-- A call for the devices of a user of an account is understood, also when the user has no name. -/
theorem ofRequest_userDevices (account user : String) :
    Operation.ofRequest (Call.devices account (some user)).request =
      .ok (.inquire (.userDevices account user)) := by
  have haccount : soleField "pan_user" (devicesFields account (some user)) =
      .ok (some account.toList) := rfl
  have huser : soleField "user_id" (devicesFields account (some user)) = .ok (some user.toList) := rfl
  apply ofRequest_devicesFields
  simp only [devicesInquiry, haccount, huser, Json.ok_bind, String.ofList_toList]
  rfl

/-- The path for orders of a kind is a whole target. -/
theorem path_of_target_path (kind : OrderKind) :
    ({ method := "POST", target := kind.path } : Http.Request).path = kind.path := by
  rcases kind with (_ | _) | (_ | _) | (_ | _ | _ | _ | _ | _ | _ | _) <;> decide

/-- A call to issue an order is understood. -/
theorem ofRequest_command (account : String) (order : Order) :
    Operation.ofRequest (Call.command account order).request = .ok (.submit account order) := by
  have hpath : (Call.command account order).request.path = (Endpoint.order order.kind).path :=
    path_of_target_path order.kind
  have hadmits : (Endpoint.order order.kind).admits (Call.command account order).request.method = true :=
    rfl
  have hbody : decodeBody (Call.command account order).request (orderDecoder order.kind) =
      .ok (account, order) := by
    have hannounced :
        ((Call.command account order).request.contentType.map Http.announcesJson).getD false =
          true := rfl
    have hdecode := decode_orderBody account order
    rw [decodeBody, if_pos hannounced]
    simp only [Client.Call.request, hdecode]
  rw [Operation.ofRequest, hpath, Endpoint.ofPath?_path]
  simp only [hadmits, if_true, Endpoint.operation, hbody]
  rfl

end Control

/-! ## Calls -/

section Calls

open Control (Operation Reply response perform)

variable {run : Run} {store : Store} {uptime : UInt64} {request : Http.Request}

/-- What is delivered for a request that is understood and answered. -/
theorem Run.deliver_of_answered (hphase : run.phase ≠ .over) {operation : Operation}
    (hrequest : Operation.ofRequest request = .ok operation)
    (hmethod : (request.method == "HEAD") = false) {reply : Reply} {next : Run}
    (hperform : perform run store uptime operation = (some reply, next)) :
    run.deliver store uptime request = (.ofResponse (response 200 reply), next.conclude store) := by
  rw [Run.deliver, if_neg hphase, Control.serve, hrequest]
  simp only [Control.respond, hperform, hmethod]
  rfl

namespace Client.Call

/-- A client reads the answer that a bridge has written for it. -/
theorem result_ofResponse {α : Type} (call : Call α) (socket : String) {reply : Reply} {answer : α}
    (h : (Json.Document.ofBytes (Text.encode reply.toJson.compact)).decode call.decoder = .ok answer) :
    call.result socket (.ofResponse (response 200 reply)) = .ok answer := by
  have hsuccess : (response 200 reply).isSuccess = true := rfl
  have hbody : (response 200 reply).body = Text.encode reply.toJson.compact := rfl
  simp only [result, Delivery.ofResponse, ofResponse, hsuccess, hbody, h, if_true]

/-- A client reads the problem that a bridge has written for it. -/
theorem result_ofProblem {α : Type} (call : Call α) (socket text : String) :
    call.result socket (.ofResponse (response 503 (.problem text))) = .error (.refused text) := by
  have hfailure : (response 503 (.problem text)).isSuccess = false := rfl
  have hbody : (response 503 (.problem text)).body = Text.encode (Reply.problem text).toJson.compact := rfl
  simp only [result, Delivery.ofResponse, ofResponse, hfailure, hbody, Control.decode_problem,
    Bool.false_eq_true, if_false]

/-- A client that calls a bridge for its health learns the number of the last signal. -/
theorem deliver_health (store : Store) (uptime : UInt64) (hphase : run.phase ≠ .over) :
    (∀ socket, Call.health.result socket (run.deliver store uptime Call.health.request).1 =
        .ok (Control.healthOf run.bridge uptime)) ∧
      (run.deliver store uptime Call.health.request).2 = run.conclude store := by
  rw [Run.deliver_of_answered hphase Control.ofRequest_health rfl rfl]
  exact ⟨fun socket => result_ofResponse _ socket (Control.Health.decode_toJson _), rfl⟩

/-- A client that calls a bridge for signals learns the page of the moment. -/
theorem deliver_signals (store : Store) (uptime : UInt64) (hphase : run.phase ≠ .over)
    (after : UInt64) :
    (∀ socket, (Call.signals after).result socket
          (run.deliver store uptime (Call.signals after).request).1 =
        .ok (.read run.bridge.bus.log run.bridge.bus.log after)) ∧
      (run.deliver store uptime (Call.signals after).request).2 = run.conclude store := by
  rw [Run.deliver_of_answered hphase (Control.ofRequest_signals after) rfl rfl]
  exact ⟨fun socket => result_ofResponse _ socket (Control.SignalPage.decode_toJson _), rfl⟩

/-- A client that calls a bridge to issue an order learns the identifier of its command. -/
theorem deliver_command (store : Store) (uptime : UInt64) (hphase : run.phase ≠ .over)
    (account : String) (order : Order) :
    (∀ socket, (Call.command account order).result socket
          (run.deliver store uptime (Call.command account order).request).1 =
        .ok (run.bridge.submit account order).1) ∧
      (run.deliver store uptime (Call.command account order).request).2 =
        ({ run with bridge := (run.bridge.submit account order).2 } : Run).conclude store := by
  rw [Run.deliver_of_answered hphase (Control.ofRequest_command account order) rfl rfl]
  exact ⟨fun socket => result_ofResponse _ socket (Control.decode_accepted _), rfl⟩

/-- Once the run is over there is no socket. -/
theorem deliver_over (hphase : run.phase = .over) :
    run.deliver store uptime request = (.noSocket, run) := by
  rw [Run.deliver, if_pos hphase]

end Client.Call

end Calls

end DaemonBridge
