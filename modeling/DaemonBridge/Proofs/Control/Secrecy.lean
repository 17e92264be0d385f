import DaemonBridge.Control.Operation
import DaemonBridge.Proofs.Command.Secrecy
import DaemonBridge.Proofs.Json.Decoding

/-!
# Requests with other passphrases

A body for key orders says where its passphrase is: it is the member `passphrase` of the outermost object,
or the third element of the outermost array. Bodies that are the same but for a string at this place are
refused for the same reasons, and what they ask for is the same but for its passphrase
(`Control.Operation.masked_ofRequest`).
-/

namespace DaemonBridge

namespace Json

/-! ## Changed members -/

/-- A member whose value is changed in a way that depends on its name. -/
def changeMember (change : String → Tree → Tree) : Member → Member
  | (.str name, tree) => (.str name, change name tree)
  | member => member

namespace Record

variable {α β : Type}

/-- The record carries a change of the members over to a change of what it reads. -/
structure Carries (r : Record α) (change : String → Tree → Tree) (shift : r.Draft → r.Draft)
    (f : α → α) : Prop where
  blank : shift r.blank = r.blank
  accept : ∀ source name tree draft, name ∈ r.names →
    r.accept source name (change name tree) (shift draft) = (r.accept source name tree draft).map shift
  build : ∀ draft, r.build (shift draft) = (r.build draft).map f

variable {r : Record α} {s : Record β} {change : String → Tree → Tree} {shift : r.Draft → r.Draft}
  {shift' : s.Draft → s.Draft} {f : α → α} {g : β → β}

/-- A field carries over what its decoder does. -/
theorem carries_field {name : String} {decoder : Decoder α}
    (h : ∀ source tree, decoder source (change name tree) = (decoder source tree).map f) :
    (field name decoder).Carries change (Option.map f) f where
  blank := rfl
  accept source other tree draft hmem := by
    obtain rfl := List.mem_singleton.mp hmem
    cases draft with
    | some value => rfl
    | none =>
      show (decoder source (change other tree)).map some = ((decoder source tree).map some).map (Option.map f)
      rw [h]
      cases decoder source tree <;> rfl
  build draft := by cases draft <;> rfl

/-- Two records carry over what each of them does. -/
theorem Carries.and (hr : r.Carries change shift f) (hs : s.Carries change shift' g) :
    (r.and s).Carries change (Prod.map shift shift') (Prod.map f g) where
  blank := congrArg₂ Prod.mk hr.blank hs.blank
  accept source name tree draft hmem := by
    obtain ⟨d, e⟩ := draft
    by_cases hname : name ∈ r.names
    · have hfirst : ∀ tree d, (r.and s).accept source name tree (d, e) =
          (r.accept source name tree d).map fun d => (d, e) := fun _ _ => if_pos hname
      have hshifted : (r.and s).accept source name (change name tree) (shift d, shift' e) =
          (r.accept source name (change name tree) (shift d)).map fun d => (d, shift' e) := if_pos hname
      show (r.and s).accept source name (change name tree) (shift d, shift' e) = _
      rw [hshifted, hfirst, hr.accept source name tree d hname]
      cases r.accept source name tree d <;> rfl
    · have hother := (List.mem_append.mp hmem).resolve_left hname
      have hsecond : ∀ tree, (r.and s).accept source name tree (d, e) =
          (s.accept source name tree e).map fun e => (d, e) := fun _ => if_neg hname
      have hshifted : (r.and s).accept source name (change name tree) (shift d, shift' e) =
          (s.accept source name (change name tree) (shift' e)).map fun e => (shift d, e) := if_neg hname
      show (r.and s).accept source name (change name tree) (shift d, shift' e) = _
      rw [hshifted, hsecond, hs.accept source name tree e hother]
      cases s.accept source name tree e <;> rfl
  build draft := by
    obtain ⟨d, e⟩ := draft
    show (do
      let a ← r.build (shift d)
      let b ← s.build (shift' e)
      return (a, b)) = Except.map (Prod.map f g) (do
      let a ← r.build d
      let b ← s.build e
      return (a, b))
    rw [hr.build, hs.build]
    cases r.build d with
    | error fault => rfl
    | ok a => cases s.build e <;> rfl

/-- A record carries over the same, however it is put together in the end. -/
theorem Carries.map (h : r.Carries change shift f) {k : α → β} (hk : ∀ a, k (f a) = g (k a)) :
    (r.map k).Carries change shift g where
  blank := h.blank
  accept := h.accept
  build := by
    have hbuild : ∀ draft : r.Draft, (r.build (shift draft)).map k = ((r.build draft).map k).map g := by
      intro draft
      rw [h.build]
      cases r.build draft with
      | error fault => rfl
      | ok a => exact congrArg Except.ok (hk a)
    exact hbuild

/-- Changed members are filled in as the members are. -/
theorem Carries.fill (h : r.Carries change shift f)
    (hpass : ∀ name tree, (change name tree).pass = tree.pass) (source : Source) (members : List Member)
    (draft : r.Draft) :
    r.fill source (members.map (changeMember change)) (shift draft) =
      (r.fill source members draft).map shift := by
  induction members generalizing draft with
  | nil => rfl
  | cons member members ih =>
    obtain ⟨key, tree⟩ := member
    cases key with
    | str name =>
      simp only [List.map_cons, changeMember, Record.fill, Leaf.name, ok_bind]
      split
      · next hname =>
        rw [h.accept source name tree draft hname]
        cases r.accept source name tree draft with
        | error fault => rfl
        | ok next => exact ih next
      · rw [hpass]
        cases tree.pass with
        | error fault => rfl
        | ok _ => exact ih draft
    | null | bool | num | meaningless | broken => rfl

/-- A changed object is read as the object is. -/
theorem Carries.decoder_obj (h : r.Carries change shift f)
    (hpass : ∀ name tree, (change name tree).pass = tree.pass) (what : String) (source : Source)
    (members : List Member) (ending : Ending) :
    r.decoder what source (.obj (members.map (changeMember change)) ending) =
      (r.decoder what source (.obj members ending)).map f := by
  simp only [decoder, ofMembers]
  cases source.enter with
  | error fault => rfl
  | ok inner =>
    have hfill := h.fill hpass inner members r.blank
    rw [h.blank] at hfill
    rw [ok_bind, ok_bind, hfill]
    cases r.fill inner members r.blank with
    | error fault => rfl
    | ok draft =>
      show (faultless ending.fault? >>= fun _ => r.build (shift draft)) =
        (faultless ending.fault? >>= fun _ => r.build draft).map f
      rw [h.build]
      cases faultless ending.fault? <;> rfl

/-! ### Changed elements -/

/-- The record takes so many elements, and leaves those behind them alone. -/
def Takes (r : Record α) (width : Nat) : Prop :=
  ∀ source what index ending (items : List Tree) n touch,
    r.draw source what index ending (items.modify (width + n) touch) =
      (r.draw source what index ending items).map fun (a, rest) => (a, rest.modify n touch)

/-- The record carries a change of the element at a position over to a change of what it reads. -/
def CarriesAt (r : Record α) (position : Nat) (touch : Tree → Tree) (f : α → α) : Prop :=
  ∀ source what index ending (items : List Tree),
    r.draw source what index ending (items.modify position touch) =
      (r.draw source what index ending items).map fun (a, rest) => (f a, rest)

/-- A field takes one element. -/
theorem takes_field (name : String) (decoder : Decoder α) : (field name decoder).Takes 1 := by
  intro source what index ending items n touch
  cases items with
  | nil =>
    rw [List.modify_nil]
    cases ending <;> rfl
  | cons item items =>
    rw [Nat.add_comm, List.modify_succ_cons]
    show (decoder source item).bind _ = ((decoder source item).bind _).map _
    cases decoder source item <;> rfl

/-- A field carries over what its decoder does. -/
theorem carriesAt_field {name : String} {decoder : Decoder α} {touch : Tree → Tree}
    (h : ∀ source tree, decoder source (touch tree) = (decoder source tree).map f) :
    (field name decoder).CarriesAt 0 touch f := by
  intro source what index ending items
  cases items with
  | nil => cases ending <;> rfl
  | cons item items =>
    rw [List.modify_zero_cons]
    show (decoder source (touch item)).bind _ = ((decoder source item).bind _).map _
    rw [h]
    cases decoder source item <;> rfl

/-- The second of two records carries over changes behind the elements of the first. -/
theorem CarriesAt.and {width position : Nat} {touch : Tree → Tree} (hs : s.CarriesAt position touch g)
    (hr : r.Takes width) : (r.and s).CarriesAt (width + position) touch (Prod.map id g) := by
  intro source what index ending items
  show (r.draw source what index ending (items.modify (width + position) touch)).bind _ =
    ((r.draw source what index ending items).bind _).map _
  rw [hr]
  cases r.draw source what index ending items with
  | error fault => rfl
  | ok drawn =>
    obtain ⟨a, rest⟩ := drawn
    show (s.draw source what _ ending (rest.modify position touch)).bind _ =
      ((s.draw source what _ ending rest).bind _).map _
    rw [hs]
    cases s.draw source what (index + r.names.length) ending rest <;> rfl

/-- A record carries over the same, however it is put together in the end. -/
theorem CarriesAt.map {position : Nat} {touch : Tree → Tree} (h : r.CarriesAt position touch f) {k : α → β}
    (hk : ∀ a, k (f a) = g (k a)) : (r.map k).CarriesAt position touch g := by
  intro source what index ending items
  show (r.draw source what index ending (items.modify position touch)).map _ =
    ((r.draw source what index ending items).map _).map _
  rw [h]
  cases r.draw source what index ending items with
  | error fault => rfl
  | ok drawn => exact congrArg (fun b => Except.ok (b, drawn.2)) (hk drawn.1)

/-- A changed array is read as the array is. -/
theorem CarriesAt.decoder_arr {position : Nat} {touch : Tree → Tree} (h : r.CarriesAt position touch f)
    (what : String) (source : Source) (items : List Tree) (ending : Ending) :
    r.decoder what source (.arr (items.modify position touch) ending) =
      (r.decoder what source (.arr items ending)).map f := by
  simp only [decoder]
  cases source.enter with
  | error fault => rfl
  | ok inner =>
    rw [ok_bind, ok_bind, h, List.length_modify]
    cases r.draw inner (what ++ " with " ++ elements r.names.length) 0 ending items with
    | error fault => rfl
    | ok drawn =>
      obtain ⟨a, rest⟩ := drawn
      show (source.leave (items.length - rest.length) rest ending).bind _ =
        ((source.leave (items.length - rest.length) rest ending).bind _).map _
      cases source.leave (items.length - rest.length) rest ending <;> rfl

end Record

/-! ## Bodies without a passphrase -/

/-- A string without what it says; anything else as it is. -/
def Tree.muted : Tree → Tree
  | .leaf (.str _) => .leaf (.str "")
  | tree => tree

/-- A passphrase without what it says; any other value as it is. -/
def mutePassphrase (name : String) (tree : Tree) : Tree :=
  if name = "passphrase" then tree.muted else tree

/-- A body without its passphrase, which is a member or the third element. -/
def Tree.masked : Tree → Tree
  | .obj members ending => .obj (members.map (changeMember mutePassphrase)) ending
  | .arr items ending => .arr (items.modify 2 Tree.muted) ending
  | tree => tree

/-- A whole body without its passphrase. -/
def Document.masked (document : Document) : Document :=
  { document with tree := document.tree.masked }

/-- Whatever a string says, it can be passed over. -/
theorem pass_mutePassphrase (name : String) (tree : Tree) : (mutePassphrase name tree).pass = tree.pass := by
  unfold mutePassphrase
  split
  · unfold Tree.muted
    split <;> rfl
  · rfl

/-- A string is read from a string only. -/
theorem string_muted (source : Source) (tree : Tree) :
    string source tree.muted = (string source tree).map fun _ => "" := by
  cases tree with
  | leaf leaf => cases leaf <;> rfl
  | arr | obj => rfl

/-- What is decoded of a body without its passphrase. -/
theorem Document.decode_masked {α : Type} {decoder : Decoder α} {f : α → α}
    (h : ∀ source tree, decoder source tree.masked = (decoder source tree).map f) (document : Document) :
    document.masked.decode decoder = (document.decode decoder).map f := by
  obtain ⟨tree, trailing⟩ := document
  show (decoder .document tree.masked).bind _ = ((decoder .document tree).bind _).map f
  rw [h]
  cases decoder .document tree with
  | error reason => rfl
  | ok value => cases trailing <;> rfl

end Json

namespace Control

open Json (Record Tree)

namespace KeyRequest

/-- The fields of a key request. -/
def record : Record KeyRequest :=
  ((Record.field "pan_user" Json.string).and KeyFile.record).map fun (account, file) => ⟨account, file⟩

/-- The passphrase of a key request comes from the member of this name. -/
theorem record_carries : ∃ shift, record.Carries Json.mutePassphrase shift masked := by
  have hplain : ∀ {α : Type} {name : String} {decoder : Json.Decoder α}, name ≠ "passphrase" →
      (Record.field name decoder).Carries Json.mutePassphrase (Option.map id) id := fun hname =>
    Record.carries_field fun source tree => by
      rw [Json.mutePassphrase, if_neg hname]
      exact (Except.map_id ▸ rfl)
  have hsecret : (Record.field "passphrase" Json.string).Carries Json.mutePassphrase
      (Option.map fun _ => "") fun _ => "" :=
    Record.carries_field fun source tree => Json.string_muted source tree
  have hfile : KeyFile.record.Carries Json.mutePassphrase _ KeyFile.masked :=
    ((hplain (by decide)).and hsecret).map fun _ => rfl
  exact ⟨_, ((hplain (by decide)).and hfile).map fun _ => rfl⟩

/-- Or it is the third element. -/
theorem record_carriesAt : record.CarriesAt 2 Tree.muted masked := by
  have hsecret : (Record.field "passphrase" Json.string).CarriesAt 0 Tree.muted fun _ => "" :=
    Record.carriesAt_field Json.string_muted
  have hfile : KeyFile.record.CarriesAt 1 Tree.muted KeyFile.masked :=
    (hsecret.and (Record.takes_field _ _)).map fun _ => rfl
  exact (hfile.and (Record.takes_field _ _)).map fun _ => rfl

/-- A body without its passphrase is read as the same request without its passphrase. -/
theorem decoder_masked (source : Json.Source) (tree : Tree) :
    decoder source tree.masked = (decoder source tree).map masked := by
  cases tree with
  | leaf leaf => rfl
  | obj members ending =>
    obtain ⟨shift, hcarries⟩ := record_carries
    exact hcarries.decoder_obj Json.pass_mutePassphrase _ source members ending
  | arr items ending => exact record_carriesAt.decoder_arr _ source items ending

end KeyRequest

/-! ## Operations -/

/-- An operation without a passphrase. -/
def Operation.masked : Operation → Operation
  | .submit account order => .submit account order.masked
  | operation => operation

/-- The requests are the same, or they are the same but for the passphrases in their bodies for key orders. -/
structure AlikeRequests (request request' : Http.Request) : Prop where
  method_eq : request.method = request'.method
  target_eq : request.target = request'.target
  contentType_eq : request.contentType = request'.contentType
  body_alike : request.body = request'.body ∨
    (∃ transfer, request.path = (OrderKind.keys transfer).path) ∧
      (Json.Document.ofBytes request.body).masked = (Json.Document.ofBytes request'.body).masked

/-- A request is like itself. -/
theorem AlikeRequests.refl (request : Http.Request) : AlikeRequests request request :=
  ⟨rfl, rfl, rfl, .inl rfl⟩

/-- Requests that are alike lead to the same place. -/
theorem AlikeRequests.path_eq {request request' : Http.Request} (h : AlikeRequests request request') :
    request.path = request'.path := by
  simp only [Http.Request.path, Http.Request.resource, h.target_eq]

/-- Alike requests are the same, or go to an endpoint for key orders with the same body but for its
passphrase. -/
theorem AlikeRequests.eq_or_keys {request request' : Http.Request} (h : AlikeRequests request request') :
    request = request' ∨ (∃ transfer, Endpoint.ofPath? request.path = some (.order (.keys transfer))) ∧
      (Json.Document.ofBytes request.body).masked = (Json.Document.ofBytes request'.body).masked := by
  obtain ⟨method, target, contentType, body⟩ := request
  obtain ⟨method', target', contentType', body'⟩ := request'
  obtain ⟨rfl, rfl, rfl, rfl | ⟨⟨transfer, hpath⟩, hbody⟩⟩ := h
  · exact .inl rfl
  · refine .inr ⟨⟨transfer, ?_⟩, hbody⟩
    rw [hpath]
    exact Endpoint.ofPath?_path (.order (.keys transfer))

/-- Two results that are the same when they are put otherwise are the same failure or both successes. -/
theorem cases_of_map_eq_map {α β ε : Type} {f : α → β} {x y : Except ε α} (h : x.map f = y.map f) :
    (∃ reason, x = .error reason ∧ y = .error reason) ∨ ∃ a b, x = .ok a ∧ y = .ok b ∧ f a = f b := by
  cases x with
  | error reason =>
    cases y with
    | error reason' => exact .inl ⟨reason, rfl, congrArg Except.error (Except.error.inj h).symm⟩
    | ok b => exact nomatch h
  | ok a =>
    cases y with
    | error reason => exact nomatch h
    | ok b => exact .inr ⟨a, b, rfl, rfl, Except.ok.inj h⟩

/-- What is decoded of bodies that are the same without their passphrases is the same without. -/
theorem map_decodeBody_eq {α : Type} {decoder : Json.Decoder α} {f : α → α}
    (hdecoder : ∀ source tree, decoder source tree.masked = (decoder source tree).map f)
    {request request' : Http.Request} (htype : request.contentType = request'.contentType)
    (hbody : (Json.Document.ofBytes request.body).masked = (Json.Document.ofBytes request'.body).masked) :
    (decodeBody request decoder).map f = (decodeBody request' decoder).map f := by
  have hdecoded : ((Json.Document.ofBytes request.body).decode decoder).map f =
      ((Json.Document.ofBytes request'.body).decode decoder).map f := by
    rw [← Json.Document.decode_masked hdecoder, hbody, Json.Document.decode_masked hdecoder]
  unfold decodeBody
  rw [htype]
  split
  · rcases cases_of_map_eq_map hdecoded with ⟨reason, hfirst, hsecond⟩ | ⟨value, value', hfirst, hsecond, heq⟩
    · rw [hfirst, hsecond]
    · rw [hfirst, hsecond]
      exact congrArg Except.ok heq
  · rfl

/-- A body for key orders asks for the same without its passphrase. -/
theorem orderDecoder_masked (transfer : KeyTransfer) (source : Json.Source) (tree : Tree) :
    orderDecoder (.keys transfer) source tree.masked =
      (orderDecoder (.keys transfer) source tree).map fun (account, order) => (account, order.masked) := by
  show (KeyRequest.decoder source tree.masked).map _ = ((KeyRequest.decoder source tree).map _).map _
  rw [KeyRequest.decoder_masked]
  cases KeyRequest.decoder source tree <;> rfl

/-- Alike requests are refused alike or ask for the same but for its passphrase. -/
theorem Operation.masked_ofRequest {request request' : Http.Request} (h : AlikeRequests request request') :
    (ofRequest request).map masked = (ofRequest request').map masked := by
  rcases h.eq_or_keys with rfl | ⟨⟨transfer, hendpoint⟩, hbody⟩
  · rfl
  · have hbodies := map_decodeBody_eq (orderDecoder_masked transfer) h.contentType_eq hbody
    unfold ofRequest
    rw [← h.path_eq, ← h.method_eq, hendpoint]
    dsimp only
    split
    · show ((decodeBody request _).map _).map masked = ((decodeBody request' _).map _).map masked
      rcases cases_of_map_eq_map hbodies with
        ⟨refusal, hfirst, hsecond⟩ | ⟨asked, asked', hfirst, hsecond, heq⟩
      · rw [hfirst, hsecond]
      · obtain ⟨haccount, horder⟩ := Prod.mk.inj heq
        rw [hfirst, hsecond]
        exact congrArg Except.ok (congrArg₂ Operation.submit haccount horder)
    · rfl

/-- What diagnostics show of the key request in a body, if it is one. -/
def shownKeyRequest? (request : Http.Request) : Option String :=
  match Endpoint.ofPath? request.path with
  | some (.order (.keys _)) => (decodeBody request KeyRequest.decoder).toOption.map KeyRequest.shown
  | _ => none

/-- Of alike requests diagnostics show the same. -/
theorem shownKeyRequest?_eq {request request' : Http.Request} (h : AlikeRequests request request') :
    shownKeyRequest? request = shownKeyRequest? request' := by
  rcases h.eq_or_keys with rfl | ⟨⟨transfer, hendpoint⟩, hbody⟩
  · rfl
  · have hbodies := map_decodeBody_eq KeyRequest.decoder_masked h.contentType_eq hbody
    unfold shownKeyRequest?
    rw [← h.path_eq, hendpoint]
    rcases cases_of_map_eq_map hbodies with ⟨refusal, hfirst, hsecond⟩ | ⟨r, r', hfirst, hsecond, heq⟩
    · rw [hfirst, hsecond]
    · rw [hfirst, hsecond]
      show some r.masked.shown = some r'.masked.shown
      rw [heq]

end Control

end DaemonBridge
