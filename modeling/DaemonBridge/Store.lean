import DaemonBridge.Directory

/-!
# The store

What the bridge can ask of the worker's storage: the logins of one server, the logins of all servers
and the devices of all accounts. Each request is answered whole or fails.
-/

namespace DaemonBridge

/-- Why the store gives no answer. -/
inductive StoreError where
  | unavailable (reason : String)
  | corrupt (reason : String)
  deriving DecidableEq, Repr

/-- The wording of a failure. -/
def StoreError.message : StoreError → String
  | .unavailable reason => "store unavailable: " ++ reason
  | .corrupt reason => "corrupt store data: " ++ reason

/-- The answers that a store gives at one moment. -/
structure Store where
  loginsOf : String → Except StoreError (List Login)
  allLogins : Except StoreError (List Login)
  allDevices : Except StoreError DevicesByAccount

/-- A store that answers from a directory. -/
def Directory.store (d : Directory) : Store where
  loginsOf server := .ok (d.loginsOf server)
  allLogins := .ok d.allLogins
  allDevices := .ok d.devices

/-- A store that answers from a directory, if there is one. -/
def Store.ofLoad (load : Except StoreError Directory) : Store where
  loginsOf server := load.map fun d => d.loginsOf server
  allLogins := load.map Directory.allLogins
  allDevices := load.map Directory.devices

/-- The logins that an outage makes unavailable. -/
inductive LoginOutage where
  | none
  | all
  | server (name : String)
  deriving DecidableEq, Repr

/-- An outage of parts of a store. -/
structure Outage where
  logins : LoginOutage := .none
  devices : Bool := false
  reason : String := "disk gone"
  deriving DecidableEq, Repr

/-- A store during an outage. -/
def Store.during (store : Store) (outage : Outage) : Store where
  loginsOf server :=
    match outage.logins with
    | .none => store.loginsOf server
    | .all => .error (.unavailable outage.reason)
    | .server name => if name = server then .error (.unavailable outage.reason) else store.loginsOf server
  allLogins :=
    match outage.logins with
    | .all => .error (.unavailable outage.reason)
    | _ => store.allLogins
  allDevices := if outage.devices then .error (.unavailable outage.reason) else store.allDevices

end DaemonBridge
