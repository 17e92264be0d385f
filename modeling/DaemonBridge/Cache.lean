import DaemonBridge.Store

/-!
# The cache

The last snapshots of logins and devices that were loaded whole. A refresh replaces one of them
entirely or, when any load fails, leaves it as it was; queries are answered from the cache alone.
-/

namespace DaemonBridge

/-- The snapshots that queries are answered from. -/
structure Cache where
  logins : LoginsByServer := ∅
  devices : DevicesByAccount := ∅
  deriving DecidableEq, Repr

/-- The logins of some servers from the answers to the requests for them, in the sequence in which they
were asked; the first failure is the failure of all. -/
def collectLogins (answers : List (String × Except StoreError (List Login))) :
    Except StoreError LoginsByServer :=
  answers.foldlM (fun logins (server, answer) => answer.map fun l => logins.insert server l) ∅

namespace Cache

/-- The number of logins. -/
def loginCount (cache : Cache) : Nat :=
  cache.logins.values.flatten.length

/-- The number of devices. -/
def deviceCount (cache : Cache) : Nat :=
  ((cache.devices.values.flatMap Dict.values).flatMap Dict.entries).length

/-- Replace the logins by the answers to the requests for them. -/
def replaceLogins (cache : Cache) (answers : List (String × Except StoreError (List Login))) :
    Except StoreError Cache :=
  (collectLogins answers).map fun logins => { cache with logins := logins }

/-- Load the logins of the servers. -/
def refreshLogins (cache : Cache) (store : Store) (servers : List String) : Except StoreError Cache :=
  cache.replaceLogins (servers.map fun server => (server, store.loginsOf server))

/-- Load the devices. -/
def refreshDevices (cache : Cache) (store : Store) : Except StoreError Cache :=
  store.allDevices.map fun devices => { cache with devices := devices }

/-- The refreshed cache, or the old one if the refresh has failed. -/
def orKeep (cache : Cache) (refreshed : Except StoreError Cache) : Cache :=
  match refreshed with
  | .ok cache => cache
  | .error _ => cache

/-- Every device known to an account, by user and then by device identifier. -/
def devicesOf (cache : Cache) (account : String) : List Device :=
  ((cache.devices.find? account).getD ∅).all

/-- The devices of a user as known to an account. -/
def userDevices (cache : Cache) (account user : String) : List Device :=
  ((((cache.devices.find? account).getD ∅).find? user).getD ∅).values

end Cache

/-- A question that the cache answers. -/
inductive Inquiry where
  | servers
  | devices (account : String)
  | userDevices (account user : String)
  deriving DecidableEq, Repr

/-- The answer to a question. -/
inductive Finding where
  | servers (logins : LoginsByServer)
  | devices (devices : List Device)
  deriving DecidableEq, Repr

/-- Answer a question. -/
def Cache.answer (cache : Cache) : Inquiry → Finding
  | .servers => .servers cache.logins
  | .devices account => .devices (cache.devicesOf account)
  | .userDevices account user => .devices (cache.userDevices account user)

end DaemonBridge
