import DaemonBridge.Dict

/-!
# The directory of accounts and devices

What the worker stores: the logins of the proxy on each server, and the devices of other users as
each account knows them. A device is filed under the account, the user and the device identifier.
-/

namespace DaemonBridge

/-- A user of a homeserver and the device that the proxy logged in as. -/
structure Login where
  user : String
  device : String
  deriving DecidableEq, Repr

/-- A device of another user, as one account knows it. -/
structure Device where
  user : String
  device : String
  displayName : String := ""
  fingerprint : String := ""
  verified : Bool := false
  blacklisted : Bool := false
  deriving DecidableEq, Repr

/-- The devices known to one account, by user and device identifier. -/
abbrev DevicesByUser := Dict (Dict Device)

/-- The devices known to every account. -/
abbrev DevicesByAccount := Dict DevicesByUser

/-- The logins on each server. -/
abbrev LoginsByServer := Dict (List Login)

/-- Everything that the worker stores. -/
structure Directory where
  logins : LoginsByServer := ∅
  devices : DevicesByAccount := ∅
  deriving DecidableEq, Repr

/-- The devices of all users, by user and then by device identifier. -/
def DevicesByUser.all (users : DevicesByUser) : List Device :=
  users.values.flatMap Dict.values

namespace Directory

/-- Replace the logins of a server. -/
def setLogins (d : Directory) (server : String) (logins : List Login) : Directory :=
  { d with logins := d.logins.insert server logins }

/-- Add a login after the others of its server. -/
def addLogin (d : Directory) (server : String) (login : Login) : Directory :=
  { d with logins := d.logins.update server [] (· ++ [login]) }

/-- Forget the logins of a server. -/
def removeServer (d : Directory) (server : String) : Directory :=
  { d with logins := d.logins.erase server }

/-- File a device under an account, in place of an earlier record of the same device. -/
def putDevice (d : Directory) (account : String) (device : Device) : Directory :=
  { d with
    devices := d.devices.update account ∅ fun users =>
      users.update device.user ∅ fun devices => devices.insert device.device device }

/-- Replace the devices of every account. -/
def setDevices (d : Directory) (devices : DevicesByAccount) : Directory :=
  { d with devices := devices }

/-- The logins of a server. -/
def loginsOf (d : Directory) (server : String) : List Login :=
  (d.logins.find? server).getD []

/-- The logins of every server, in the order of the servers' names. -/
def allLogins (d : Directory) : List Login :=
  d.logins.values.flatten

/-- A server has one more login when one is added. -/
theorem loginsOf_addLogin (d : Directory) (server : String) (login : Login) :
    (d.addLogin server login).loginsOf server = d.loginsOf server ++ [login] := by
  rw [loginsOf, addLogin, Dict.update, Dict.find?_insert, if_pos rfl]
  rfl

/-- A login on one server leaves those on the others alone. -/
theorem loginsOf_addLogin_of_ne (d : Directory) {server other : String} (login : Login)
    (h : other ≠ server) : (d.addLogin server login).loginsOf other = d.loginsOf other := by
  rw [loginsOf, addLogin, Dict.update, Dict.find?_insert, if_neg h]
  rfl

end Directory

end DaemonBridge
