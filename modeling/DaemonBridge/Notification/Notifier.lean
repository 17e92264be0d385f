import DaemonBridge.Notification

/-!
# The notifier

Whether notifications reach a desktop, decided once: they are switched on and the desktop answered a
probe. What is shown then lacks its actions if the desktop cannot offer any.
-/

namespace DaemonBridge

/-- What a desktop can do. -/
structure Capabilities where
  actions : Bool := false
  deriving DecidableEq, Repr

/-- Why a desktop does not show a notification. -/
inductive DisplayError where
  | unavailable (reason : String)
  | display (reason : String)
  deriving DecidableEq, Repr

/-- The wording of an error. -/
def DisplayError.message : DisplayError → String
  | .unavailable reason => "notification server unavailable: " ++ reason
  | .display reason => "failed to display notification: " ++ reason

/-- A desktop: its name and its answer to a probe. -/
structure Desktop where
  name : String
  probe : Except DisplayError Capabilities

/-- The desktop in use, if any, and what it can do. -/
structure Notifier where
  desktop : Option String := none
  capabilities : Capabilities := {}
  deriving DecidableEq, Repr

namespace Notifier

/-- A notifier that drops everything. -/
def disabled : Notifier := {}

/-- Probe a desktop and keep it if it answers. -/
def start (enabled : Bool) (desktop : Desktop) : Notifier :=
  if enabled then
    match desktop.probe with
    | .ok capabilities => ⟨some desktop.name, capabilities⟩
    | .error _ => disabled
  else disabled

/-- Notifications are shown. -/
def isEnabled (n : Notifier) : Bool :=
  n.desktop.isSome

/-- What the desktop is given to show for a notification; nothing without a runtime to show it in. -/
def forDesktop? (n : Notifier) (runtime : Bool) (notification : Notification) : Option Notification :=
  if n.isEnabled && runtime then
    some (if n.capabilities.actions then notification else notification.withoutActions)
  else none

/-- A notifier as diagnostics show it. -/
def shown (n : Notifier) : String :=
  "Notifier \x7b backend: " ++ (match n.desktop with
    | some name => "Some(" ++ Text.quoted name ++ ")"
    | none => "None") ++
    ", capabilities: Capabilities \x7b actions: " ++ (if n.capabilities.actions then "true" else "false") ++
    " \x7d \x7d"

end Notifier

end DaemonBridge
