import DaemonBridge.Queue.Outbound
import DaemonBridge.Signal

/-!
# Notifications

What the user's desktop shows for an event that wants attention. An action of a notification stands
for an order that is issued when the user picks it; building or dropping a notification issues none.
-/

namespace DaemonBridge

/-- What picking an action does: issue an order for an account, or name a command issued elsewhere. -/
inductive ActionEffect where
  | order (account : String) (order : Order)
  | issued (id : CommandId)
  deriving DecidableEq, Repr

/-- A button. -/
structure NotificationAction where
  key : String
  label : String
  effect : ActionEffect
  deriving DecidableEq, Repr

/-- A notification. -/
structure Notification where
  summary : String
  body : String
  category : String := "im"
  actions : List NotificationAction := []
  deriving DecidableEq, Repr

/-- Issue what an action stands for and return the identifier of the command. -/
def ActionEffect.invoke (effect : ActionEffect) (desk : Desk) : CommandId × Desk :=
  match effect with
  | .order account wanted => desk.submit account wanted
  | .issued id => (id, desk)

namespace Notification

/-- A button that issues an order about the device of a verification. -/
def verificationAction (v : Verification) (key label : String) (action : DeviceAction) :
    NotificationAction :=
  ⟨key, label, .order v.account (.device action ⟨v.user, v.device⟩)⟩

/-- The button that gives a verification up. -/
def cancelAction (v : Verification) : NotificationAction :=
  verificationAction v "cancel" "Cancel" .cancelVerification

/-- The notification of an event, if it wants attention. -/
def ofEvent? : Event → Option Notification
  | .messageHeld held => some {
      summary := "Unverified devices."
      body := "There are unverified devices in the room " ++ held.roomName ++ "."
      actions := [⟨"send", "Send anyways", .order held.account (.room .send held.room)⟩,
        ⟨"cancel", "Cancel sending", .order held.account (.room .cancel held.room)⟩] }
  | .verificationInvited v => some {
      summary := "Key verification invite"
      body := v.user ++ " via " ++ v.device ++ " has started a key verification process."
      actions := [verificationAction v "accept" "Accept" .acceptVerification, cancelAction v] }
  | .symbolsReady v symbols => some {
      summary := "Short authentication string"
      body := "Short authentication string for the key verification of " ++ v.user ++ " via " ++ v.device ++
        ":\n" ++ String.intercalate "   " (symbols.map Symbol.emoji)
      actions := [verificationAction v "confirm" "Confirm" .confirmVerification, cancelAction v] }
  | .verificationDone v => some {
      summary := "Device successfully verified."
      body := "Device " ++ v.device ++ " of user " ++ v.user ++ " successfully verified." }
  | .verificationCanceled v reason _ => some {
      summary := "Key verification canceled"
      body := "Key verification of " ++ v.user ++ " via " ++ v.device ++ " was canceled: " ++ reason }
  | .usersChanged | .devicesChanged | .answered _ | .unrecognized => none

/-- The first action with a key. -/
def action? (n : Notification) (key : String) : Option NotificationAction :=
  n.actions.find? fun action => action.key == key

/-- Pick the action with a key, if there is one. -/
def trigger (n : Notification) (key : String) (desk : Desk) : Option CommandId × Desk :=
  match n.action? key with
  | some action =>
    let (id, desk) := action.effect.invoke desk
    (some id, desk)
  | none => (none, desk)

/-- The notification without its actions. -/
def withoutActions (n : Notification) : Notification :=
  { n with actions := [] }

end Notification

/-- An action as diagnostics show it. -/
def NotificationAction.shown (action : NotificationAction) : String :=
  "NotificationAction \x7b key: " ++ Text.quoted action.key ++ ", label: " ++ Text.quoted action.label ++
    ", .. \x7d"

/-- A notification as diagnostics show it. -/
def Notification.shown (n : Notification) : String :=
  "Notification \x7b summary: " ++ Text.quoted n.summary ++ ", body: " ++ Text.quoted n.body ++
    ", category: " ++ Text.quoted n.category ++ ", actions: [" ++
    String.intercalate ", " (n.actions.map NotificationAction.shown) ++ "] \x7d"

end DaemonBridge
