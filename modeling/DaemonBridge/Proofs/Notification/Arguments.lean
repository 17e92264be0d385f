import DaemonBridge.Notification.NotifySend
import DaemonBridge.Proofs.Text.Percent

/-!
# The arguments for notify-send

The program takes each argument that begins with a dash for an option and everything else for a text, of
which it expects two, a summary and a body (`NotifySend.Argument.read`). The value of an option stands
behind its name in the same argument, so that whatever it is, it is no option of its own. The summary and
the body stand alone, so that it matters how they begin.

The notifications of events have summaries with fixed words, and their bodies begin with fixed words as well,
except for that of an invitation, which begins with the name of the user who invites. Therefore the
arguments are read back as what they were made from unless that name begins with a dash
(`NotifySend.arguments_read_back_iff`).
-/

namespace DaemonBridge

namespace NotifySend

/-- An argument is an option if it begins with a dash. -/
def isOption (argument : String) : Bool :=
  argument.toList.head? == some '-'

/-- What stands on both sides of the first equals sign, if there is one. -/
def assignment? (text : String) : Option (String × String) :=
  if '=' ∈ text.toList then
    let (name, value) := Text.splitFirst '=' text.toList
    some (String.ofList name, String.ofList value)
  else none

/-- What an argument says. -/
inductive Argument where
  | appName (name : String)
  | category (category : String)
  | button (key : Option String) (label : String)
  | wait
  | other (option : String) (value : Option String)
  | text (text : String)
  deriving DecidableEq, Repr

namespace Argument

/-- What an option with a value says. A button may do without a key. -/
def ofOption (option value : String) : Argument :=
  match option with
  | "--app-name" => .appName value
  | "--category" => .category value
  | "--action" =>
    match assignment? value with
    | some (key, label) => .button (some key) label
    | none => .button none value
  | _ => .other option (some value)

/-- How an argument is read. -/
def read (argument : String) : Argument :=
  if isOption argument then
    match assignment? argument with
    | some (option, value) => ofOption option value
    | none => if argument = "--wait" then .wait else .other argument none
  else .text argument

end Argument

/-- The options for a category and some buttons, each a key and a label. -/
def options (appName category : String) (buttons : List (String × String)) : List String :=
  ["--app-name=" ++ appName, "--category=" ++ category] ++
    (buttons.map fun (key, label) => "--action=" ++ key ++ "=" ++ label) ++
    if buttons.isEmpty then [] else ["--wait"]

/-- What they are to say. -/
def demands (appName category : String) (buttons : List (String × String)) : List Argument :=
  [.appName appName, .category category] ++
    (buttons.map fun (key, label) => .button (some key) label) ++
    if buttons.isEmpty then [] else [.wait]

end NotifySend

/-- The keys and the labels of the actions. -/
def Notification.buttons (n : Notification) : List (String × String) :=
  n.actions.map fun action => (action.key, action.label)

/-- The buttons that the notifications of a kind of events have. -/
def EventKind.buttons : EventKind → List (String × String)
  | .messageHeld => [("send", "Send anyways"), ("cancel", "Cancel sending")]
  | .verificationInvited => [("accept", "Accept"), ("cancel", "Cancel")]
  | .symbolsReady => [("confirm", "Confirm"), ("cancel", "Cancel")]
  | .usersChanged | .devicesChanged | .verificationDone | .verificationCanceled | .answered
  | .unrecognized => []

/-- The event is an invitation by a user whose name begins with a dash. -/
def Event.isDashedInvitation : Event → Bool
  | .verificationInvited v => NotifySend.isOption v.user
  | _ => false

namespace NotifySend

variable {appName category key label front rest : String} {buttons : List (String × String)}

/-! ## Reading one argument -/

/-- What is put together with an equals sign is taken apart there, if the name has none of its own. -/
theorem assignment?_append (h : '=' ∉ front.toList) (value : String) :
    assignment? (front ++ "=" ++ value) = some (front, value) := by
  have hlist : (front ++ "=" ++ value).toList = front.toList ++ '=' :: value.toList := by
    simp [String.toList_append]
  rw [assignment?, hlist, if_pos (by simp), Text.splitFirst_append h]
  simp only [String.ofList_toList]

/-- What is found in front of an equals sign has none of its own. -/
theorem not_mem_of_assignment? {text value : String} (h : assignment? text = some (front, value)) :
    '=' ∉ front.toList := by
  unfold assignment? at h
  split at h
  · obtain ⟨rfl, -⟩ := Prod.mk.inj (Option.some.inj h)
    rw [String.toList_ofList]
    intro hmem
    simpa using List.mem_takeWhile_imp hmem
  · exact nomatch h

/-- How a text begins decides whether it is an option, whatever follows. -/
theorem isOption_append {dashed : Bool} (hne : front ≠ "") (h : isOption front = dashed) (rest : String) :
    isOption (front ++ rest) = dashed := by
  obtain ⟨c, chars, hfront⟩ := List.exists_cons_of_ne_nil (String.toList_eq_nil_iff.not.mpr hne)
  rw [isOption, hfront, List.head?_cons] at h
  rw [isOption, String.toList_append, hfront, List.cons_append, List.head?_cons, h]

/-- Its first part decides even if that may be empty, as long as no option follows. -/
theorem isOption_append_of_not_isOption (h : isOption rest = false) (front : String) :
    isOption (front ++ rest) = isOption front := by
  rw [isOption, isOption, String.toList_append, List.head?_append]
  cases front.toList.head? with
  | none => exact h
  | some c => rfl

/-- An option is read by its name, whatever its value is. -/
theorem read_option (option value : String) (hdash : isOption option = true) (h : '=' ∉ option.toList) :
    Argument.read (option ++ "=" ++ value) = .ofOption option value := by
  have hne : option ≠ "" := fun heq => nomatch heq ▸ hdash
  have hoption : isOption (option ++ "=" ++ value) = true := by
    rw [String.append_assoc, isOption_append hne hdash]
  rw [Argument.read, if_pos hoption, assignment?_append h]

/-- The name of the program that notifies is read back, whatever it is. -/
theorem read_appName (value : String) : Argument.read ("--app-name=" ++ value) = .appName value :=
  read_option "--app-name" value (by decide) (by decide)

/-- So is the category. -/
theorem read_category (value : String) : Argument.read ("--category=" ++ value) = .category value :=
  read_option "--category" value (by decide) (by decide)

/-- A button is read back exactly if its key has no equals sign; its label may have some. -/
theorem read_action_iff :
    Argument.read ("--action=" ++ key ++ "=" ++ label) = .button (some key) label ↔ '=' ∉ key.toList := by
  have hread : Argument.read ("--action=" ++ key ++ "=" ++ label) =
      match assignment? (key ++ "=" ++ label) with
      | some (key, label) => .button (some key) label
      | none => .button none (key ++ "=" ++ label) := by
    have hargument : "--action=" ++ key ++ "=" ++ label = "--action=" ++ (key ++ "=" ++ label) := by
      simp only [String.append_assoc]
    rw [hargument]
    exact read_option "--action" (key ++ "=" ++ label) (by decide) (by decide)
  rw [hread]
  constructor
  · intro hbutton
    cases hcut : assignment? (key ++ "=" ++ label) with
    | none =>
      rw [hcut] at hbutton
      exact nomatch hbutton
    | some cut =>
      rw [hcut] at hbutton
      obtain ⟨hkey, -⟩ := Argument.button.inj hbutton
      exact Option.some.inj hkey ▸ not_mem_of_assignment? hcut
  · intro hkey
    rw [assignment?_append hkey]

/-- An option with a value is no text. -/
theorem ofOption_ne_text (option value text : String) : Argument.ofOption option value ≠ .text text := by
  unfold Argument.ofOption
  split
  · exact nofun
  · exact nofun
  · split <;> exact nofun
  · exact nofun

/-- An argument is read as a text exactly if it is no option, and then as itself. -/
theorem read_eq_text_iff {argument text : String} :
    Argument.read argument = .text text ↔ isOption argument = false ∧ argument = text := by
  unfold Argument.read
  cases isOption argument with
  | false => exact ⟨fun htext => ⟨rfl, Argument.text.inj htext⟩, fun h => congrArg Argument.text h.2⟩
  | true =>
    refine ⟨fun htext => absurd htext ?_, nofun⟩
    rw [if_pos rfl]
    cases assignment? argument with
    | some cut => exact ofOption_ne_text cut.1 cut.2 text
    | none =>
      show (if argument = "--wait" then Argument.wait else .other argument none) ≠ .text text
      split <;> exact nofun

/-! ## Reading all arguments -/

/-- The arguments are options first, then the summary and the body. -/
theorem arguments_eq (appName : String) (n : Notification) :
    arguments appName n = options appName n.category n.buttons ++ [n.summary, n.body] := by
  simp only [arguments, options, Notification.buttons, List.map_map, Function.comp_def, List.isEmpty_map]

/-- The options say what they are to say exactly if no key has an equals sign. -/
theorem map_read_options_iff :
    (options appName category buttons).map Argument.read = demands appName category buttons ↔
      ∀ button ∈ buttons, '=' ∉ button.1.toList := by
  have hwait : (if buttons.isEmpty then [] else ["--wait"]).map Argument.read =
      if buttons.isEmpty then [] else [.wait] := by
    split
    · rfl
    · exact congrArg (· :: []) (by decide)
  rw [options, demands, List.map_append, hwait, List.append_left_inj, List.map_append, List.map_cons,
    List.map_cons, List.map_nil, read_appName, read_category, List.append_right_inj, List.map_map,
    List.map_inj_left]
  exact forall₂_congr fun _ _ => read_action_iff

/-- Options are taken for options. -/
theorem isOption_of_mem_options {argument : String} (h : argument ∈ options appName category buttons) :
    isOption argument = true := by
  rw [options, List.mem_append, List.mem_append] at h
  rcases h with (h | h) | h
  · rcases List.mem_cons.mp h with rfl | h
    · exact isOption_append (by decide) (by decide) _
    · obtain rfl := List.mem_singleton.mp h
      exact isOption_append (by decide) (by decide) _
  · obtain ⟨⟨key, label⟩, -, rfl⟩ := List.mem_map.mp h
    simp only [String.append_assoc]
    exact isOption_append (by decide) (by decide) _
  · split at h
    · exact nomatch h
    · obtain rfl := List.mem_singleton.mp h
      decide

/-- If no key has an equals sign, then all depends on how the summary and the body are read. -/
theorem map_read_arguments (appName : String) {n : Notification}
    (h : ∀ button ∈ n.buttons, '=' ∉ button.1.toList) :
    (arguments appName n).map Argument.read =
      demands appName n.category n.buttons ++ [.read n.summary, .read n.body] := by
  rw [arguments_eq, List.map_append, map_read_options_iff.mpr h]
  rfl

/-- The arguments for any notification are read back exactly if no key has an equals sign and neither the
summary nor the body begins with a dash. -/
theorem map_read_arguments_iff (appName : String) (n : Notification) :
    (arguments appName n).map Argument.read =
        demands appName n.category n.buttons ++ [.text n.summary, .text n.body] ↔
      (∀ button ∈ n.buttons, '=' ∉ button.1.toList) ∧ isOption n.summary = false ∧
        isOption n.body = false := by
  constructor
  · intro hall
    rw [arguments_eq, List.map_append] at hall
    obtain ⟨hoptions, htexts⟩ := List.append_inj' hall rfl
    obtain ⟨hsummary, hrest⟩ := List.cons.inj htexts
    exact ⟨map_read_options_iff.mp hoptions, (read_eq_text_iff.mp hsummary).1,
      (read_eq_text_iff.mp (List.cons.inj hrest).1).1⟩
  · rintro ⟨hkeys, hsummary, hbody⟩
    rw [map_read_arguments appName hkeys, read_eq_text_iff.mpr ⟨hsummary, rfl⟩,
      read_eq_text_iff.mpr ⟨hbody, rfl⟩]

/-! ## The notifications of events -/

/-- How a notification of an event is worded, as far as its arguments are concerned: its category and its
buttons are those of the kind of the event, and neither text begins with a dash, but for the body of an
invitation by a user whose name does. -/
structure Words (event : Event) (withButtons : Bool) (n : Notification) : Prop where
  category_eq : n.category = "im"
  buttons_eq : n.buttons = if withButtons then event.kind.buttons else []
  isOption_summary : isOption n.summary = false
  isOption_body : isOption n.body = event.isDashedInvitation

/-- The notifications of events are so worded. -/
theorem words_ofEvent? {event : Event} {n : Notification} (h : Notification.ofEvent? event = some n) :
    Words event true n := by
  cases event with
  | verificationInvited v =>
    obtain rfl := Option.some.inj h
    refine ⟨rfl, rfl, by dsimp only; decide, ?_⟩
    -- The name may be empty; then the body begins with a blank.
    have hrest : isOption (" via " ++ (v.device ++ " has started a key verification process.")) = false :=
      isOption_append (by decide) (by decide) _
    simp only [String.append_assoc, Event.isDashedInvitation]
    exact isOption_append_of_not_isOption hrest v.user
  | messageHeld | symbolsReady | verificationDone | verificationCanceled =>
    obtain rfl := Option.some.inj h
    refine ⟨rfl, rfl, by dsimp only; decide, ?_⟩
    simp only [String.append_assoc, Event.isDashedInvitation]
    exact isOption_append (by decide) (by decide) _
  | usersChanged | devicesChanged | answered | unrecognized => exact nomatch h

/-- They still are when a notifier has taken the buttons away from a desktop that offers none. -/
theorem words_forDesktop? {event : Event} {notifier : Notifier} {runtime : Bool} {n : Notification}
    (h : (Notification.ofEvent? event).bind (notifier.forDesktop? runtime) = some n) :
    Words event notifier.capabilities.actions n := by
  obtain ⟨original, horiginal, hgiven⟩ := Option.bind_eq_some_iff.mp h
  have hwords := words_ofEvent? horiginal
  unfold Notifier.forDesktop? at hgiven
  split at hgiven
  · obtain rfl := Option.some.inj hgiven
    cases notifier.capabilities.actions with
    | true => exact hwords
    | false => exact ⟨hwords.category_eq, rfl, hwords.isOption_summary, hwords.isOption_body⟩
  · exact nomatch hgiven

namespace Words

variable {event other : Event} {withButtons : Bool} {n m : Notification}

/-- No key has an equals sign. -/
theorem keys (h : Words event withButtons n) : ∀ button ∈ n.buttons, '=' ∉ button.1.toList := by
  have hkind : ∀ kind : EventKind, ∀ button ∈ kind.buttons, '=' ∉ button.1.toList := by
    intro kind
    cases kind <;> decide
  rw [h.buttons_eq]
  split
  · exact hkind event.kind
  · exact nofun

/-- Events of one kind have the same options. -/
theorem options_eq (h : Words event withButtons n) (h' : Words other withButtons m)
    (hkind : event.kind = other.kind) (appName : String) :
    options appName n.category n.buttons = options appName m.category m.buttons := by
  rw [h.category_eq, h'.category_eq, h.buttons_eq, h'.buttons_eq, hkind]

/-- The arguments that are taken for options are the options, and the body of an invitation by a user whose
name begins with a dash. -/
theorem filter_isOption (h : Words event withButtons n) (appName : String) :
    (arguments appName n).filter isOption = options appName n.category n.buttons ++
      if event.isDashedInvitation then [n.body] else [] := by
  have hoptions : (options appName n.category n.buttons).filter isOption =
      options appName n.category n.buttons :=
    List.filter_eq_self.mpr fun _ => isOption_of_mem_options
  rw [arguments_eq, List.filter_append, hoptions, List.filter_cons_of_neg (by simp [h.isOption_summary]),
    List.filter_cons, h.isOption_body, List.filter_nil]

end Words

/-- The arguments for the notification of an event are read back, unless it is an invitation by a user whose
name begins with a dash.

For whatever a notifier hands to its desktop for an event, and whatever the name of the program that notifies
is: read one by one, the arguments give back that name, the category, the key and the label of each button in
sequence, the wish to wait exactly if there are buttons, and the summary and the body as the only texts. This
is so exactly if the event is no such invitation. For one, the options and the summary are read back all the
same, but the body is taken for a further option, and there is only one text.

Nothing else that an event says is ever taken for an option: the options are those of every other event of
its kind, followed by the body for such an invitation. -/
theorem arguments_read_back_iff (appName : String) {event : Event} {notifier : Notifier} {runtime : Bool}
    {n : Notification}
    (h : (Notification.ofEvent? event).bind (notifier.forDesktop? runtime) = some n) :
    let said := (arguments appName n).map Argument.read
    let demanded := demands appName n.category n.buttons
    (said = demanded ++ [.text n.summary, .text n.body] ↔ event.isDashedInvitation = false) ∧
      (event.isDashedInvitation = true →
        said = demanded ++ [.text n.summary, .read n.body] ∧ ∀ text, .read n.body ≠ Argument.text text) ∧
      ∀ (other : Event) (m : Notification), other.kind = event.kind → other.isDashedInvitation = false →
        (Notification.ofEvent? other).bind (notifier.forDesktop? runtime) = some m →
          (arguments appName n).filter isOption = (arguments appName m).filter isOption ++
            if event.isDashedInvitation then [n.body] else [] := by
  intro said demanded
  have hwords := words_forDesktop? h
  refine ⟨?_, fun hdashed => ⟨?_, fun text htext => ?_⟩, fun other m hkind hplain hm => ?_⟩
  · rw [← hwords.isOption_body]
    refine (map_read_arguments_iff appName n).trans ⟨fun hall => hall.2.2, fun hbody => ?_⟩
    exact ⟨hwords.keys, hwords.isOption_summary, hbody⟩
  · rw [show said = _ from map_read_arguments appName hwords.keys,
      read_eq_text_iff.mpr ⟨hwords.isOption_summary, rfl⟩]
  · have hbody := (read_eq_text_iff.mp htext).1
    rw [hwords.isOption_body, hdashed] at hbody
    exact nomatch hbody
  · have hwords' := words_forDesktop? hm
    rw [hwords.filter_isOption, hwords'.filter_isOption, hplain, hwords.options_eq hwords' hkind.symm,
      if_neg Bool.false_ne_true, List.append_nil]

/-- An invitation is read back; one by a user with a well-chosen name offers a button more, and its body is
gone. -/
theorem arguments_read_back_iff_dashed :
    let notifier : Notifier := ⟨some "notify-send", ⟨true⟩⟩
    let invitation (user : String) : Event := .verificationInvited ⟨"@alice:home", user, "BOBDEV", "txn1"⟩
    let given (user : String) := (Notification.ofEvent? (invitation user)).bind (notifier.forDesktop? true)
    let buttons : List Argument := [.button (some "accept") "Accept", .button (some "cancel") "Cancel", .wait]
    (∃ n, given "@bob:home" = some n ∧ (invitation "@bob:home").isDashedInvitation = false ∧
      (arguments "a=b" n).map .read = [.appName "a=b", .category "im"] ++ buttons ++
        [.text "Key verification invite",
          .text "@bob:home via BOBDEV has started a key verification process."]) ∧
    ∃ n, given "--action=x=Bob" = some n ∧ (invitation "--action=x=Bob").isDashedInvitation = true ∧
      (arguments "a=b" n).map .read = [.appName "a=b", .category "im"] ++ buttons ++
        [.text "Key verification invite",
          .button (some "x") "Bob via BOBDEV has started a key verification process."] ∧
      (arguments "a=b" n).filter isOption = ["--app-name=a=b", "--category=im", "--action=accept=Accept",
        "--action=cancel=Cancel", "--wait",
        "--action=x=Bob via BOBDEV has started a key verification process."] := by
  intro notifier invitation given buttons
  have hplain := arguments_read_back_iff "a=b" (show
    (Notification.ofEvent? (invitation "@bob:home")).bind (notifier.forDesktop? true) = some _ from rfl)
  have hdashed := arguments_read_back_iff "a=b" (show
    (Notification.ofEvent? (invitation "--action=x=Bob")).bind (notifier.forDesktop? true) = some _ from rfl)
  refine ⟨⟨_, rfl, by decide, hplain.1.mpr (by decide)⟩, _, rfl, by decide, ?_, ?_⟩
  · exact (hdashed.2.1 (by decide)).1.trans (by decide +kernel)
  · exact (hdashed.2.2 (invitation "@bob:home") _ rfl (by decide) rfl).trans (by decide +kernel)

end NotifySend

end DaemonBridge
