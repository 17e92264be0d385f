import DaemonBridge.Proofs.Bridge.Interleaving
import DaemonBridge.Proofs.Cache.Snapshot

/-!
# The latest snapshots

Queries are answered from the last snapshots that a store has given whole, whatever it has answered
before and since. What one occurrence does to the cache is said once (`Run.refreshed_occur`): it refreshes
the logins, or it refreshes the devices, or it leaves both alone. Over a run, the stores that the logins
and the devices were refreshed from are two lists, and the cache holds what the last successful one of
each has given (`Bridge.Caches`).
-/

namespace DaemonBridge

/-- The value is what the last attempt gives that does not fail, or the initial one if all of them
fail. -/
def IsLatest {α β : Type} (gives : α → β → Prop) (fails : α → Prop) (initial : β) (attempts : List α)
    (value : β) : Prop :=
  (value = initial ∧ ∀ attempt ∈ attempts, fails attempt) ∨
    ∃ before attempt after, attempts = before ++ attempt :: after ∧ gives attempt value ∧
      ∀ later ∈ after, fails later

namespace IsLatest

variable {α β : Type} {gives : α → β → Prop} {fails : α → Prop} {initial value : β} {attempts : List α}
  {attempt : α}

/-- Before any attempt, the value is the initial one. -/
theorem nil : IsLatest gives fails initial [] initial :=
  .inl ⟨rfl, fun _ hmem => absurd hmem List.not_mem_nil⟩

/-- An attempt that gives a value makes it the latest. -/
theorem success (hgives : gives attempt value) :
    IsLatest gives fails initial (attempts ++ [attempt]) value :=
  .inr ⟨attempts, attempt, [], rfl, hgives, fun _ hmem => absurd hmem List.not_mem_nil⟩

/-- After an attempt that fails, the latest value is the one before. -/
theorem failure (h : IsLatest gives fails initial attempts value) (hfails : fails attempt) :
    IsLatest gives fails initial (attempts ++ [attempt]) value := by
  have hlast : ∀ {all : List α}, (∀ other ∈ all, fails other) → ∀ other ∈ all ++ [attempt], fails other :=
    fun hall => List.forall_mem_append.mpr ⟨hall, List.forall_mem_singleton.mpr hfails⟩
  rcases h with ⟨hvalue, hall⟩ | ⟨before, other, after, hsplit, hgives, hafter⟩
  · exact .inl ⟨hvalue, hlast hall⟩
  · refine .inr ⟨before, other, after ++ [attempt], ?_, hgives, hlast hafter⟩
    rw [hsplit, List.append_assoc, List.cons_append]

end IsLatest

/-! ## Refreshes of a bridge -/

namespace Bridge

/-- The cache holds the latest logins and devices that the stores have given. -/
structure Caches (b : Bridge) (servers : List String) (loginStores deviceStores : List Store) : Prop where
  serverNames_eq : b.settings.serverNames = servers
  logins : IsLatest (Store.GivesLogins · servers) (Store.FailsLogins · servers) ∅ loginStores b.cache.logins
  devices : IsLatest Store.GivesDevices Store.FailsDevices ∅ deviceStores b.cache.devices

/-- A refresh of the logins takes over all that the store gives, or the cache stays as it is. -/
theorem refreshLogins_cases (b : Bridge) (store : Store) :
    (∃ logins, (b.refreshLogins store).cache = { b.cache with logins := logins } ∧
        store.GivesLogins b.settings.serverNames logins) ∨
      (b.refreshLogins store).cache = b.cache ∧ store.FailsLogins b.settings.serverNames := by
  unfold refreshLogins
  rcases b.cache.refreshLogins_cases store b.settings.serverNames with
    ⟨logins, hlogins, hgives⟩ | ⟨reason, hreason, hfails⟩
  · exact .inl ⟨logins, by rw [hlogins]; rfl, hgives⟩
  · exact .inr ⟨by rw [hreason]; rfl, hfails⟩

/-- A refresh of the devices takes over what the store gives, or the cache stays as it is. -/
theorem refreshDevices_cases (b : Bridge) (store : Store) :
    (∃ devices, (b.refreshDevices store).cache = { b.cache with devices := devices } ∧
        store.GivesDevices devices) ∨
      (b.refreshDevices store).cache = b.cache ∧ store.FailsDevices := by
  unfold refreshDevices
  rcases b.cache.refreshDevices_cases store with
    ⟨devices, hdevices, hgives⟩ | ⟨reason, hreason, hfails⟩
  · exact .inl ⟨devices, by rw [hdevices]; rfl, hgives⟩
  · exact .inr ⟨by rw [hreason]; rfl, hfails⟩

/-- A tick makes the refresh that the event at the head of the queue calls for. -/
theorem tick_cache {b : Bridge} {event : Event} {rest : List Event}
    (hwaiting : b.inbound.waiting = event :: rest) (store : Store) (runtime : Bool) :
    (b.tick store runtime).2.cache = (b.refreshFor store event).cache ∧
      (b.tick store runtime).2.settings = (b.refreshFor store event).settings := by
  simp only [tick, EventQueue.next?, hwaiting]
  generalize hnext : ({ b with inbound := { b.inbound with waiting := rest } } : Bridge) = next
  have hcache : next.cache = b.cache := hnext ▸ rfl
  have hsettings : next.settings = b.settings := hnext ▸ rfl
  have hhandle := next.handle_cache store runtime event
  have hcongr := refreshFor_congr hcache hsettings store event
  exact ⟨hhandle.1.trans hcongr.1, hhandle.2.trans hcongr.2⟩

namespace Caches

variable {b b' : Bridge} {servers : List String} {loginStores deviceStores : List Store}

/-- What touches neither the cache nor the settings changes nothing. -/
theorem of_eq (h : b.Caches servers loginStores deviceStores) (hsettings : b'.settings = b.settings)
    (hcache : b'.cache = b.cache) : b'.Caches servers loginStores deviceStores := by
  obtain ⟨hservers, hlogins, hdevices⟩ := h
  refine ⟨by rw [hsettings, hservers], ?_, ?_⟩
  · rwa [hcache]
  · rwa [hcache]

/-- A refresh of the logins is one more attempt at them. -/
theorem refreshLogins (h : b.Caches servers loginStores deviceStores) (store : Store) :
    (b.refreshLogins store).Caches servers (loginStores ++ [store]) deviceStores := by
  rcases b.refreshLogins_cases store with ⟨logins, hcache, hgives⟩ | ⟨hcache, hfails⟩
  · rw [h.serverNames_eq] at hgives
    refine ⟨h.serverNames_eq, ?_, ?_⟩ <;> rw [hcache]
    · exact .success hgives
    · exact h.devices
  · rw [h.serverNames_eq] at hfails
    refine ⟨h.serverNames_eq, ?_, ?_⟩ <;> rw [hcache]
    · exact h.logins.failure hfails
    · exact h.devices

/-- A refresh of the devices is one more attempt at them. -/
theorem refreshDevices (h : b.Caches servers loginStores deviceStores) (store : Store) :
    (b.refreshDevices store).Caches servers loginStores (deviceStores ++ [store]) := by
  rcases b.refreshDevices_cases store with ⟨devices, hcache, hgives⟩ | ⟨hcache, hfails⟩
  · refine ⟨h.serverNames_eq, ?_, ?_⟩ <;> rw [hcache]
    · exact h.logins
    · exact .success hgives
  · refine ⟨h.serverNames_eq, ?_, ?_⟩ <;> rw [hcache]
    · exact h.logins
    · exact h.devices.failure hfails

end Caches

/-- A bridge that has just started has tried its first store once for each. -/
theorem caches_start (settings : Settings) (store : Store) (desktop : Desktop) :
    (start settings store desktop).Caches settings.serverNames [store] [store] := by
  have hempty : ∀ bridge : Bridge, bridge.settings = settings → bridge.cache = {} →
      bridge.Caches settings.serverNames [] [] := by
    intro bridge hsettings hcache
    refine ⟨by rw [hsettings], ?_, ?_⟩ <;> rw [hcache]
    · exact .nil
    · exact .nil
  exact ((hempty _ rfl rfl).refreshLogins store).refreshDevices store

end Bridge

namespace Run

/-- The store that an occurrence refreshes from what has changed according to an event. -/
def refreshes? (r : Run) (changed : Event) : Occurrence → Option Store
  | .run (.tick store _) => if r.bridge.inbound.waiting.head? = some changed then some store else none
  | .refreshLogins store => if changed = .usersChanged then some store else none
  | .refreshDevices store => if changed = .devicesChanged then some store else none
  | _ => none

/-- The stores that a run refreshes from what has changed according to an event, in order. -/
def refreshesIn (r : Run) (changed : Event) : List Occurrence → List Store
  | [] => []
  | occurrence :: rest =>
    (r.refreshes? changed occurrence).toList ++ (r.occur occurrence).refreshesIn changed rest

/-- An occurrence refreshes the logins, or it refreshes the devices, or it leaves the cache alone. -/
inductive Refreshed (r : Run) (occurrence : Occurrence) : Prop where
  | logins (store : Store) (called : r.refreshes? .usersChanged occurrence = some store)
      (alone : r.refreshes? .devicesChanged occurrence = none)
      (cache_eq : (r.occur occurrence).bridge.cache = (r.bridge.refreshLogins store).cache)
  | devices (store : Store) (called : r.refreshes? .devicesChanged occurrence = some store)
      (alone : r.refreshes? .usersChanged occurrence = none)
      (cache_eq : (r.occur occurrence).bridge.cache = (r.bridge.refreshDevices store).cache)
  | neither (noLogins : r.refreshes? .usersChanged occurrence = none)
      (noDevices : r.refreshes? .devicesChanged occurrence = none)
      (cache_eq : (r.occur occurrence).bridge.cache = r.bridge.cache)

variable {r : Run}

/-- Steps that are no ticks leave the cache and the settings alone. -/
theorem refreshed_of_eq {occurrence : Occurrence} (hnone : ∀ changed, r.refreshes? changed occurrence = none)
    (hsettings : (r.occur occurrence).bridge.settings = r.bridge.settings)
    (hcache : (r.occur occurrence).bridge.cache = r.bridge.cache) :
    (r.occur occurrence).bridge.settings = r.bridge.settings ∧ r.Refreshed occurrence :=
  ⟨hsettings, .neither (hnone _) (hnone _) hcache⟩

/-- What a tick does to the cache is decided by the event at the head of the queue. -/
theorem refreshed_tick (r : Run) (store : Store) (runtime : Bool) :
    (r.occur (.run (.tick store runtime))).bridge.settings = r.bridge.settings ∧
      r.Refreshed (.run (.tick store runtime)) := by
  have hoccur : (r.occur (.run (.tick store runtime))).bridge = (r.bridge.tick store runtime).2 := rfl
  cases hwaiting : r.bridge.inbound.waiting with
  | nil =>
    have htick := Bridge.Relays.tick_of_waiting_eq_nil hwaiting store runtime
    refine refreshed_of_eq (fun changed => ?_) (by rw [hoccur, htick]) (by rw [hoccur, htick])
    simp only [refreshes?, hwaiting, List.head?_nil, reduceCtorEq, if_false]
  | cons event rest =>
    have htick := Bridge.tick_cache hwaiting store runtime
    have hcalled : ∀ changed, r.refreshes? changed (.run (.tick store runtime)) =
        if event = changed then some store else none := by
      intro changed
      simp only [refreshes?, hwaiting, List.head?_cons, Option.some_inj]
    refine ⟨htick.2.trans ?_, ?_⟩
    · cases event <;> rfl
    · cases event with
      | usersChanged => exact .logins store (hcalled _) (hcalled _) htick.1
      | devicesChanged => exact .devices store (hcalled _) (hcalled _) htick.1
      | _ => exact .neither (hcalled _) (hcalled _) htick.1

/-- What happens refreshes the logins or the devices or leaves the cache alone, and the settings stay as
they are. -/
theorem refreshed_occur (r : Run) (occurrence : Occurrence) :
    (r.occur occurrence).bridge.settings = r.bridge.settings ∧ r.Refreshed occurrence := by
  cases occurrence with
  | run step =>
    cases step with
    | tick store runtime => exact r.refreshed_tick store runtime
    | call _ | enter _ | requestStop | begin | answer | finish =>
      refine refreshed_of_eq (fun _ => rfl) ?_ ?_
      · exact congrArg Bridge.settings (r.step_bridge fun _ _ => RunStep.noConfusion)
      · exact congrArg Bridge.cache (r.step_bridge fun _ _ => RunStep.noConfusion)
  | refreshLogins store => exact ⟨rfl, .logins store rfl rfl rfl⟩
  | refreshDevices store => exact ⟨rfl, .devices store rfl rfl rfl⟩
  | send event => exact refreshed_of_eq (fun _ => rfl) rfl rfl
  | submit account order => exact refreshed_of_eq (fun _ => rfl) rfl rfl
  | click index key =>
    apply refreshed_of_eq (fun _ => rfl)
    all_goals
      simp only [occur, withBridge, Bridge.click]
      split <;> rfl
  | takeCommand =>
    apply refreshed_of_eq (fun _ => rfl)
    all_goals
      simp only [occur, withBridge, Bridge.takeCommand?]
      split <;> rfl

variable {servers : List String} {loginStores deviceStores : List Store}

/-- Whatever happens, the cache holds the latest snapshots. -/
theorem caches_occur (h : r.bridge.Caches servers loginStores deviceStores) (occurrence : Occurrence) :
    (r.occur occurrence).bridge.Caches servers
      (loginStores ++ (r.refreshes? .usersChanged occurrence).toList)
      (deviceStores ++ (r.refreshes? .devicesChanged occurrence).toList) := by
  obtain ⟨hsettings, hrefreshed⟩ := r.refreshed_occur occurrence
  cases hrefreshed with
  | logins store hcalled halone hcache =>
    rw [hcalled, halone, Option.toList_some, Option.toList_none, List.append_nil]
    exact (h.refreshLogins store).of_eq hsettings hcache
  | devices store hcalled halone hcache =>
    rw [hcalled, halone, Option.toList_some, Option.toList_none, List.append_nil]
    exact (h.refreshDevices store).of_eq hsettings hcache
  | neither hlogins hdevices hcache =>
    rw [hlogins, hdevices, Option.toList_none, List.append_nil, List.append_nil]
    exact h.of_eq hsettings hcache

/-- After any run, the cache holds the latest snapshots. -/
theorem caches_occurAll (h : r.bridge.Caches servers loginStores deviceStores)
    (occurrences : List Occurrence) :
    (r.occurAll occurrences).bridge.Caches servers
      (loginStores ++ r.refreshesIn .usersChanged occurrences)
      (deviceStores ++ r.refreshesIn .devicesChanged occurrences) := by
  induction occurrences generalizing r loginStores deviceStores with
  | nil =>
    rw [refreshesIn, refreshesIn, List.append_nil, List.append_nil]
    exact h
  | cons occurrence rest ih =>
    have hrest := ih (caches_occur h occurrence)
    rwa [List.append_assoc, List.append_assoc] at hrest

/-! ## One refresh -/

variable {occurrence : Occurrence} {now : Store}

/-- A refresh of the logins leaves nothing of the old ones, or all of them, and no device changes. -/
theorem refresh_logins (hcalled : r.refreshes? .usersChanged occurrence = some now) :
    (∀ logins, now.GivesLogins r.bridge.settings.serverNames logins →
        (r.occur occurrence).bridge.cache.logins = logins) ∧
      (now.FailsLogins r.bridge.settings.serverNames →
        (r.occur occurrence).bridge.cache.logins = r.bridge.cache.logins) ∧
      (r.occur occurrence).bridge.cache.devices = r.bridge.cache.devices := by
  cases (r.refreshed_occur occurrence).2 with
  | logins store hstore _ hoccur =>
    obtain rfl := Option.some.inj (hcalled.symm.trans hstore)
    rcases r.bridge.refreshLogins_cases now with ⟨logins, hcache, hgives⟩ | ⟨hcache, hfails⟩
    · rw [hoccur, hcache]
      exact ⟨fun _ hgives' => hgives.unique hgives', fun hfails => absurd hfails hgives.not_failsLogins, rfl⟩
    · rw [hoccur, hcache]
      exact ⟨fun _ hgives => absurd hfails hgives.not_failsLogins, fun _ => rfl, rfl⟩
  | devices _ _ hnone => exact nomatch hcalled.symm.trans hnone
  | neither hnone => exact nomatch hcalled.symm.trans hnone

/-- A refresh of the devices leaves nothing of the old ones, or all of them, and no login changes. -/
theorem refresh_devices (hcalled : r.refreshes? .devicesChanged occurrence = some now) :
    (∀ devices, now.GivesDevices devices → (r.occur occurrence).bridge.cache.devices = devices) ∧
      (now.FailsDevices → (r.occur occurrence).bridge.cache.devices = r.bridge.cache.devices) ∧
      (r.occur occurrence).bridge.cache.logins = r.bridge.cache.logins := by
  cases (r.refreshed_occur occurrence).2 with
  | devices store hstore _ hoccur =>
    obtain rfl := Option.some.inj (hcalled.symm.trans hstore)
    rcases r.bridge.refreshDevices_cases now with ⟨devices, hcache, hgives⟩ | ⟨hcache, reason, hfails⟩
    · rw [hoccur, hcache]
      refine ⟨fun _ hgives' => Except.ok.inj (hgives.symm.trans hgives'), ?_, rfl⟩
      rintro ⟨reason, hfails⟩
      exact nomatch hgives.symm.trans hfails
    · rw [hoccur, hcache]
      exact ⟨fun _ hgives => (nomatch hfails.symm.trans hgives), fun _ => rfl, rfl⟩
  | logins _ _ hnone => exact nomatch hcalled.symm.trans hnone
  | neither _ hnone => exact nomatch hcalled.symm.trans hnone

/-- Whatever is no refresh leaves the cache alone. -/
theorem refresh_neither (hlogins : r.refreshes? .usersChanged occurrence = none)
    (hdevices : r.refreshes? .devicesChanged occurrence = none) :
    (r.occur occurrence).bridge.cache = r.bridge.cache := by
  cases (r.refreshed_occur occurrence).2 with
  | logins _ hsome => exact nomatch hsome.symm.trans hlogins
  | devices _ hsome => exact nomatch hsome.symm.trans hdevices
  | neither _ _ hcache => exact hcache

/-- The cache is always one whole successful snapshot.

After any run of a fresh bridge, the logins are what the last store has given, of those that the bridge
has been started with or that a tick or a caller has refreshed the logins from, that answered for every
server, and there are none if no store did; so it is for the devices. The answers to questions are those
of these snapshots. Whatever happens next, a refresh replaces what it is about by all that the store
gives, or leaves it as it was if the store fails in any place, and what is not refreshed does not
change. The counts after a refresh are those of the logins and devices that questions then find. However
the requests of a refresh are answered, also when a server is asked for twice, the answers are taken over
together or not at all. -/
theorem cache_is_latest (settings : Settings) (store : Store) (desktop : Desktop)
    (occurrences : List Occurrence) :
    let fresh := ofBridge (.start settings store desktop)
    let names := settings.serverNames
    let r := fresh.occurAll occurrences
    let cache := r.bridge.cache
    IsLatest (Store.GivesLogins · names) (Store.FailsLogins · names) ∅
        (store :: fresh.refreshesIn .usersChanged occurrences) cache.logins ∧
      IsLatest Store.GivesDevices Store.FailsDevices ∅
        (store :: fresh.refreshesIn .devicesChanged occurrences) cache.devices ∧
      cache.answer .servers = .servers cache.logins ∧
      (∀ account, ∃ found, cache.answer (.devices account) = .devices found ∧
        ∀ device, device ∈ found ↔ ∃ user id records users,
          cache.devices.find? account = some users ∧ users.find? user = some records ∧
            records.find? id = some device) ∧
      (∀ account user, ∃ found, cache.answer (.userDevices account user) = .devices found ∧
        ∀ device, device ∈ found ↔ ∃ id records users,
          cache.devices.find? account = some users ∧ users.find? user = some records ∧
            records.find? id = some device) ∧
      (∀ occurrence now,
        let later := (r.occur occurrence).bridge.cache
        (r.refreshes? .usersChanged occurrence = some now →
            (∀ logins, now.GivesLogins names logins → later.logins = logins) ∧
              (now.FailsLogins names → later.logins = cache.logins) ∧
              later.devices = cache.devices) ∧
          (r.refreshes? .devicesChanged occurrence = some now →
            (∀ devices, now.GivesDevices devices → later.devices = devices) ∧
              (now.FailsDevices → later.devices = cache.devices) ∧
              later.logins = cache.logins) ∧
          (r.refreshes? .usersChanged occurrence = none →
            r.refreshes? .devicesChanged occurrence = none → later = cache)) ∧
      (∀ now refreshed, cache.refreshLogins now names = .ok refreshed →
        refreshed.loginCount = (refreshed.logins.keys.flatMap fun server =>
          (refreshed.logins.find? server).getD []).length) ∧
      (∀ now refreshed, cache.refreshDevices now = .ok refreshed →
        refreshed.deviceCount = (refreshed.devices.keys.flatMap refreshed.devicesOf).length) ∧
      ∀ answers,
        (∃ logins, cache.replaceLogins answers = .ok { cache with logins := logins } ∧
            MadeOf answers logins) ∨
          ∃ reason, cache.replaceLogins answers = .error reason ∧ AnyFails answers := by
  intro fresh names r cache
  have hstart : fresh.bridge.Caches names [store] [store] := Bridge.caches_start settings store desktop
  have h : r.bridge.Caches names (store :: fresh.refreshesIn .usersChanged occurrences)
    (store :: fresh.refreshesIn .devicesChanged occurrences) := caches_occurAll hstart occurrences
  refine ⟨h.logins, h.devices, rfl, fun account => ⟨_, rfl, cache.mem_devicesOf account⟩,
    fun account user => ⟨_, rfl, cache.mem_userDevices account user⟩, fun occurrence now => ⟨?_, ?_, ?_⟩,
    fun _ refreshed _ => refreshed.loginCount_eq, fun _ refreshed _ => refreshed.deviceCount_eq,
    cache.replaceLogins_cases⟩
  · intro hcalled
    have hrefresh := refresh_logins hcalled
    rwa [h.serverNames_eq] at hrefresh
  · exact refresh_devices
  · exact refresh_neither

end Run

end DaemonBridge
