import DaemonBridge.Cache
import Mathlib.Data.List.Induction

/-!
# Whole snapshots

A refresh takes over what the store answers only when no answer is a failure, and then nothing of the
old snapshot is left (`Cache.refreshLogins_cases`, `Cache.refreshDevices_cases`). What is taken over is
said without the loop that collects it: for the logins, `MadeOf` for any answers to the requests and
`Store.GivesLogins` for those of a store. The devices that a question finds are the records filed in the
snapshot under what was asked for, and the counts are those of the answers.
-/

namespace DaemonBridge

/-! ## Collected answers -/

/-- One of the answers is a failure. -/
def AnyFails (answers : List (String × Except StoreError (List Login))) : Prop :=
  ∃ server reason, (server, .error reason) ∈ answers

/-- The logins are those of the answers, of which none is a failure, and the last answer for a server
counts. -/
structure MadeOf (answers : List (String × Except StoreError (List Login))) (logins : LoginsByServer) :
    Prop where
  not_anyFails : ¬ AnyFails answers
  mem_keys_iff : ∀ server, server ∈ logins.keys ↔ server ∈ answers.map Prod.fst
  find?_eq : ∀ before server answer after, answers = before ++ (server, answer) :: after →
    server ∉ after.map Prod.fst → ∃ found, answer = .ok found ∧ logins.find? server = some found

/-- Without requests there are no logins. -/
theorem madeOf_nil : MadeOf [] ∅ where
  not_anyFails := fun ⟨_, _, hmem⟩ => List.not_mem_nil hmem
  mem_keys_iff _ := Iff.rfl
  find?_eq before server answer after h := by
    cases before <;> contradiction

/-- One more answer replaces an earlier one for the same server. -/
theorem MadeOf.insert {answers : List (String × Except StoreError (List Login))}
    {logins : LoginsByServer} (h : MadeOf answers logins) (server : String) (found : List Login) :
    MadeOf (answers ++ [(server, .ok found)]) (logins.insert server found) := by
  have hfind := logins.find?_insert server
  constructor
  · rintro ⟨other, reason, hmem⟩
    rcases List.mem_append.mp hmem with hold | hnew
    · exact h.not_anyFails ⟨other, reason, hold⟩
    · exact absurd (congrArg Prod.snd (List.mem_singleton.mp hnew)) nofun
  · intro other
    rw [Dict.mem_keys_iff, List.map_append, List.mem_append, ← h.mem_keys_iff, Dict.mem_keys_iff,
      List.map_singleton, List.mem_singleton, hfind]
    by_cases heq : other = server
    · simp [heq]
    · simp [heq]
  · intro before other answer after hsplit hlast
    rw [hfind]
    cases after using List.reverseRecOn with
    | nil =>
      obtain ⟨-, hpair⟩ := List.append_inj' hsplit rfl
      obtain ⟨rfl, rfl⟩ := Prod.mk.inj (List.singleton_inj.mp hpair)
      exact ⟨found, rfl, if_pos rfl⟩
    | append_singleton rest last =>
      rw [← List.cons_append, ← List.append_assoc] at hsplit
      obtain ⟨hrest, hpair⟩ := List.append_inj' hsplit rfl
      obtain rfl := List.singleton_inj.mp hpair
      rw [List.map_append, List.mem_append, not_or] at hlast
      have hne : other ≠ server := fun heq => hlast.2 (List.mem_singleton.mpr heq)
      rw [if_neg hne]
      exact h.find?_eq before other answer rest hrest hlast.1

/-- The answer to one more request is collected last. -/
theorem collectLogins_append (answers : List (String × Except StoreError (List Login)))
    (server : String) (answer : Except StoreError (List Login)) :
    collectLogins (answers ++ [(server, answer)]) =
      (collectLogins answers).bind fun logins => answer.map (logins.insert server) := by
  rw [collectLogins, List.foldlM_append, ← collectLogins]
  cases collectLogins answers with
  | error reason => rfl
  | ok logins => cases answer <;> rfl

/-- The answers to all requests are collected, or one of them is a failure. -/
theorem collectLogins_cases (answers : List (String × Except StoreError (List Login))) :
    (∃ logins, collectLogins answers = .ok logins ∧ MadeOf answers logins) ∨
      ∃ reason, collectLogins answers = .error reason ∧ AnyFails answers := by
  induction answers using List.reverseRecOn with
  | nil => exact .inl ⟨∅, rfl, madeOf_nil⟩
  | append_singleton answers last ih =>
    obtain ⟨server, answer⟩ := last
    rw [collectLogins_append]
    rcases ih with ⟨logins, hlogins, hmade⟩ | ⟨reason, hreason, other, why, hmem⟩
    · rw [hlogins]
      cases answer with
      | ok found => exact .inl ⟨_, rfl, hmade.insert server found⟩
      | error reason =>
        exact .inr ⟨reason, rfl, server, reason, List.mem_append_right _ List.mem_cons_self⟩
    · rw [hreason]
      exact .inr ⟨reason, rfl, other, why, List.mem_append_left _ hmem⟩

/-! ## What a store gives -/

namespace Store

variable {store : Store} {servers : List String} {logins : LoginsByServer}

/-- The logins are exactly what the store answers for each of the servers. -/
structure GivesLogins (store : Store) (servers : List String) (logins : LoginsByServer) : Prop where
  mem_keys_iff : ∀ server, server ∈ logins.keys ↔ server ∈ servers
  find?_eq : ∀ server ∈ servers, ∃ found,
    store.loginsOf server = .ok found ∧ logins.find? server = some found

/-- The store fails for one of the servers. -/
def FailsLogins (store : Store) (servers : List String) : Prop :=
  ∃ server ∈ servers, ∃ reason, store.loginsOf server = .error reason

/-- The devices are what the store answers. -/
def GivesDevices (store : Store) (devices : DevicesByAccount) : Prop :=
  store.allDevices = .ok devices

/-- The store fails for the devices. -/
def FailsDevices (store : Store) : Prop :=
  ∃ reason, store.allDevices = .error reason

/-- A store that gives the logins of all servers does not fail for one. -/
theorem GivesLogins.not_failsLogins (h : store.GivesLogins servers logins) :
    ¬ store.FailsLogins servers := by
  rintro ⟨server, hmem, reason, hreason⟩
  obtain ⟨found, hfound, -⟩ := h.find?_eq server hmem
  exact absurd (hreason.symm.trans hfound) nofun

/-- What a store gives is determined by its answers. -/
theorem GivesLogins.unique (h : store.GivesLogins servers logins) {logins' : LoginsByServer}
    (h' : store.GivesLogins servers logins') : logins = logins' := by
  refine Dict.ext_find? fun server => ?_
  by_cases hmem : server ∈ servers
  · obtain ⟨found, hfound, hfind⟩ := h.find?_eq server hmem
    obtain ⟨found', hfound', hfind'⟩ := h'.find?_eq server hmem
    rw [hfind, hfind', Except.ok.inj (hfound.symm.trans hfound')]
  · have hnone : ∀ {d : LoginsByServer}, (server ∈ d.keys ↔ server ∈ servers) →
        d.find? server = none := fun hkeys =>
      Option.eq_none_iff_forall_ne_some.mpr fun found hfind =>
        hmem (hkeys.mp ((Dict.mem_keys_iff _ _).mpr ⟨found, hfind⟩))
    rw [hnone (h.mem_keys_iff server), hnone (h'.mem_keys_iff server)]

/-- What is made of the answers of a store is what it gives. -/
theorem givesLogins_of_madeOf
    (h : MadeOf (servers.map fun server => (server, store.loginsOf server)) logins) :
    store.GivesLogins servers logins := by
  have hnames : (servers.map fun server => (server, store.loginsOf server)).map Prod.fst = servers := by
    rw [List.map_map]
    exact List.map_id servers
  refine ⟨fun server => hnames ▸ h.mem_keys_iff server, fun server hmem => ?_⟩
  obtain ⟨after, before, hsplit, hlast⟩ := List.eq_append_cons_of_mem (List.mem_reverse.mpr hmem)
  have hservers : servers = before.reverse ++ server :: after.reverse := by
    rw [← List.reverse_reverse servers, hsplit, List.reverse_append, List.reverse_cons,
      List.append_assoc, List.singleton_append]
  refine h.find?_eq _ server _ _ (by rw [hservers, List.map_append, List.map_cons]) fun hlater => ?_
  rw [List.map_map] at hlater
  obtain ⟨other, hother, rfl⟩ := List.mem_map.mp hlater
  exact hlast (List.mem_reverse.mp hother)

end Store

/-! ## Refreshes -/

namespace Cache

/-- Answers that are all there replace the logins; otherwise the cache stays as it is. -/
theorem replaceLogins_cases (cache : Cache)
    (answers : List (String × Except StoreError (List Login))) :
    (∃ logins, cache.replaceLogins answers = .ok { cache with logins := logins } ∧
        MadeOf answers logins) ∨
      ∃ reason, cache.replaceLogins answers = .error reason ∧ AnyFails answers := by
  unfold replaceLogins
  rcases collectLogins_cases answers with ⟨logins, hlogins, hmade⟩ | ⟨reason, hreason, hfails⟩
  · exact .inl ⟨logins, by rw [hlogins]; rfl, hmade⟩
  · exact .inr ⟨reason, by rw [hreason]; rfl, hfails⟩

/-- A refresh of the logins takes over all that the store gives, or the store fails for a server. -/
theorem refreshLogins_cases (cache : Cache) (store : Store) (servers : List String) :
    (∃ logins, cache.refreshLogins store servers = .ok { cache with logins := logins } ∧
        store.GivesLogins servers logins) ∨
      ∃ reason, cache.refreshLogins store servers = .error reason ∧ store.FailsLogins servers := by
  rcases cache.replaceLogins_cases (servers.map fun server => (server, store.loginsOf server)) with
    ⟨logins, hlogins, hmade⟩ | ⟨reason, hreason, server, why, hmem⟩
  · exact .inl ⟨logins, hlogins, Store.givesLogins_of_madeOf hmade⟩
  · obtain ⟨other, hother, heq⟩ := List.mem_map.mp hmem
    exact .inr ⟨reason, hreason, other, hother, why, congrArg Prod.snd heq⟩

/-- A refresh of the devices takes over what the store gives, or the store fails. -/
theorem refreshDevices_cases (cache : Cache) (store : Store) :
    (∃ devices, cache.refreshDevices store = .ok { cache with devices := devices } ∧
        store.GivesDevices devices) ∨
      ∃ reason, cache.refreshDevices store = .error reason ∧ store.FailsDevices := by
  unfold refreshDevices
  cases hanswer : store.allDevices with
  | ok devices => exact .inl ⟨devices, rfl, hanswer⟩
  | error reason => exact .inr ⟨reason, rfl, reason, hanswer⟩

/-! ## Answers and counts -/

/-- The devices of an account are those filed under it. -/
theorem mem_devicesOf (cache : Cache) (account : String) (device : Device) :
    device ∈ cache.devicesOf account ↔ ∃ user id records users,
      cache.devices.find? account = some users ∧ users.find? user = some records ∧
        records.find? id = some device := by
  unfold devicesOf DevicesByUser.all
  constructor
  · intro hmem
    obtain ⟨records, hrecords, hdevice⟩ := List.mem_flatMap.mp hmem
    obtain ⟨user, huser⟩ := (Dict.mem_values_iff _ _).mp hrecords
    obtain ⟨users, haccount, huser⟩ := (Dict.find?_getD_eq_some_iff _ _ _ _).mp huser
    obtain ⟨id, hid⟩ := (Dict.mem_values_iff _ _).mp hdevice
    exact ⟨user, id, records, users, haccount, huser, hid⟩
  · rintro ⟨user, id, records, users, haccount, huser, hid⟩
    refine List.mem_flatMap.mpr ⟨records, ?_, (Dict.mem_values_iff _ _).mpr ⟨id, hid⟩⟩
    exact (Dict.mem_values_iff _ _).mpr
      ⟨user, (Dict.find?_getD_eq_some_iff _ _ _ _).mpr ⟨users, haccount, huser⟩⟩

/-- The devices of a user are those filed under the account and the user. -/
theorem mem_userDevices (cache : Cache) (account user : String) (device : Device) :
    device ∈ cache.userDevices account user ↔ ∃ id records users,
      cache.devices.find? account = some users ∧ users.find? user = some records ∧
        records.find? id = some device := by
  unfold userDevices
  rw [Dict.mem_values_iff]
  simp only [Dict.find?_getD_eq_some_iff]
  constructor
  · rintro ⟨id, records, ⟨users, haccount, huser⟩, hid⟩
    exact ⟨id, records, users, haccount, huser, hid⟩
  · rintro ⟨id, records, users, haccount, huser, hid⟩
    exact ⟨id, records, ⟨users, haccount, huser⟩, hid⟩

/-- The count of logins is the number of those on all servers. -/
theorem loginCount_eq (cache : Cache) :
    cache.loginCount =
      (cache.logins.keys.flatMap fun server => (cache.logins.find? server).getD []).length := by
  rw [cache.logins.flatMap_find?_keys fun found => found.getD []]
  exact congrArg List.length List.flatMap_id.symm

/-- The count of devices is the number of those that are known to all accounts. -/
theorem deviceCount_eq (cache : Cache) :
    cache.deviceCount = (cache.devices.keys.flatMap cache.devicesOf).length := by
  have hrecords : ∀ users : DevicesByUser,
      (users.values.flatMap Dict.entries).length = users.all.length := by
    intro users
    simp only [DevicesByUser.all, List.length_flatMap, Dict.values, List.length_map]
  unfold deviceCount devicesOf
  rw [cache.devices.flatMap_find?_keys fun users => (users.getD ∅).all, List.flatMap_assoc]
  simp only [List.length_flatMap, hrecords, Option.getD_some]

end Cache

end DaemonBridge
