import DaemonBridge.Proofs.Cache.Snapshot
import DaemonBridge.Proofs.Store.Agreement
import DaemonBridge.Proofs.Text.ByteOrder
import Mathlib.Algebra.Ring.Nat

/-!
# The index of devices

A directory files a device under an account, a user and a device identifier, and the last two are its own
(`DevicesByAccount.Filed`). No change of the directory breaks this if whole snapshots keep to it, and so the
record that is found somewhere is the last one filed there (`Directory.record?_ofChanges`). A cache that
takes over such devices answers in the order of users and devices, with no device twice, and what it
answers about one user is a part of what it answers about all of them.
-/

namespace DaemonBridge

/-! ## Records in their places -/

namespace DevicesByAccount

/-- The record filed under an account, a user and a device identifier. -/
def record? (devices : DevicesByAccount) (account user id : String) : Option Device :=
  ((((devices.find? account).getD ∅).find? user).getD ∅).find? id

/-- Every record is filed under its own user and device identifier. -/
def Filed (devices : DevicesByAccount) : Prop :=
  ∀ account user id device, devices.record? account user id = some device →
    device.user = user ∧ device.device = id

end DevicesByAccount

namespace Directory

/-- A device that is put takes its own place and leaves every other one alone. -/
theorem record?_putDevice (d : Directory) (owner : String) (record : Device) (account user id : String) :
    (d.putDevice owner record).devices.record? account user id =
      if account = owner ∧ user = record.user ∧ id = record.device then some record
      else d.devices.record? account user id := by
  simp only [DevicesByAccount.record?, putDevice, Dict.update, Dict.find?_insert]
  by_cases haccount : account = owner
  · obtain rfl := haccount
    rw [if_pos rfl, Option.getD_some, Dict.find?_insert]
    by_cases huser : user = record.user
    · obtain rfl := huser
      rw [if_pos rfl, Option.getD_some, Dict.find?_insert]
      by_cases hid : id = record.device <;> simp [hid]
    · simp [huser]
  · simp [haccount]

/-- The change files the device under the account. -/
def Change.Files (account : String) (device : Device) : Change → Prop
  | .putDevice owner record => owner = account ∧ record = device
  | .setDevices devices =>
    devices.record? account device.user device.device = some device
  | .setLogins .. | .addLogin .. | .removeServer .. => False

/-- The change leaves the place of the device under the account alone. -/
def Change.Spares (account : String) (device : Device) : Change → Prop
  | .putDevice owner record =>
    ¬ (owner = account ∧ record.user = device.user ∧ record.device = device.device)
  | .setDevices _ => False
  | .setLogins .. | .addLogin .. | .removeServer .. => True

/-- A change has filed the device under the account, by itself or in a snapshot of all devices, and every
later change leaves its place alone. -/
def LastFiled (changes : List Change) (account : String) (device : Device) : Prop :=
  ∃ before change after, changes = before ++ change :: after ∧ change.Files account device ∧
    ∀ later ∈ after, later.Spares account device

/-- One more change files the device, or leaves alone one that was filed before. -/
theorem lastFiled_append_singleton (changes : List Change) (last : Change) (account : String)
    (device : Device) :
    LastFiled (changes ++ [last]) account device ↔
      last.Files account device ∨ last.Spares account device ∧ LastFiled changes account device := by
  constructor
  · rintro ⟨before, change, after, hsplit, hfiles, hspares⟩
    cases after using List.reverseRecOn with
    | nil =>
      obtain ⟨-, hlast⟩ := List.append_inj' hsplit rfl
      exact .inl (List.singleton_inj.mp hlast ▸ hfiles)
    | append_singleton rest latest =>
      rw [← List.cons_append, ← List.append_assoc] at hsplit
      obtain ⟨hchanges, hlast⟩ := List.append_inj' hsplit rfl
      obtain rfl := List.singleton_inj.mp hlast
      obtain ⟨hrest, hlatest⟩ := List.forall_mem_append.mp hspares
      exact .inr ⟨List.forall_mem_singleton.mp hlatest, before, change, rest, hchanges, hfiles, hrest⟩
  · rintro (hfiles | ⟨hspares, before, change, after, rfl, hfiles, hafter⟩)
    · exact ⟨changes, last, [], rfl, hfiles, nofun⟩
    · refine ⟨before, change, after ++ [last], by simp, hfiles, ?_⟩
      exact List.forall_mem_append.mpr ⟨hafter, List.forall_mem_singleton.mpr hspares⟩

/-- After a change a device is found in its place if the change files it, or leaves its place alone and it was
there before. -/
theorem record?_change (d : Directory) (change : Change) (account : String) (device : Device) :
    (d.change change).devices.record? account device.user device.device = some device ↔
      change.Files account device ∨ change.Spares account device ∧
        d.devices.record? account device.user device.device = some device := by
  cases change with
  | setLogins | addLogin | removeServer =>
    simp only [Change.Files, Change.Spares, false_or, true_and]
    exact Iff.rfl
  | setDevices devices =>
    simp only [Change.Files, Change.Spares, false_and, or_false]
    exact Iff.rfl
  | putDevice owner record =>
    rw [Directory.change, record?_putDevice]
    simp only [Change.Files, Change.Spares]
    by_cases hplace : account = owner ∧ device.user = record.user ∧ device.device = record.device
    · rw [if_pos hplace, Option.some.injEq]
      obtain ⟨haccount, huser, hid⟩ := hplace
      constructor
      · exact fun hrecord => .inl ⟨haccount.symm, hrecord⟩
      · rintro (⟨-, hrecord⟩ | ⟨hother, -⟩)
        · exact hrecord
        · exact absurd ⟨haccount.symm, huser.symm, hid.symm⟩ hother
    · rw [if_neg hplace]
      constructor
      · refine fun hfound => .inr ⟨fun ⟨haccount, huser, hid⟩ => ?_, hfound⟩
        exact hplace ⟨haccount.symm, huser.symm, hid.symm⟩
      · rintro (⟨rfl, rfl⟩ | ⟨-, hfound⟩)
        · exact absurd ⟨rfl, rfl, rfl⟩ hplace
        · exact hfound

/-- No change files a record under anything but its own user and device identifier, unless a snapshot does. -/
theorem filed_change {d : Directory} (h : d.devices.Filed) {change : Change}
    (hsnapshot : ∀ devices, change = .setDevices devices → devices.Filed) :
    (d.change change).devices.Filed := by
  cases change with
  | setLogins | addLogin | removeServer => exact h
  | setDevices devices => exact hsnapshot devices rfl
  | putDevice owner record =>
    intro account user id device hfound
    rw [Directory.change, record?_putDevice] at hfound
    split at hfound
    · next hplace =>
      obtain rfl := Option.some.inj hfound
      exact ⟨hplace.2.1.symm, hplace.2.2.symm⟩
    · exact h account user id device hfound

/-- One more change is made last. -/
theorem ofChanges_append_singleton (changes : List Change) (last : Change) :
    ofChanges (changes ++ [last]) = (ofChanges changes).change last := by
  rw [ofChanges, List.foldl_append, List.foldl_cons, List.foldl_nil, ← ofChanges]

/-- After any changes a device is found in its place exactly if it was filed there last. -/
theorem record?_ofChanges (changes : List Change) (account : String) (device : Device) :
    (ofChanges changes).devices.record? account device.user device.device = some device ↔
      LastFiled changes account device := by
  induction changes using List.reverseRecOn with
  | nil =>
    constructor
    · exact nofun
    · rintro ⟨before, change, after, hsplit, -⟩
      exact absurd hsplit (by simp)
  | append_singleton changes last ih =>
    rw [ofChanges_append_singleton, record?_change, lastFiled_append_singleton, ih]

/-- After any changes every record is filed under its own user and device identifier. -/
theorem filed_ofChanges {changes : List Change}
    (hfiled : ∀ devices, Change.setDevices devices ∈ changes → devices.Filed) :
    (ofChanges changes).devices.Filed := by
  induction changes using List.reverseRecOn with
  | nil => exact nofun
  | append_singleton changes last ih =>
    rw [ofChanges_append_singleton]
    refine filed_change (ih fun devices hmem => hfiled devices (List.mem_append_left _ hmem)) ?_
    rintro devices rfl
    exact hfiled devices (List.mem_append_right _ (List.mem_singleton_self _))

end Directory

/-! ## The order of devices -/

/-- One device comes before another by the bytes of its user, and for one user by the bytes of the device
identifier. -/
def Device.Precedes (a b : Device) : Prop :=
  Text.encode a.user.toList < Text.encode b.user.toList ∨
    a.user = b.user ∧ Text.encode a.device.toList < Text.encode b.device.toList

/-- Of two devices not each comes before the other. -/
theorem Device.Precedes.asymm {a b : Device} (h : a.Precedes b) : ¬ b.Precedes a := by
  have hirrefl (x : List UInt8) : ¬ x < x := List.lt_irrefl x
  rintro (huser | ⟨huser, hdevice⟩)
  · rcases h with huser' | ⟨heq, -⟩
    · exact hirrefl _ (List.lt_trans huser huser')
    · exact hirrefl _ (heq ▸ huser)
  · rcases h with huser' | ⟨-, hdevice'⟩
    · exact hirrefl _ (huser ▸ huser')
    · exact hirrefl _ (List.lt_trans hdevice hdevice')

/-- Ascending lists of the same devices are the same list. -/
theorem eq_of_ascending {devices devices' : List Device} (h : devices.Pairwise Device.Precedes)
    (h' : devices'.Pairwise Device.Precedes) (hsame : ∀ device, device ∈ devices ↔ device ∈ devices') :
    devices = devices' := by
  have hne {a b : Device} (hprecedes : a.Precedes b) : a ≠ b := by
    rintro rfl
    exact hprecedes.asymm hprecedes
  have hnodup {devices : List Device} (h : devices.Pairwise Device.Precedes) : devices.Nodup :=
    h.imp hne
  have hperm := (List.perm_ext_iff_of_nodup (hnodup h) (hnodup h')).mpr hsame
  exact hperm.eq_of_pairwise (fun a b _ _ hab hba => absurd hba hab.asymm) h h'

/-- Records filed by their device identifiers, all of one user, are ascending. -/
theorem ascending_values {records : Dict Device} {user : String}
    (h : ∀ id device, records.find? id = some device → device.user = user ∧ device.device = id) :
    records.values.Pairwise Device.Precedes := by
  have hentry (entry : String × Device) (hmem : entry ∈ records.entries) :
      entry.2.user = user ∧ entry.2.device = entry.1 :=
    h entry.1 entry.2 ((records.find?_eq_some_iff _ _).mpr hmem)
  rw [Dict.values, List.pairwise_map]
  refine records.ascending.imp_of_mem fun {a b} ha hb hlt => .inr ?_
  rw [(hentry a ha).1, (hentry b hb).1, (hentry a ha).2, (hentry b hb).2]
  exact ⟨rfl, (Text.encode_lt_encode_iff _ _).mpr hlt⟩

/-- Records filed by their users and device identifiers are ascending. -/
theorem ascending_all {users : DevicesByUser}
    (h : ∀ user id device, ((users.find? user).getD ∅).find? id = some device →
      device.user = user ∧ device.device = id) :
    users.all.Pairwise Device.Precedes := by
  have hentry (entry : String × Dict Device) (hmem : entry ∈ users.entries) (id : String)
      (device : Device) (hfound : entry.2.find? id = some device) :
      device.user = entry.1 ∧ device.device = id := by
    have huser := (users.find?_eq_some_iff _ _).mpr hmem
    refine h entry.1 id device ?_
    rw [huser]
    exact hfound
  have hvalue (entry : String × Dict Device) (hmem : entry ∈ users.entries) (device : Device)
      (hdevice : device ∈ entry.2.values) : device.user = entry.1 := by
    obtain ⟨id, hfound⟩ := (Dict.mem_values_iff _ _).mp hdevice
    exact (hentry entry hmem id device hfound).1
  rw [DevicesByUser.all, Dict.values, List.flatMap_map, List.pairwise_flatMap]
  refine ⟨fun entry hmem => ascending_values (hentry entry hmem), ?_⟩
  refine users.ascending.imp_of_mem fun {a b} ha hb hlt x hx y hy => .inl ?_
  rw [hvalue a ha x hx, hvalue b hb y hy]
  exact (Text.encode_lt_encode_iff _ _).mpr hlt

/-! ## What a cache answers -/

/-- Every account that has something to count is counted once, in whichever list of accounts. -/
theorem length_flatMap_eq {α : Type} {f : String → List α} {accounts accounts' : List String}
    (h : accounts.Nodup) (h' : accounts'.Nodup) (hall : ∀ account, f account ≠ [] → account ∈ accounts)
    (hall' : ∀ account, f account ≠ [] → account ∈ accounts') :
    (accounts.flatMap f).length = (accounts'.flatMap f).length := by
  have hcounted (accounts : List String) :
      (accounts.filter fun account => !(f account).isEmpty).flatMap f = accounts.flatMap f := by
    induction accounts with
    | nil => rfl
    | cons account rest ih =>
      cases hempty : f account with
      | nil => simp [hempty, ih]
      | cons first more => simp [hempty, ih]
  have hperm : (accounts.filter fun account => !(f account).isEmpty).Perm
      (accounts'.filter fun account => !(f account).isEmpty) := by
    refine (List.perm_ext_iff_of_nodup (h.filter _) (h'.filter _)).mpr fun account => ?_
    rw [List.mem_filter, List.mem_filter]
    constructor
    · rintro ⟨-, hsome⟩
      exact ⟨hall' account (by simpa using hsome), hsome⟩
    · rintro ⟨-, hsome⟩
      exact ⟨hall account (by simpa using hsome), hsome⟩
  rw [← hcounted accounts, ← hcounted accounts']
  exact (hperm.flatMap_right f).length_eq

namespace Cache

variable {cache : Cache}

/-- The devices of an account are those in its places. -/
theorem mem_devicesOf_iff (cache : Cache) (account : String) (device : Device) :
    device ∈ cache.devicesOf account ↔
      ∃ user id, cache.devices.record? account user id = some device := by
  simp only [mem_devicesOf, DevicesByAccount.record?, Dict.find?_getD_eq_some_iff]
  constructor
  · rintro ⟨user, id, records, users, haccount, huser, hid⟩
    exact ⟨user, id, records, ⟨users, haccount, huser⟩, hid⟩
  · rintro ⟨user, id, records, ⟨users, haccount, huser⟩, hid⟩
    exact ⟨user, id, records, users, haccount, huser, hid⟩

/-- They are in ascending order. -/
theorem ascending_devicesOf (h : cache.devices.Filed) (account : String) :
    (cache.devicesOf account).Pairwise Device.Precedes :=
  ascending_all (h account)

/-- The devices of a user are those of the account that have the user. -/
theorem userDevices_eq_filter (h : cache.devices.Filed) (account user : String) :
    cache.userDevices account user =
      (cache.devicesOf account).filter fun device => device.user = user := by
  refine eq_of_ascending (ascending_values (h account user))
    ((ascending_devicesOf h account).filter _) fun device => ?_
  rw [List.mem_filter, mem_devicesOf_iff, userDevices, Dict.mem_values_iff]
  constructor
  · rintro ⟨id, hfound⟩
    exact ⟨⟨user, id, hfound⟩, decide_eq_true (h account user id device hfound).1⟩
  · rintro ⟨⟨user', id, hfound⟩, huser⟩
    obtain rfl : user' = user :=
      (h account user' id device hfound).1.symm.trans (of_decide_eq_true huser)
    exact ⟨id, hfound⟩

/-- An account with devices is one of the keys. -/
theorem mem_keys_of_devicesOf_ne_nil {account : String} (h : cache.devicesOf account ≠ []) :
    account ∈ cache.devices.keys := by
  rw [Dict.mem_keys_iff]
  cases haccount : cache.devices.find? account with
  | none => exact absurd (by rw [devicesOf, haccount]; rfl) h
  | some users => exact ⟨users, rfl⟩

/-- The count of devices is the sum over all accounts, which may be told in any way. -/
theorem deviceCount_eq_sum (cache : Cache) {accounts : List String} (hnodup : accounts.Nodup)
    (hall : ∀ account, cache.devicesOf account ≠ [] → account ∈ accounts) :
    cache.deviceCount = (accounts.map fun account => (cache.devicesOf account).length).sum := by
  rw [deviceCount_eq, length_flatMap_eq cache.devices.nodup_keys hnodup
    (fun _ => mem_keys_of_devicesOf_ne_nil) hall, List.length_flatMap]

/-- A refreshed cache is an index of the devices that were filed last.

Let the owner of a directory do anything to it, with snapshots of all devices in which every record is filed
under its own user and device identifier. Then this is so for every record of the directory, and every cache
can be refreshed from it. Afterwards, for every account: its devices are ascending by the bytes of the user
and the device identifier, so that none comes twice; they are those that were filed last, by themselves or
in a snapshot; those of a user are the part of them that has this user; and an account or a user for which
nothing was ever filed has none. The count of devices is the sum over all accounts that have any. -/
theorem device_index (changes : List Directory.Change)
    (hfiled : ∀ devices, Directory.Change.setDevices devices ∈ changes → devices.Filed) (cache : Cache) :
    let d := Directory.ofChanges changes
    d.devices.Filed ∧ ∃ refreshed, cache.refreshDevices d.store = .ok refreshed ∧
      (∀ account,
        (refreshed.devicesOf account).Pairwise Device.Precedes ∧
        (∀ device, device ∈ refreshed.devicesOf account ↔ Directory.LastFiled changes account device) ∧
        (∀ user, refreshed.userDevices account user =
          (refreshed.devicesOf account).filter fun device => device.user = user) ∧
        ((∀ change ∈ changes, ∀ device, ¬ change.Files account device) →
          refreshed.devicesOf account = []) ∧
        ∀ user, (∀ change ∈ changes, ∀ device, device.user = user → ¬ change.Files account device) →
          refreshed.userDevices account user = []) ∧
      ∀ accounts : List String, accounts.Nodup →
        (∀ account, refreshed.devicesOf account ≠ [] → account ∈ accounts) →
        refreshed.deviceCount = (accounts.map fun account => (refreshed.devicesOf account).length).sum := by
  intro d
  have hown : d.devices.Filed := Directory.filed_ofChanges hfiled
  have hmem (account : String) (device : Device) :
      device ∈ ({ cache with devices := d.devices } : Cache).devicesOf account ↔
        Directory.LastFiled changes account device := by
    rw [mem_devicesOf_iff, ← Directory.record?_ofChanges]
    constructor
    · rintro ⟨user, id, hfound⟩
      obtain ⟨rfl, rfl⟩ := hown account user id device hfound
      exact hfound
    · exact fun hfound => ⟨device.user, device.device, hfound⟩
  have hnever (account : String) (device : Device)
      (hnone : ∀ change ∈ changes, ¬ change.Files account device) :
      device ∉ ({ cache with devices := d.devices } : Cache).devicesOf account := by
    rw [hmem]
    rintro ⟨before, change, after, hsplit, hfiles, -⟩
    exact hnone change (hsplit ▸ List.mem_append_right _ List.mem_cons_self) hfiles
  refine ⟨hown, { cache with devices := d.devices }, rfl, fun account =>
    ⟨ascending_devicesOf hown account, hmem account, userDevices_eq_filter hown account, fun hnone => ?_,
      fun user hnone => ?_⟩, fun accounts => deviceCount_eq_sum _⟩
  · exact List.eq_nil_iff_forall_not_mem.mpr fun device =>
      hnever account device fun change hchange => hnone change hchange device
  · rw [userDevices_eq_filter hown]
    refine List.filter_eq_nil_iff.mpr fun device hdevice huser => ?_
    exact hnever account device (fun change hchange => hnone change hchange device (of_decide_eq_true huser))
      hdevice

/-- Of the two records of a snapshot one is kept and one is put anew, twice, of which the last time counts;
what was there before the snapshot is gone, and an account that is never mentioned has no devices. -/
theorem device_index_renewed :
    let record (user id name : String) : Device := ⟨user, id, name, "", false, false⟩
    let snapshot : DevicesByAccount := (Directory.ofChanges
      [.putDevice "alice" (record "@bob" "A" "old"), .putDevice "alice" (record "@bob" "B" "kept")]).devices
    let changes : List Directory.Change := [.putDevice "carol" (record "@bob" "A" "gone"),
      .setDevices snapshot, .putDevice "alice" (record "@é" "C" "new"),
      .putDevice "alice" (record "@bob" "A" "newer"), .putDevice "alice" (record "@bob" "A" "newest")]
    let cache : Cache := {}
    (∀ devices, Directory.Change.setDevices devices ∈ changes → devices.Filed) ∧
      ∃ refreshed, cache.refreshDevices (Directory.ofChanges changes).store = .ok refreshed ∧
        refreshed.devicesOf "alice" =
          [record "@bob" "A" "newest", record "@bob" "B" "kept", record "@é" "C" "new"] ∧
        Directory.LastFiled changes "alice" (record "@bob" "B" "kept") ∧
        refreshed.userDevices "alice" "@bob" = [record "@bob" "A" "newest", record "@bob" "B" "kept"] ∧
        refreshed.devicesOf "dave" = [] ∧ refreshed.deviceCount = 3 := by
  intro record snapshot changes cache
  have hfiled : ∀ devices, Directory.Change.setDevices devices ∈ changes → devices.Filed := by
    intro devices hmem
    obtain rfl : devices = snapshot := by simpa [changes] using hmem
    exact Directory.filed_ofChanges (by simp)
  obtain ⟨-, refreshed, hrefreshed, haccounts, hcount⟩ := device_index changes hfiled cache
  obtain rfl := Except.ok.inj hrefreshed
  obtain ⟨-, hmem, huser, -⟩ := haccounts "alice"
  obtain ⟨-, -, -, hnever, -⟩ := haccounts "dave"
  have halice : ({ cache with devices := (Directory.ofChanges changes).devices } : Cache).devicesOf "alice" =
      [record "@bob" "A" "newest", record "@bob" "B" "kept", record "@é" "C" "new"] := by decide +kernel
  have hkeys : (Directory.ofChanges changes).devices.keys = ["alice"] := by decide +kernel
  have hdave (user id : String) : snapshot.record? "dave" user id = none := by
    rw [DevicesByAccount.record?, show snapshot.find? "dave" = none by decide +kernel]
    rfl
  refine ⟨hfiled, _, hrefreshed, halice, (hmem _).mp (halice ▸ by simp), (huser "@bob").trans ?_,
    hnever ?_, (hcount ["alice"] (by simp) fun account hsome => ?_).trans ?_⟩
  · rw [halice]
    decide
  · intro change hchange device hfiles
    simp only [changes, List.mem_cons, List.not_mem_nil, or_false] at hchange
    rcases hchange with rfl | rfl | rfl | rfl | rfl
    · exact absurd hfiles.1 (by decide)
    · exact nomatch (hdave device.user device.device).symm.trans hfiles
    · exact absurd hfiles.1 (by decide)
    · exact absurd hfiles.1 (by decide)
    · exact absurd hfiles.1 (by decide)
  · exact hkeys ▸ mem_keys_of_devicesOf_ne_nil hsome
  · rw [List.map_singleton, halice]
    rfl

end Cache

end DaemonBridge
