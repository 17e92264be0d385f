/-!
# Dictionaries with text keys

A finite map from strings, kept as its entries in strictly ascending key order. The order compares
code points, which is also the order of the keys' UTF-8 bytes, so a dictionary has one list of
entries (`ext_find?`) and shows it in the order in which it is written out.
-/

namespace DaemonBridge

/-- A finite map with string keys. -/
structure Dict (α : Type) where
  entries : List (String × α)
  ascending : entries.Pairwise fun a b => a.1 < b.1

namespace Dict

variable {α β : Type}

/-- Put an entry into an ascending list, in place of an entry with the same key. -/
def insertEntry (key : String) (value : α) : List (String × α) → List (String × α)
  | [] => [(key, value)]
  | entry :: rest =>
    if key < entry.1 then (key, value) :: entry :: rest
    else if entry.1 < key then entry :: insertEntry key value rest
    else (key, value) :: rest

/-- The value of the first entry with the key. -/
def valueOf? (key : String) : List (String × α) → Option α
  | [] => none
  | entry :: rest => if key = entry.1 then some entry.2 else valueOf? key rest

/-- The keys after an insertion are the old keys and the new one. -/
theorem mem_insertEntry {key : String} {value : α} {entries : List (String × α)} {entry : String × α}
    (h : entry ∈ insertEntry key value entries) : entry = (key, value) ∨ entry ∈ entries := by
  induction entries with
  | nil => simpa [insertEntry] using h
  | cons first rest ih =>
    unfold insertEntry at h
    split at h
    · simpa using h
    · split at h
      · rcases List.mem_cons.mp h with h | h
        · exact .inr (by simp [h])
        · exact (ih h).imp id fun h => List.mem_cons_of_mem _ h
      · rcases List.mem_cons.mp h with h | h
        · exact .inl h
        · exact .inr (List.mem_cons_of_mem _ h)

/-- Insertion keeps the keys ascending. -/
theorem insertEntry_pairwise (key : String) (value : α) {entries : List (String × α)}
    (h : entries.Pairwise fun a b => a.1 < b.1) :
    (insertEntry key value entries).Pairwise fun a b => a.1 < b.1 := by
  induction entries with
  | nil => simp [insertEntry]
  | cons first rest ih =>
    obtain ⟨hfirst, hrest⟩ := List.pairwise_cons.mp h
    unfold insertEntry
    split
    · next hlt =>
      refine List.pairwise_cons.mpr ⟨fun entry hmem => ?_, h⟩
      rcases List.mem_cons.mp hmem with rfl | hmem
      · exact hlt
      · exact String.lt_trans hlt (hfirst entry hmem)
    · next hge =>
      split
      · next hlt =>
        refine List.pairwise_cons.mpr ⟨fun entry hmem => ?_, ih hrest⟩
        rcases mem_insertEntry hmem with rfl | hmem
        · exact hlt
        · exact hfirst entry hmem
      · next hle =>
        have hkey : key = first.1 := String.le_antisymm hle hge
        exact List.pairwise_cons.mpr ⟨fun entry hmem => hkey ▸ hfirst entry hmem, hrest⟩

/-- The dictionary without entries. -/
def empty : Dict α :=
  ⟨[], List.Pairwise.nil⟩

instance : EmptyCollection (Dict α) := ⟨empty⟩

instance : Inhabited (Dict α) := ⟨empty⟩

/-- The value stored under a key. -/
def find? (d : Dict α) (key : String) : Option α :=
  valueOf? key d.entries

/-- Store a value under a key, in place of an earlier one. -/
def insert (d : Dict α) (key : String) (value : α) : Dict α :=
  ⟨insertEntry key value d.entries, insertEntry_pairwise key value d.ascending⟩

/-- Forget a key. -/
def erase (d : Dict α) (key : String) : Dict α :=
  ⟨d.entries.filter fun entry => entry.1 != key, d.ascending.filter _⟩

/-- Replace the value under a key by `f` of it, where a missing key counts as `absent`. -/
def update (d : Dict α) (key : String) (absent : α) (f : α → α) : Dict α :=
  d.insert key (f ((d.find? key).getD absent))

/-- The dictionary of the pairs, in which a later pair replaces an earlier one of the same key. -/
def ofList (pairs : List (String × α)) : Dict α :=
  pairs.foldl (fun d pair => d.insert pair.1 pair.2) ∅

/-- The keys in ascending order. -/
def keys (d : Dict α) : List String :=
  d.entries.map Prod.fst

/-- The values in the order of their keys. -/
def values (d : Dict α) : List α :=
  d.entries.map Prod.snd

/-- Two dictionaries with the same entries are equal. -/
theorem ext {d e : Dict α} (h : d.entries = e.entries) : d = e := by
  cases d; cases e; simp_all

instance [DecidableEq α] : DecidableEq (Dict α) := fun d e =>
  if h : d.entries = e.entries then isTrue (ext h) else isFalse fun he => h (he ▸ rfl)

instance [Repr α] : Repr (Dict α) := ⟨fun d n => reprPrec d.entries n⟩

/-- A stored value is found under its key, and every other key keeps its value. -/
theorem find?_insert (d : Dict α) (key other : String) (value : α) :
    (d.insert key value).find? other = if other = key then some value else d.find? other := by
  obtain ⟨entries, h⟩ := d
  simp only [find?, insert]
  induction entries with
  | nil => simp [insertEntry, valueOf?]
  | cons first rest ih =>
    have ih := ih (List.pairwise_cons.mp h).2
    unfold insertEntry
    split
    · simp [valueOf?]
    · next hge =>
      split
      · next hlt =>
        have hne : first.1 ≠ key := String.ne_of_lt hlt
        by_cases ho : other = first.1 <;> simp [valueOf?, ih, ho, hne]
      · next hle =>
        have hkey : key = first.1 := String.le_antisymm hle hge
        by_cases ho : other = first.1 <;> simp [valueOf?, ho, hkey]

/-- An entry's value is what its key finds. -/
theorem find?_eq_some_iff (d : Dict α) (key : String) (value : α) :
    d.find? key = some value ↔ (key, value) ∈ d.entries := by
  obtain ⟨entries, h⟩ := d
  simp only [find?]
  induction entries with
  | nil => simp [valueOf?]
  | cons first rest ih =>
    obtain ⟨hfirst, hrest⟩ := List.pairwise_cons.mp h
    obtain ⟨k, v⟩ := first
    have ih := ih hrest
    by_cases hk : key = k
    · subst hk
      have hnot : (key, value) ∉ rest := fun hmem => String.lt_irrefl key (hfirst (key, value) hmem)
      simp [valueOf?, hnot, eq_comm]
    · simp [valueOf?, hk, ih]

/-- No key is there twice. -/
theorem nodup_keys (d : Dict α) : d.keys.Nodup :=
  List.pairwise_map.mpr (d.ascending.imp fun hlt => String.ne_of_lt hlt)

/-- A key is one that finds a value. -/
theorem mem_keys_iff (d : Dict α) (key : String) :
    key ∈ d.keys ↔ ∃ value, d.find? key = some value := by
  constructor
  · intro hmem
    obtain ⟨entry, hentry, rfl⟩ := List.mem_map.mp hmem
    exact ⟨entry.2, (d.find?_eq_some_iff _ _).mpr hentry⟩
  · rintro ⟨value, hfind⟩
    exact List.mem_map.mpr ⟨(key, value), (d.find?_eq_some_iff _ _).mp hfind, rfl⟩

/-- A value is what some key finds. -/
theorem mem_values_iff (d : Dict α) (value : α) :
    value ∈ d.values ↔ ∃ key, d.find? key = some value := by
  constructor
  · intro hmem
    obtain ⟨entry, hentry, rfl⟩ := List.mem_map.mp hmem
    exact ⟨entry.1, (d.find?_eq_some_iff _ _).mpr hentry⟩
  · rintro ⟨key, hfind⟩
    exact List.mem_map.mpr ⟨(key, value), (d.find?_eq_some_iff _ _).mp hfind, rfl⟩

/-- A value in a dictionary of dictionaries is found by two keys. -/
theorem find?_getD_eq_some_iff (d : Dict (Dict α)) (outer key : String) (value : α) :
    ((d.find? outer).getD ∅).find? key = some value ↔
      ∃ inner, d.find? outer = some inner ∧ inner.find? key = some value := by
  cases d.find? outer with
  | none => exact ⟨nofun, fun ⟨_, hnone, _⟩ => nomatch hnone⟩
  | some inner => exact ⟨fun h => ⟨inner, rfl, h⟩, fun ⟨_, heq, h⟩ => Option.some.inj heq ▸ h⟩

/-- The values are what the keys find, in the order of the keys. -/
theorem flatMap_find?_keys (d : Dict α) (f : Option α → List β) :
    (d.keys.flatMap fun key => f (d.find? key)) = d.values.flatMap fun value => f (some value) := by
  rw [keys, values, List.flatMap_map, List.flatMap_map, List.flatMap_def, List.flatMap_def]
  refine congrArg List.flatten (List.map_congr_left fun entry hentry => ?_)
  exact congrArg f ((d.find?_eq_some_iff entry.1 entry.2).mpr hentry)

/-- Two dictionaries in which every key finds the same are equal. -/
theorem ext_find? {d e : Dict α} (h : ∀ key, d.find? key = e.find? key) : d = e := by
  have hnodup : ∀ d : Dict α, d.entries.Nodup := fun d =>
    d.ascending.imp fun hlt heq => String.ne_of_lt hlt (congrArg Prod.fst heq)
  have hperm : d.entries.Perm e.entries :=
    (List.perm_ext_iff_of_nodup (hnodup d) (hnodup e)).mpr fun entry => by
      rw [← d.find?_eq_some_iff, ← e.find?_eq_some_iff, h]
  refine ext (hperm.eq_of_pairwise (fun a b _ _ hab hba => ?_) d.ascending e.ascending)
  exact absurd (String.lt_trans hab hba) (String.lt_irrefl _)

end Dict

end DaemonBridge
