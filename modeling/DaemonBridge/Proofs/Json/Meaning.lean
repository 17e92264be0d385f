import DaemonBridge.Proofs.Json.Members

/-!
# What a well-formed text means to a decoder

A value that is kept for later must be Unicode throughout (`Writing.isUnicode_of_fault?`), so among tagged
members, all of which are kept until the tag is known, no string at all may hold half of a pair
(`membersFault?_of_tagged`).
-/

namespace DaemonBridge.Json

/-! ## Values -/

mutual

/-- The value that is meant is as deep as what is written. -/
theorem Writing.depth_value : (w : Writing) → w.value.depth = w.depth
  | .null | .bool _ | .numeral _ | .string _ => rfl
  | .arr items => congrArg (· + 1) items.itemsDepth_values
  | .obj members => congrArg (· + 1) members.membersDepth_values

/-- So are the elements. -/
theorem ItemWritings.itemsDepth_values : (items : ItemWritings) → itemsDepth items.values = items.depth
  | .nil _ => rfl
  | .cons _ value _ items => congrArg₂ max value.depth_value items.itemsDepth_values

/-- So are the members. -/
theorem MemberWritings.membersDepth_values : (members : MemberWritings) →
    membersDepth members.values = members.depth
  | .nil _ => rfl
  | .cons _ _ _ _ value _ members => congrArg₂ max value.depth_value members.membersDepth_values

end

/-- An unsigned integer of 64 bits is written as an integer without a sign. -/
theorem Writing.value_eq_nat_iff {w : Writing} (hfit : w.NumbersFit) (m : UInt64) :
    w.value = .nat m ↔ ∃ n, w = .numeral n ∧ n.IsUnsigned m.toNat := by
  cases w with
  | numeral n =>
    obtain ⟨number, hnumber⟩ := Option.isSome_iff_exists.mp hfit
    have hvalue : (Writing.numeral n).value = .nat m ↔ n.numeral.value? = some (.nat m) := by
      simp [Writing.value, hnumber, Value.nat]
    rw [hvalue, n.value?_eq_nat_iff]
    simp
  | null | bool | string | arr | obj => simp [Writing.value, Value.nat]

/-! ## Faults -/

/-- A string without fault has a meaning. -/
theorem isSome_meaning_of_fault? {items : List StringItem} (h : (stringLeaf items).fault? = none) :
    (meaning? items).isSome = true := by
  cases hmeaning : (meaning? items).isSome with
  | true => rfl
  | false =>
    rw [stringLeaf_of_meaningless hmeaning] at h
    exact nomatch h

mutual

/-- A value without fault is Unicode. -/
theorem Writing.isUnicode_of_fault? : (w : Writing) → (room : Nat) → w.tree.fault? room = none →
    w.IsUnicode
  | .null, _, _ => trivial
  | .bool _, _, _ => trivial
  | .numeral _, _, _ => trivial
  | .string _, _, h => isSome_meaning_of_fault? h
  | .arr _, 0, h => nomatch h
  | .arr items, room + 1, h => items.areUnicode_of_itemsFault? room (Option.or_eq_none_iff.mp h).1
  | .obj _, 0, h => nomatch h
  | .obj members, room + 1, h => members.areUnicode_of_membersFault? room (Option.or_eq_none_iff.mp h).1

/-- So are elements. -/
theorem ItemWritings.areUnicode_of_itemsFault? : (items : ItemWritings) → (room : Nat) →
    itemsFault? room items.trees = none → items.AreUnicode
  | .nil _, _, _ => trivial
  | .cons _ value _ items, room, h =>
    have hparts := Option.or_eq_none_iff.mp h
    ⟨value.isUnicode_of_fault? room hparts.1, items.areUnicode_of_itemsFault? room hparts.2⟩

/-- So are members and their names. -/
theorem MemberWritings.areUnicode_of_membersFault? : (members : MemberWritings) → (room : Nat) →
    membersFault? room members.trees = none → members.AreUnicode
  | .nil _, _, _ => trivial
  | .cons _ _ _ _ value _ members, room, h =>
    have hparts := Option.or_eq_none_iff.mp h
    have hmember := Option.or_eq_none_iff.mp hparts.1
    ⟨isSome_meaning_of_fault? hmember.1, value.isUnicode_of_fault? room hmember.2,
      members.areUnicode_of_membersFault? room hparts.2⟩

end

/-! ## Tagged members -/

section Tagged

variable {ν α : Type} {room : Nat} {members : List Member}

/-- A name that is one is not at fault. -/
theorem Leaf.fault?_of_name {key : Leaf} {name : String} (h : key.name = .ok name) :
    key.fault? = none := by
  cases key with
  | str => rfl
  | null | bool | num | meaningless | broken => exact nomatch h

/-- What has been kept is free of faults. -/
theorem Tree.fault?_of_hold {tree : Tree} (h : tree.hold (.text room) = .ok ()) :
    tree.fault? room = none := by
  rw [Tree.hold] at h
  cases hfault : tree.fault? room with
  | none => rfl
  | some fault =>
    rw [hfault] at h
    cases h

/-- Members among which the tag has been looked for are free of faults, if a value that tells a kind is. -/
theorem membersFault?_of_findTag {tag : String} {identify : Decoder ν} {found result : Option ν}
    (hlabel : ∀ tree kind, identify (.text room) tree = .ok kind → tree.fault? room = none)
    (h : findTag tag identify (.text room) members found = .ok result) :
    membersFault? room members = none := by
  induction members generalizing found with
  | nil => rfl
  | cons member members ih =>
    obtain ⟨key, value⟩ := member
    obtain ⟨name, hname, h⟩ := bind_eq_ok_iff.mp h
    suffices hparts : value.fault? room = none ∧ membersFault? room members = none by
      rw [membersFault?, Leaf.fault?_of_name hname, hparts.1, hparts.2]
      rfl
    split at h
    · cases found with
      | some kind => exact nomatch h
      | none =>
        obtain ⟨kind, hkind, h⟩ := bind_eq_ok_iff.mp h
        exact ⟨hlabel value kind hkind, ih h⟩
    · obtain ⟨_, hhold, h⟩ := bind_eq_ok_iff.mp h
      exact ⟨Tree.fault?_of_hold hhold, ih h⟩

/-- So are the members of a tagged value that has been decoded. -/
theorem membersFault?_of_tagged {tag what : String} {identify : Decoder ν} {content : ν → Decoder α}
    {a : α} {ending : Ending}
    (hlabel : ∀ tree kind, identify (.text room) tree = .ok kind → tree.fault? room = none)
    (h : tagged tag what identify content (.text (room + 1)) (.obj members ending) = .ok a) :
    membersFault? room members = none := by
  have henter : (Source.text (room + 1)).enter = .ok (.text room) := rfl
  simp only [tagged, henter, ok_bind] at h
  obtain ⟨found, hfind, -⟩ := bind_eq_ok_iff.mp h
  exact membersFault?_of_findTag hlabel hfind

/-- In a text, a variant is told by a string that has a meaning. -/
theorem fault?_of_variant {known : List (String × ν)} {other : Option ν} {tree : Tree} {kind : ν}
    (h : variant known other (.text room) tree = .ok kind) : tree.fault? room = none := by
  cases tree with
  | leaf leaf =>
    cases leaf with
    | null | bool | num | str => rfl
    | meaningless | broken => exact nomatch h
  | arr | obj => exact nomatch h

end Tagged

end DaemonBridge.Json
