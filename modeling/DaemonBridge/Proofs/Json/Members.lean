import DaemonBridge.Proofs.Json.Records
import Mathlib.Data.List.Forall2

/-!
# What is found among the members of an object

An object without faults is decoded exactly when each field of the record occurs once with a value of
its shape, whatever else stands in the object and in whatever sequence (`OnlyMember`). Each way of
putting records together has one equivalence: a field, two records side by side, a record whose object
also holds the members of another one, and values told apart by a tag.
-/

namespace DaemonBridge

namespace Json

variable {α β ν : Type} {source inner : Source} {members : List (String × Value)}

/-- The members of a name. -/
def membersNamed (name : String) (members : List (String × Value)) : List (String × Value) :=
  members.filter fun member => member.1 == name

/-- Exactly one member has the name, and this is its value. -/
def OnlyMember (members : List (String × Value)) (name : String) (value : Value) : Prop :=
  membersNamed name members = [(name, value)]

/-- A member of another name is left out. -/
theorem membersNamed_cons_of_ne {name other : String} (h : other ≠ name) (value : Value)
    (members : List (String × Value)) :
    membersNamed name ((other, value) :: members) = membersNamed name members :=
  List.filter_cons_of_neg (by simpa using h)

/-- A member of the name is kept. -/
theorem membersNamed_cons_self (name : String) (value : Value) (members : List (String × Value)) :
    membersNamed name ((name, value) :: members) = (name, value) :: membersNamed name members :=
  List.filter_cons_of_pos (by simp)

/-- Members of other names may be left out before. -/
theorem membersNamed_filter {name : String} (keep : String → Bool) (h : keep name = true) :
    membersNamed name (members.filter fun member => keep member.1) = membersNamed name members := by
  rw [membersNamed, List.filter_filter, membersNamed]
  congr 1
  funext member
  by_cases hname : member.1 = name
  · simp [hname, h]
  · simp [hname]

/-- Behind a member of the name, it is the only one if no other follows. -/
theorem onlyMember_cons_self_iff {name : String} {first value : Value} :
    OnlyMember ((name, first) :: members) name value ↔
      first = value ∧ membersNamed name members = [] := by
  rw [OnlyMember, membersNamed_cons_self]
  simp

/-- A member of another name does not matter. -/
theorem onlyMember_cons_of_ne_iff {name other : String} (h : other ≠ name) {first value : Value} :
    OnlyMember ((other, first) :: members) name value ↔ OnlyMember members name value := by
  rw [OnlyMember, membersNamed_cons_of_ne h, OnlyMember]

/-- The only member of a name is the only one wherever the name occurs as often. -/
theorem OnlyMember.of_perm {others : List (String × Value)} {name : String} {value : Value}
    (h : OnlyMember members name value)
    (hperm : (membersNamed name members).Perm (membersNamed name others)) :
    OnlyMember others name value :=
  List.perm_singleton.mp (hperm.symm.trans (.of_eq h))

/-! ## Values of one shape -/

/-- A value without faults can be passed over. -/
theorem Value.pass_tree (v : Value) : v.tree.pass = .ok () := by
  cases v <;> rfl

/-- What goes on after a result has succeeded if both have. -/
theorem bind_eq_ok_iff {ε : Type} {x : Except ε α} {next : α → Except ε β} {b : β} :
    x >>= next = .ok b ↔ ∃ a, x = .ok a ∧ next a = .ok b := by
  cases x with
  | error e => exact ⟨nofun, fun ⟨_, h, _⟩ => nomatch h⟩
  | ok a => exact ⟨fun h => ⟨a, rfl, h⟩, fun ⟨_, h, hnext⟩ => Except.ok.inj h ▸ hnext⟩

/-- A result that is put otherwise has succeeded if it has. -/
theorem map_eq_ok_iff {ε : Type} {x : Except ε α} {f : α → β} {b : β} :
    x.map f = .ok b ↔ ∃ a, x = .ok a ∧ f a = b := by
  cases x <;> simp [Except.map]

/-- Strings are decoded from strings. -/
theorem string_eq_ok_iff {v : Value} {s : String} : string source v.tree = .ok s ↔ v = .str s := by
  cases v <;> simp [Value.tree, string, stringNamed]

/-- Unsigned integers of 64 bits are decoded from such numerals. -/
theorem uint64_eq_ok_iff {v : Value} {n : UInt64} : uint64 source v.tree = .ok n ↔ v = .nat n := by
  cases v with
  | num number => cases number <;> simp [Value.tree, Value.nat, uint64, uint64Named]
  | _ => simp [Value.tree, Value.nat, uint64, uint64Named]

/-- Elements are decoded one by one. -/
theorem mapM_eq_ok_iff {decode : Tree → Except DecodeError α} {items : List Value} {l : List α} :
    (itemTrees items).mapM decode = .ok l ↔
      List.Forall₂ (fun item a => decode item.tree = .ok a) items l := by
  induction items generalizing l with
  | nil => exact ⟨fun h => Except.ok.inj h ▸ .nil, fun h => by cases h; rfl⟩
  | cons item items ih =>
    rw [itemTrees, List.mapM_cons, bind_eq_ok_iff]
    constructor
    · rintro ⟨a, ha, h⟩
      obtain ⟨rest, hrest, hl⟩ := bind_eq_ok_iff.mp h
      cases hl
      exact .cons ha (ih.mp hrest)
    · intro h
      cases h with
      | cons ha hrest => exact ⟨_, ha, bind_eq_ok_iff.mpr ⟨_, ih.mpr hrest, rfl⟩⟩

/-- Lists are decoded from arrays, element by element. -/
theorem list_eq_ok_iff {decoder : Decoder α} (henter : source.enter = .ok inner) {v : Value}
    {l : List α} :
    list decoder source v.tree = .ok l ↔
      ∃ items, v = .arr items ∧ List.Forall₂ (fun item a => decoder inner item.tree = .ok a) items l := by
  cases v with
  | arr items =>
    have hlist : list decoder source (Value.arr items).tree = .ok l ↔
        (itemTrees items).mapM (decoder inner) = .ok l := by
      simp only [Value.tree, list, henter, ok_bind]
      cases (itemTrees items).mapM (decoder inner) <;> simp [bind, Except.bind, faultless, Ending.fault?,
        pure, Except.pure]
    rw [hlist, mapM_eq_ok_iff]
    simp
  | _ => simp [Value.tree, list]

/-! ## Records -/

namespace Record

variable {r : Record α} {s : Record β} {a : α} {b : β}

/-- A member that is no field is passed over. -/
theorem fill_cons_of_not_mem {name : String} (h : name ∉ r.names) (value : Value) (draft : r.Draft) :
    r.fill source (memberTrees ((name, value) :: members)) draft =
      r.fill source (memberTrees members) draft := by
  simp only [memberTrees, fill, Leaf.name, ok_bind, if_neg h, value.pass_tree]

/-- A member that is a field is added. -/
theorem fill_cons_of_mem {name : String} (h : name ∈ r.names) (value : Value) (draft : r.Draft) :
    r.fill source (memberTrees ((name, value) :: members)) draft =
      r.accept source name value.tree draft >>= r.fill source (memberTrees members) := by
  simp only [memberTrees, fill, Leaf.name, ok_bind, if_pos h]

/-- A field that has been read must not come again. -/
theorem fill_field_some_iff {name : String} {decoder : Decoder α} {draft : Option α} :
    (field name decoder).fill source (memberTrees members) (some a) = .ok draft ↔
      membersNamed name members = [] ∧ draft = some a := by
  induction members with
  | nil => exact ⟨fun h => ⟨rfl, (Except.ok.inj h).symm⟩, fun h => congrArg Except.ok h.2.symm⟩
  | cons member members ih =>
    obtain ⟨other, value⟩ := member
    by_cases hname : other = name
    · subst hname
      have hknown : other ∈ (field other decoder).names := List.mem_singleton_self other
      refine (Eq.congr_left (fill_cons_of_mem hknown value (some a))).trans ?_
      rw [membersNamed_cons_self]
      exact ⟨nofun, fun h => nomatch h.1⟩
    · have hunknown : other ∉ (field name decoder).names := fun hmem => hname (List.mem_singleton.mp hmem)
      refine (Eq.congr_left (fill_cons_of_not_mem hunknown value (some a))).trans ?_
      rw [membersNamed_cons_of_ne hname]
      exact ih

/-- A field that has not been read is read from the only member of its name. -/
theorem fill_field_none_iff {name : String} {decoder : Decoder α} :
    (field name decoder).fill source (memberTrees members) none = .ok (some a) ↔
      ∃ value, OnlyMember members name value ∧ decoder source value.tree = .ok a := by
  induction members with
  | nil => exact ⟨fun h => (nomatch Except.ok.inj h), fun ⟨_, h, _⟩ => nomatch h⟩
  | cons member members ih =>
    obtain ⟨other, value⟩ := member
    by_cases hname : other = name
    · subst hname
      have hknown : other ∈ (field other decoder).names := List.mem_singleton_self other
      refine (Eq.congr_left (fill_cons_of_mem hknown value none)).trans (bind_eq_ok_iff.trans ?_)
      simp only [onlyMember_cons_self_iff]
      constructor
      · rintro ⟨draft, hdraft, hfill⟩
        obtain ⟨a', hvalue, rfl⟩ := map_eq_ok_iff.mp hdraft
        obtain ⟨hnone, heq⟩ := fill_field_some_iff.mp hfill
        exact ⟨value, ⟨rfl, hnone⟩, Option.some.inj heq ▸ hvalue⟩
      · rintro ⟨_, ⟨rfl, hnone⟩, hvalue⟩
        exact ⟨some a, map_eq_ok_iff.mpr ⟨a, hvalue, rfl⟩, fill_field_some_iff.mpr ⟨hnone, rfl⟩⟩
    · have hunknown : other ∉ (field name decoder).names := fun hmem => hname (List.mem_singleton.mp hmem)
      refine (Eq.congr_left (fill_cons_of_not_mem hunknown value none)).trans ?_
      simp only [onlyMember_cons_of_ne_iff hname]
      exact ih

/-- The fields of two records are filled in independently of each other. -/
theorem fill_and_iff (hnew : ∀ name ∈ s.names, name ∉ r.names) {d d' : r.Draft} {e e' : s.Draft} :
    (r.and s).fill source (memberTrees members) (d, e) = .ok (d', e') ↔
      r.fill source (memberTrees members) d = .ok d' ∧
        s.fill source (memberTrees members) e = .ok e' := by
  induction members generalizing d e with
  | nil => exact ⟨fun h => by cases h; exact ⟨rfl, rfl⟩, fun ⟨hd, he⟩ => by cases hd; cases he; rfl⟩
  | cons member members ih =>
    obtain ⟨name, value⟩ := member
    by_cases hr : name ∈ r.names
    · have hs : name ∉ s.names := fun hs => hnew name hs hr
      have hboth : name ∈ (r.and s).names := List.mem_append_left _ hr
      have haccept : (r.and s).accept source name value.tree (d, e) =
          (r.accept source name value.tree d).map fun d => (d, e) := if_pos hr
      rw [fill_cons_of_mem hr, fill_cons_of_not_mem hs]
      refine (Eq.congr_left (fill_cons_of_mem hboth value (d, e))).trans ?_
      rw [haccept]
      cases r.accept source name value.tree d with
      | error err => exact ⟨nofun, fun h => nomatch h.1⟩
      | ok d => exact ih
    · by_cases hs : name ∈ s.names
      · have hboth : name ∈ (r.and s).names := List.mem_append_right _ hs
        have haccept : (r.and s).accept source name value.tree (d, e) =
            (s.accept source name value.tree e).map fun e => (d, e) := if_neg hr
        rw [fill_cons_of_not_mem hr, fill_cons_of_mem hs]
        refine (Eq.congr_left (fill_cons_of_mem hboth value (d, e))).trans ?_
        rw [haccept]
        cases s.accept source name value.tree e with
        | error err => exact ⟨nofun, fun h => nomatch h.2⟩
        | ok e => exact ih
      · have hneither : name ∉ (r.and s).names := fun hmem => (List.mem_append.mp hmem).elim hr hs
        rw [fill_cons_of_not_mem hr, fill_cons_of_not_mem hs]
        exact (Eq.congr_left (fill_cons_of_not_mem hneither value (d, e))).trans ih

/-- A record is read from members that fill it in. -/
theorem ofMembers_eq_ok_iff :
    r.ofMembers source (memberTrees members) .closed = .ok a ↔
      ∃ draft, r.fill source (memberTrees members) r.blank = .ok draft ∧ r.build draft = .ok a :=
  bind_eq_ok_iff

/-- A field is read from the only member of its name. -/
theorem ofMembers_field_iff {name : String} {decoder : Decoder α} :
    (field name decoder).ofMembers source (memberTrees members) .closed = .ok a ↔
      ∃ value, OnlyMember members name value ∧ decoder source value.tree = .ok a := by
  rw [ofMembers_eq_ok_iff, ← fill_field_none_iff]
  constructor
  · rintro ⟨draft, hfill, hbuild⟩
    cases draft with
    | none => exact nomatch hbuild
    | some a' =>
      cases hbuild
      exact hfill
  · exact fun hfill => ⟨some a, hfill, rfl⟩

/-- Two records side by side are each read from the members. -/
theorem ofMembers_and_iff (hnew : ∀ name ∈ s.names, name ∉ r.names) :
    (r.and s).ofMembers source (memberTrees members) .closed = .ok (a, b) ↔
      r.ofMembers source (memberTrees members) .closed = .ok a ∧
        s.ofMembers source (memberTrees members) .closed = .ok b := by
  have hbuild : ∀ d e, (r.and s).build (d, e) = .ok (a, b) ↔ r.build d = .ok a ∧ s.build e = .ok b := by
    intro d e
    show (r.build d >>= fun a => s.build e >>= fun b => pure (a, b)) = _ ↔ _
    cases r.build d <;> cases s.build e <;> simp [bind, Except.bind, pure, Except.pure]
  simp only [ofMembers_eq_ok_iff]
  constructor
  · rintro ⟨⟨d, e⟩, hfill, hboth⟩
    obtain ⟨hd, he⟩ := (fill_and_iff hnew).mp hfill
    obtain ⟨ha, hb⟩ := (hbuild d e).mp hboth
    exact ⟨⟨d, hd, ha⟩, ⟨e, he, hb⟩⟩
  · rintro ⟨⟨d, hd, ha⟩, ⟨e, he, hb⟩⟩
    exact ⟨(d, e), (fill_and_iff hnew).mpr ⟨hd, he⟩, (hbuild d e).mpr ⟨ha, hb⟩⟩

/-- A string is read from the only member of its name. -/
theorem ofMembers_string_iff {name text : String} :
    (field name string).ofMembers source (memberTrees members) .closed = .ok text ↔
      OnlyMember members name (.str text) := by
  simp only [ofMembers_field_iff, string_eq_ok_iff, exists_eq_right]

/-- So is an unsigned integer. -/
theorem ofMembers_uint64_iff {name : String} {n : UInt64} :
    (field name uint64).ofMembers source (memberTrees members) .closed = .ok n ↔
      OnlyMember members name (.nat n) := by
  simp only [ofMembers_field_iff, uint64_eq_ok_iff, exists_eq_right]

/-- A record that is put together otherwise is read from the same members. -/
theorem ofMembers_map_iff {f : α → β} :
    (r.map f).ofMembers source (memberTrees members) .closed = .ok b ↔
      ∃ a, r.ofMembers source (memberTrees members) .closed = .ok a ∧ f a = b := by
  have hbuild : ∀ draft, (r.map f).build draft = (r.build draft).map f := fun _ => rfl
  simp only [ofMembers_eq_ok_iff, fill_map, hbuild, map_eq_ok_iff]
  constructor
  · rintro ⟨draft, hfill, a, ha, rfl⟩
    exact ⟨a, ⟨draft, hfill, ha⟩, rfl⟩
  · rintro ⟨a, ⟨draft, hfill, ha⟩, rfl⟩
    exact ⟨draft, hfill, a, ha, rfl⟩

/-- A record whose value can be split again is read as its parts are. -/
theorem ofMembers_map_split_iff {f : α → β} (split : β → α) (hjoin : ∀ b, f (split b) = b)
    (hsplit : ∀ a, split (f a) = a) :
    (r.map f).ofMembers source (memberTrees members) .closed = .ok b ↔
      r.ofMembers source (memberTrees members) .closed = .ok (split b) := by
  rw [ofMembers_map_iff]
  constructor
  · rintro ⟨a, ha, rfl⟩
    rwa [hsplit]
  · exact fun h => ⟨split b, h, hjoin b⟩

/-- A record is decoded from an object whose members fill it in. -/
theorem decoder_obj_iff (henter : source.enter = .ok inner) {what : String} :
    r.decoder what source (Value.obj members).tree = .ok a ↔
      r.ofMembers inner (memberTrees members) .closed = .ok a := by
  simp only [Value.tree, Record.decoder, henter, ok_bind]

/-- A string is drawn from the first element. -/
theorem draw_string_iff {name what text : String} {index : Nat} {items : List Value}
    {rest : List Tree} :
    (field name string).draw source what index .closed (itemTrees items) = .ok (text, rest) ↔
      ∃ more, items = .str text :: more ∧ itemTrees more = rest := by
  cases items with
  | nil => exact ⟨nofun, fun ⟨_, h, _⟩ => nomatch h⟩
  | cons item items =>
    have hdraw : (field name string).draw source what index .closed (itemTrees (item :: items)) =
        string source item.tree >>= fun s => pure (s, itemTrees items) := rfl
    rw [hdraw, bind_eq_ok_iff]
    constructor
    · rintro ⟨s, hs, hpair⟩
      cases hpair
      exact ⟨items, by rw [string_eq_ok_iff.mp hs], rfl⟩
    · rintro ⟨more, hcons, rfl⟩
      cases hcons
      exact ⟨text, rfl, rfl⟩

/-- Two records are drawn one after the other. -/
theorem draw_and_iff {what : String} {index : Nat} {items rest : List Tree} :
    (r.and s).draw source what index .closed items = .ok ((a, b), rest) ↔
      ∃ middle, r.draw source what index .closed items = .ok (a, middle) ∧
        s.draw source what (index + r.names.length) .closed middle = .ok (b, rest) := by
  have hdraw : (r.and s).draw source what index .closed items =
      r.draw source what index .closed items >>= fun first =>
        s.draw source what (index + r.names.length) .closed first.2 >>= fun second =>
          pure ((first.1, second.1), second.2) := rfl
  rw [hdraw, bind_eq_ok_iff]
  simp only [bind_eq_ok_iff]
  constructor
  · rintro ⟨⟨a', middle⟩, hfirst, ⟨b', rest'⟩, hsecond, hpair⟩
    cases hpair
    exact ⟨middle, hfirst, hsecond⟩
  · rintro ⟨middle, hfirst, hsecond⟩
    exact ⟨(a, middle), hfirst, (b, rest), hsecond, rfl⟩

/-- A record whose value can be split again is drawn as its parts are. -/
theorem draw_map_split_iff {f : α → β} (split : β → α) (hjoin : ∀ b, f (split b) = b)
    (hsplit : ∀ a, split (f a) = a) {what : String} {index : Nat} {items rest : List Tree} :
    (r.map f).draw source what index .closed items = .ok (b, rest) ↔
      r.draw source what index .closed items = .ok (split b, rest) := by
  have hdraw : (r.map f).draw source what index .closed items =
      (r.draw source what index .closed items).map fun drawn => (f drawn.1, drawn.2) := rfl
  rw [hdraw, map_eq_ok_iff]
  constructor
  · rintro ⟨⟨a, rest'⟩, ha, hpair⟩
    cases hpair
    rwa [hsplit]
  · exact fun h => ⟨(split b, rest), h, by rw [hjoin]⟩

/-- From an array that was held before, a record is decoded if it uses up all elements. -/
theorem decoder_arr_held_iff {what : String} {items : List Value} :
    r.decoder what .held (Value.arr items).tree = .ok a ↔
      r.draw .held (what ++ " with " ++ elements r.names.length) 0 .closed (itemTrees items) =
        .ok (a, []) := by
  simp only [Value.tree, Record.decoder, Source.enter, ok_bind, bind_eq_ok_iff]
  constructor
  · rintro ⟨⟨a', rest⟩, hdraw, _, hleave, ha⟩
    cases ha
    cases rest with
    | nil => exact hdraw
    | cons item rest => cases hleave
  · exact fun hdraw => ⟨(a, []), hdraw, (), rfl, rfl⟩

/-- Among members that were held before, those that are no fields are held again. -/
theorem fillHolding_held (draft : r.Draft) :
    r.fillHolding .held (memberTrees members) draft = r.fill .held (memberTrees members) draft := by
  induction members generalizing draft with
  | nil => rfl
  | cons member members ih =>
    obtain ⟨name, value⟩ := member
    by_cases hname : name ∈ r.names
    · rw [fill_cons_of_mem hname]
      simp only [memberTrees, fillHolding, Leaf.name, ok_bind, if_pos hname]
      cases r.accept .held name value.tree draft with
      | error e => rfl
      | ok draft => exact ih draft
    · have hhold : value.tree.hold .held = .ok () := rfl
      rw [fill_cons_of_not_mem hname]
      simp only [memberTrees, fillHolding, Leaf.name, ok_bind, if_neg hname, hhold]
      exact ih draft

/-- The members that are no fields of the record. -/
theorem others_memberTrees :
    r.others (memberTrees members) =
      memberTrees (members.filter fun member => !(member.1 ∈ r.names)) := by
  rw [memberTrees_eq_map, memberTrees_eq_map, Record.others, List.filter_map]
  rfl

/-- A record whose object also holds the members of something else is decoded from an object whose
members fill in both. -/
theorem decoderWith_held_iff {what : String} {rest : List Member → Except DecodeError β} :
    r.decoderWith what rest .held (Value.obj members).tree = .ok (a, b) ↔
      r.ofMembers .held (memberTrees members) .closed = .ok a ∧
        rest (memberTrees (members.filter fun member => !(member.1 ∈ r.names))) = .ok b := by
  simp only [Value.tree, Record.decoderWith, Source.enter, ok_bind, fillHolding_held, others_memberTrees,
    ofMembers_eq_ok_iff, bind_eq_ok_iff]
  constructor
  · rintro ⟨draft, hfill, -, -, a', ha, b', hb, hpair⟩
    cases hpair
    exact ⟨⟨draft, hfill, ha⟩, hb⟩
  · rintro ⟨⟨draft, hfill, ha⟩, hb⟩
    exact ⟨draft, hfill, (), rfl, a, ha, b, hb, rfl⟩

end Record

/-! ## Tags -/

/-- A tag that has been found must not come again. -/
theorem findTag_some_iff {tag : String} {identify : Decoder ν} {kind : ν} {found : Option ν}
    (hroom : source.HasRoom (membersDepth members)) :
    findTag tag identify source (memberTrees members) (some kind) = .ok found ↔
      membersNamed tag members = [] ∧ found = some kind := by
  induction members with
  | nil => exact ⟨fun h => ⟨rfl, (Except.ok.inj h).symm⟩, fun h => congrArg Except.ok h.2.symm⟩
  | cons member members ih =>
    obtain ⟨name, value⟩ := member
    by_cases hname : name = tag
    · subst hname
      rw [membersNamed_cons_self]
      simp only [memberTrees, findTag, Leaf.name, ok_bind, if_true]
      exact iff_of_false (fun h => by cases h) fun h => List.cons_ne_nil _ _ h.1
    · have hhold : value.tree.hold source = .ok () :=
        Value.hold_tree (hroom.of_le (Nat.le_max_left _ _))
      rw [membersNamed_cons_of_ne hname]
      simp only [memberTrees, findTag, Leaf.name, ok_bind, if_neg hname, hhold]
      exact ih (hroom.of_le (Nat.le_max_right _ _))

/-- A tag is found in the only member of its name. -/
theorem findTag_none_iff {tag : String} {identify : Decoder ν} {kind : ν}
    (hroom : source.HasRoom (membersDepth members)) :
    findTag tag identify source (memberTrees members) none = .ok (some kind) ↔
      ∃ value, OnlyMember members tag value ∧ identify source value.tree = .ok kind := by
  induction members with
  | nil => exact ⟨fun h => (nomatch Except.ok.inj h), fun ⟨_, h, _⟩ => nomatch h⟩
  | cons member members ih =>
    obtain ⟨name, value⟩ := member
    have hrest : source.HasRoom (membersDepth members) := hroom.of_le (Nat.le_max_right _ _)
    by_cases hname : name = tag
    · subst hname
      simp only [onlyMember_cons_self_iff, memberTrees, findTag, Leaf.name, ok_bind, if_true,
        bind_eq_ok_iff, findTag_some_iff hrest]
      constructor
      · rintro ⟨kind', hvalue, hnone, heq⟩
        exact ⟨value, ⟨rfl, hnone⟩, Option.some.inj heq ▸ hvalue⟩
      · rintro ⟨_, ⟨rfl, hnone⟩, hvalue⟩
        exact ⟨kind, hvalue, hnone, rfl⟩
    · have hhold : value.tree.hold source = .ok () :=
        Value.hold_tree (hroom.of_le (Nat.le_max_left _ _))
      simp only [onlyMember_cons_of_ne_iff hname, memberTrees, findTag, Leaf.name, ok_bind, if_neg hname,
        hhold]
      exact ih hrest

/-- The members other than the tag. -/
theorem withoutTag_memberTrees {tag : String} :
    withoutTag tag (memberTrees members) =
      memberTrees (members.filter fun member => member.1 != tag) := by
  rw [memberTrees_eq_map, memberTrees_eq_map, withoutTag, List.filter_map]
  rfl

/-- A value told apart by a tag is decoded from an object with a single tag, as the tag says. -/
theorem tagged_obj_iff {tag what : String} {identify : Decoder ν} {content : ν → Decoder α} {a : α}
    (henter : source.enter = .ok inner) (hroom : inner.HasRoom (membersDepth members)) :
    tagged tag what identify content source (Value.obj members).tree = .ok a ↔
      ∃ label kind, OnlyMember members tag label ∧ identify inner label.tree = .ok kind ∧
        content kind .held (Value.obj (members.filter fun member => member.1 != tag)).tree = .ok a := by
  simp only [Value.tree, tagged, henter, ok_bind, bind_eq_ok_iff, withoutTag_memberTrees]
  constructor
  · rintro ⟨found, hfind, -, -, hfound⟩
    cases found with
    | none => cases hfound
    | some kind =>
      obtain ⟨label, honly, hlabel⟩ := (findTag_none_iff hroom).mp hfind
      exact ⟨label, kind, honly, hlabel, hfound⟩
  · rintro ⟨label, kind, honly, hlabel, hread⟩
    exact ⟨some kind, (findTag_none_iff hroom).mpr ⟨label, honly, hlabel⟩, (), rfl, hread⟩

end Json

end DaemonBridge
