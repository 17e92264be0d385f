import DaemonBridge.Proofs.Json.Decoding

/-!
# Decoding written objects

A record reads the members of a written object (`Record.Reads`). The laws follow the way in which
records are put together: a field reads a single member, two records side by side read the members of
the first and then those of the second, and a tag is found in front of the members it is about. A
decoder for a new kind of value is read off from them.
-/

namespace DaemonBridge

namespace Json

variable {α β : Type}

/-! ## Records -/

namespace Record

/-- The members of a written object, all of them fields of the record, are read as a value. -/
structure Reads (r : Record α) (source : Source) (members : List (String × Value)) (a : α) : Prop where
  known : ∀ member ∈ members, member.1 ∈ r.names
  filled : ∃ draft, r.fill source (memberTrees members) r.blank = .ok draft ∧ r.build draft = .ok a

variable {r : Record α} {s : Record β} {source inner : Source} {a : α} {b : β}
  {members others : List (String × Value)}

/-- Members in two parts are filled in part by part. -/
theorem fill_append (r : Record α) (source : Source) (ms ns : List Member) (draft : r.Draft) :
    r.fill source (ms ++ ns) draft = (r.fill source ms draft).bind (r.fill source ns) := by
  induction ms generalizing draft with
  | nil => rfl
  | cons m ms ih =>
    obtain ⟨key, value⟩ := m
    simp only [List.cons_append, fill]
    cases key.name with
    | error e => rfl
    | ok name =>
      simp only [ok_bind]
      split
      · cases r.accept source name value draft with
        | error e => rfl
        | ok draft => exact ih draft
      · cases value.pass with
        | error e => rfl
        | ok _ => exact ih draft

/-- The trees of members in two parts. -/
theorem memberTrees_append (ms ns : List (String × Value)) :
    memberTrees (ms ++ ns) = memberTrees ms ++ memberTrees ns := by
  rw [memberTrees_eq_map, List.map_append, ← memberTrees_eq_map, ← memberTrees_eq_map]

/-- A field that is there is read from a single member, whatever its absence would mean. -/
theorem reads_fieldOr (absent : Option α) {name : String} {decoder : Decoder α} {v : Value}
    (h : decoder source v.tree = .ok a) :
    (fieldOr absent name decoder).Reads source [(name, v)] a where
  known member hmem := by
    rw [List.mem_singleton.mp hmem]
    exact List.mem_singleton_self name
  filled := by
    refine ⟨some a, ?_, rfl⟩
    have hname : name ∈ (fieldOr absent name decoder).names := List.mem_singleton_self name
    have haccept : (fieldOr absent name decoder).accept source name v.tree
        (fieldOr absent name decoder).blank = .ok (some a) := by
      show (decoder source v.tree).map some = .ok (some a)
      rw [h]
      rfl
    simp only [memberTrees, fill, Leaf.name, ok_bind, if_pos hname, haccept]
    rfl

/-- A field that must be there reads a single member. -/
theorem reads_field {name : String} {decoder : Decoder α} {v : Value}
    (h : decoder source v.tree = .ok a) : (field name decoder).Reads source [(name, v)] a :=
  reads_fieldOr none h

/-- An optional field that is left out is read as its absence. -/
theorem reads_absent (absent : α) (name : String) (decoder : Decoder α) :
    (optional absent name decoder).Reads source [] absent :=
  ⟨nofun, none, rfl, rfl⟩

/-- Members are read as one value only. -/
theorem Reads.unique {a' : α} (h : r.Reads source members a) (h' : r.Reads source members a') : a = a' := by
  obtain ⟨draft, hfill, hbuild⟩ := h.filled
  obtain ⟨draft', hfill', hbuild'⟩ := h'.filled
  cases hfill.symm.trans hfill'
  exact Except.ok.inj (hbuild.symm.trans hbuild')

/-- A record is filled in alike, however it is put together in the end. -/
theorem fill_map (r : Record α) (f : α → β) (source : Source) (ms : List Member) :
    (r.map f).fill source ms = r.fill source ms := by
  induction ms with
  | nil => rfl
  | cons m ms ih =>
    have hstep : (r.map f).fill source (m :: ms) = fun draft : r.Draft =>
        m.1.name >>= fun name =>
          if name ∈ r.names then r.accept source name m.2 draft >>= (r.map f).fill source ms
          else m.2.pass >>= fun _ => (r.map f).fill source ms draft := rfl
    rw [hstep, ih]
    rfl

/-- What a record reads, it also reads when it is put together otherwise. -/
theorem Reads.map (h : r.Reads source members a) (f : α → β) :
    (r.map f).Reads source members (f a) where
  known := h.known
  filled := by
    obtain ⟨draft, hfill, hbuild⟩ := h.filled
    refine ⟨draft, (congrFun (fill_map r f source _) _).trans hfill, ?_⟩
    show (r.build draft).map f = .ok (f a)
    rw [hbuild]
    rfl

/-- Members of the first of two records leave the second one's fields alone. -/
theorem fill_and_left {ms : List (String × Value)} (hknown : ∀ m ∈ ms, m.1 ∈ r.names)
    (d : r.Draft) (e : s.Draft) :
    (r.and s).fill source (memberTrees ms) (d, e) =
      (r.fill source (memberTrees ms) d).map fun d => (d, e) := by
  induction ms generalizing d with
  | nil => rfl
  | cons m ms ih =>
    obtain ⟨name, value⟩ := m
    have hname : name ∈ r.names := hknown _ List.mem_cons_self
    have hboth : name ∈ (r.and s).names := List.mem_append_left _ hname
    have haccept : (r.and s).accept source name value.tree (d, e) =
        (r.accept source name value.tree d).map fun d => (d, e) := if_pos hname
    simp only [memberTrees, fill, Leaf.name, ok_bind, if_pos hname, if_pos hboth, haccept]
    cases r.accept source name value.tree d with
    | error e => rfl
    | ok d => exact ih (fun m hmem => hknown m (List.mem_cons_of_mem _ hmem)) d

/-- Members of the second of two records that the first does not know leave its fields alone. -/
theorem fill_and_right {ms : List (String × Value)} (hknown : ∀ m ∈ ms, m.1 ∈ s.names)
    (hnew : ∀ name ∈ s.names, name ∉ r.names) (d : r.Draft) (e : s.Draft) :
    (r.and s).fill source (memberTrees ms) (d, e) =
      (s.fill source (memberTrees ms) e).map fun e => (d, e) := by
  induction ms generalizing e with
  | nil => rfl
  | cons m ms ih =>
    obtain ⟨name, value⟩ := m
    have hname : name ∈ s.names := hknown _ List.mem_cons_self
    have hboth : name ∈ (r.and s).names := List.mem_append_right _ hname
    have haccept : (r.and s).accept source name value.tree (d, e) =
        (s.accept source name value.tree e).map fun e => (d, e) := if_neg (hnew name hname)
    simp only [memberTrees, fill, Leaf.name, ok_bind, if_pos hname, if_pos hboth, haccept]
    cases s.accept source name value.tree e with
    | error e => rfl
    | ok e => exact ih (fun m hmem => hknown m (List.mem_cons_of_mem _ hmem)) e

/-- Two records side by side are each put together from their own fields. -/
theorem build_and {d : r.Draft} {e : s.Draft} (ha : r.build d = .ok a) (hb : s.build e = .ok b) :
    (r.and s).build (d, e) = .ok (a, b) := by
  show (do
    let a ← r.build d
    let b ← s.build e
    return (a, b)) = Except.ok (a, b)
  rw [ha, hb]
  rfl

/-- Two records without a common field read the members of the first and then those of the second. -/
theorem Reads.and (hr : r.Reads source members a) (hs : s.Reads source others b)
    (hnew : ∀ name ∈ s.names, name ∉ r.names) :
    (r.and s).Reads source (members ++ others) (a, b) where
  known member hmem := by
    rcases List.mem_append.mp hmem with hmem | hmem
    · exact List.mem_append_left _ (hr.known member hmem)
    · exact List.mem_append_right _ (hs.known member hmem)
  filled := by
    obtain ⟨d, hd, ha⟩ := hr.filled
    obtain ⟨e, he, hb⟩ := hs.filled
    refine ⟨(d, e), ?_, ?_⟩
    · have hblank : (r.and s).blank = (r.blank, s.blank) := rfl
      rw [memberTrees_append, fill_append, hblank, fill_and_left hr.known, hd]
      show (r.and s).fill source (memberTrees others) (d, s.blank) = _
      rw [fill_and_right hs.known hnew, he]
      rfl
    · exact build_and ha hb

/-- The members of the second may also stand in front of those of the first. -/
theorem Reads.and_swapped (hr : r.Reads source members a) (hs : s.Reads source others b)
    (hnew : ∀ name ∈ s.names, name ∉ r.names) : (r.and s).Reads source (others ++ members) (a, b) where
  known member hmem := by
    rcases List.mem_append.mp hmem with hmem | hmem
    · exact List.mem_append_right _ (hs.known member hmem)
    · exact List.mem_append_left _ (hr.known member hmem)
  filled := by
    obtain ⟨d, hd, ha⟩ := hr.filled
    obtain ⟨e, he, hb⟩ := hs.filled
    refine ⟨(d, e), ?_, ?_⟩
    · have hblank : (r.and s).blank = (r.blank, s.blank) := rfl
      rw [memberTrees_append, fill_append, hblank, fill_and_right hs.known hnew, he]
      show (r.and s).fill source (memberTrees members) (r.blank, e) = _
      rw [fill_and_left hr.known, hd]
      rfl
    · exact build_and ha hb

/-- A written object is read back, if its members are. -/
theorem Reads.decoder (h : r.Reads inner members a) (henter : source.enter = .ok inner) (what : String) :
    r.decoder what source (Value.obj members).tree = .ok a := by
  obtain ⟨draft, hfill, hbuild⟩ := h.filled
  simp only [Value.tree, Record.decoder, ofMembers, henter, hfill, ok_bind]
  exact hbuild

/-- Known members in front of unknown ones are filled in, and the unknown ones are held. -/
theorem fillHolding_append (hknown : ∀ m ∈ members, m.1 ∈ r.names) (hother : ∀ m ∈ others, m.1 ∉ r.names)
    (hroom : source.HasRoom (membersDepth others)) (draft : r.Draft) :
    r.fillHolding source (memberTrees (members ++ others)) draft =
      r.fill source (memberTrees members) draft := by
  induction members generalizing draft with
  | nil =>
    rw [List.nil_append]
    induction others with
    | nil => rfl
    | cons m others ih =>
      obtain ⟨name, value⟩ := m
      have hname : name ∉ r.names := hother _ List.mem_cons_self
      have hhold : value.tree.hold source = .ok () :=
        Value.hold_tree (hroom.of_le (Nat.le_max_left _ _))
      simp only [memberTrees, fillHolding, Leaf.name, ok_bind, if_neg hname, hhold]
      exact ih (fun m hmem => hother m (List.mem_cons_of_mem _ hmem))
        (hroom.of_le (Nat.le_max_right _ _))
  | cons m members ih =>
    obtain ⟨name, value⟩ := m
    have hname : name ∈ r.names := hknown _ List.mem_cons_self
    simp only [List.cons_append, memberTrees, fillHolding, fill, Leaf.name, ok_bind, if_pos hname]
    cases r.accept source name value.tree draft with
    | error e => rfl
    | ok draft => exact ih (fun m hmem => hknown m (List.mem_cons_of_mem _ hmem)) draft

/-- The members that are not fields of the record are those behind its fields. -/
theorem others_append (hknown : ∀ m ∈ members, m.1 ∈ r.names) (hother : ∀ m ∈ others, m.1 ∉ r.names) :
    r.others (memberTrees (members ++ others)) = memberTrees others := by
  rw [memberTrees_append, Record.others, List.filter_append, List.filter_eq_nil_iff.mpr,
    List.filter_eq_self.mpr, List.nil_append]
  · rw [memberTrees_eq_map]
    intro member hmem
    obtain ⟨m, hm, rfl⟩ := List.mem_map.mp hmem
    simp [hother m hm]
  · rw [memberTrees_eq_map]
    intro member hmem
    obtain ⟨m, hm, rfl⟩ := List.mem_map.mp hmem
    simp [hknown m hm]

/-- A written object with further members behind a record's is read back, if both are. -/
theorem Reads.decoderWith (h : r.Reads inner members a) (henter : source.enter = .ok inner)
    (hother : ∀ m ∈ others, m.1 ∉ r.names) (hroom : inner.HasRoom (membersDepth others))
    {rest : List Member → Except DecodeError β} (hrest : rest (memberTrees others) = .ok b)
    (what : String) :
    r.decoderWith what rest source (Value.obj (members ++ others)).tree = .ok (a, b) := by
  obtain ⟨draft, hfill, hbuild⟩ := h.filled
  have hheld : r.fillHolding inner (memberTrees (members ++ others)) r.blank = .ok draft :=
    (fillHolding_append h.known hother hroom r.blank).trans hfill
  simp only [Value.tree, Record.decoderWith, henter, hheld, others_append h.known hother, hrest, hbuild,
    ok_bind]
  rfl

end Record

/-! ## Tags -/

section Tags

variable {ν : Type} {source inner : Source} {members : List (String × Value)}

/-- Behind the tag there is no other. -/
theorem findTag_memberTrees {tag : String} (identify : Decoder ν) (found : Option ν)
    (hother : ∀ m ∈ members, m.1 ≠ tag) (hroom : source.HasRoom (membersDepth members)) :
    findTag tag identify source (memberTrees members) found = .ok found := by
  induction members with
  | nil => rfl
  | cons m members ih =>
    obtain ⟨name, value⟩ := m
    have hname : name ≠ tag := hother _ List.mem_cons_self
    have hhold : value.tree.hold source = .ok () :=
      Value.hold_tree (hroom.of_le (Nat.le_max_left _ _))
    simp only [memberTrees, findTag, Leaf.name, ok_bind, if_neg hname, hhold]
    exact ih (fun m hmem => hother m (List.mem_cons_of_mem _ hmem)) (hroom.of_le (Nat.le_max_right _ _))

/-- The members other than the tag are those behind it. -/
theorem withoutTag_cons {tag : String} (value : Tree) (hother : ∀ m ∈ members, m.1 ≠ tag) :
    withoutTag tag ((.str tag, value) :: memberTrees members) = memberTrees members := by
  have hall : withoutTag tag (memberTrees members) = memberTrees members := by
    rw [withoutTag, List.filter_eq_self, memberTrees_eq_map]
    intro member hmem
    obtain ⟨m, hm, rfl⟩ := List.mem_map.mp hmem
    simp [hother m hm]
  rw [withoutTag, List.filter_cons_of_neg (by simp)]
  exact hall

/-- A written object with its tag in front is read as the tag says. -/
theorem tagged_tree {tag : String} {identify : Decoder ν} {kind : ν} {label : Value} (what : String)
    (content : ν → Decoder α) (henter : source.enter = .ok inner)
    (hlabel : identify inner label.tree = .ok kind) (hother : ∀ m ∈ members, m.1 ≠ tag)
    (hroom : inner.HasRoom (membersDepth members)) :
    tagged tag what identify content source (Value.obj ((tag, label) :: members)).tree =
      content kind .held (Value.obj members).tree := by
  have hfind : findTag tag identify inner (memberTrees ((tag, label) :: members)) none =
      .ok (some kind) := by
    simp only [memberTrees, findTag, Leaf.name, ok_bind, if_true, hlabel]
    exact findTag_memberTrees identify (some kind) hother hroom
  simp only [Value.tree, tagged, henter, ok_bind, hfind]
  simp only [memberTrees, withoutTag_cons _ hother]
  rfl

end Tags

/-! ## Dictionaries -/

/-- A written dictionary is read back, if its values are. -/
theorem dict_tree {decoder : Decoder α} {write : α → Value} {source inner : Source}
    (henter : source.enter = .ok inner) (d : Dict α)
    (h : ∀ a, decoder inner (write a).tree = .ok a) :
    dict decoder source (Value.obj (d.entries.map fun entry => (entry.1, write entry.2))).tree =
      .ok d := by
  have htrees : memberTrees (d.entries.map fun entry => (entry.1, write entry.2)) =
      d.entries.map fun entry => (.str entry.1, (write entry.2).tree) := by
    rw [memberTrees_eq_map, List.map_map]
    rfl
  have hentries : (d.entries.map fun entry => (Leaf.str entry.1, (write entry.2).tree)).mapM
      (fun member => do
        let name ← member.1.name
        let value ← decoder inner member.2
        return (name, value)) = .ok (d.entries.map id) := by
    apply mapM_map_eq_ok d.entries
    intro entry _
    simp only [Leaf.name, ok_bind, h]
    rfl
  rw [List.map_id] at hentries
  simp only [Value.tree, dict, henter, ok_bind, htrees, hentries]
  exact congrArg Except.ok (Dict.ofList_entries d)

end Json

end DaemonBridge
