import DaemonBridge.Proofs.Event.Description
import DaemonBridge.Proofs.Json.Meaning

/-!
# Which texts are events

Among the well-formed texts of objects, the decoder accepts exactly those that describe an event and whose
strings, those of members that do not matter included, pair all surrogates (`Event.decoded_iff_described`).
Neither the sequence of the members nor further members make a difference.

Well-formed is what the grammar of JSON allows, as long as no more than 127 containers stand inside each
other and no numeral is beyond all doubles.
-/

namespace DaemonBridge

open Json (Value OnlyMember membersNamed Blanks noBlanks StringItem NumeralText Writing MemberWritings)

namespace Event

/-- The tree of an object is decoded if its strings are Unicode and its members describe an event. -/
theorem decoder_tree_iff {members : MemberWritings} (hdepth : (Writing.obj members).depth ≤ 127)
    (hfit : members.NumbersFit) {event : Event} :
    decoder .document (Writing.obj members).tree = .ok event ↔
      members.AreUnicode ∧ event.DescribedBy members.values := by
  have hroom : Json.membersDepth members.values ≤ 126 := by
    rw [members.membersDepth_values]
    exact Nat.le_of_succ_le_succ hdepth
  have htree : members.AreUnicode → (Writing.obj members).tree = (Value.obj members.values).tree :=
    fun hunicode => (Writing.obj members).tree_eq hunicode hfit
  constructor
  · intro h
    have hfault : Json.membersFault? 126 members.trees = none :=
      Json.membersFault?_of_tagged (fun _ _ => Json.fault?_of_variant) h
    have hunicode := members.areUnicode_of_membersFault? 126 hfault
    rw [htree hunicode] at h
    exact ⟨hunicode, (decoder_obj_iff hroom).mp h⟩
  · rintro ⟨hunicode, hdescribed⟩
    rw [htree hunicode]
    exact (decoder_obj_iff hroom).mpr hdescribed

/-- The text of an object, with blanks around it. -/
def objectText (before : Blanks) (members : MemberWritings) (behind : Blanks) : List Char :=
  before.1 ++ (Writing.obj members).text ++ behind.1

/-- A text is decoded as its tree is. -/
theorem ofChars_objectText (before : Blanks) (members : MemberWritings) (behind : Blanks) :
    ofChars (objectText before members behind) = decoder .document (Writing.obj members).tree := by
  rw [ofChars, objectText, Json.Document.ofChars_writing _ _ (by simp), Json.Document.decode]
  cases decoder .document (Writing.obj members).tree <;> rfl

/-- Members that agree on the tag and the particulars of an event describe it alike. -/
theorem DescribedBy.of_perm {members others : List (String × Value)} {event : Event}
    (h : event.DescribedBy members)
    (hperm : ∀ name ∈ "type" :: event.kind.particulars,
      (membersNamed name members).Perm (membersNamed name others)) : event.DescribedBy others := by
  obtain ⟨⟨name, honly, hcalled⟩, hin⟩ := h
  exact ⟨⟨name, honly.of_perm (hperm _ List.mem_cons_self), hcalled⟩,
    hin.of_perm fun name hmem => hperm name (List.mem_cons_of_mem _ hmem)⟩

/-- A well-formed text of an object is decoded exactly if its strings are Unicode and its members describe
an event, which is then the one decoded. The integers among them are those written without a sign, a point
and an exponent. Of two such texts, one is decoded as the other is, if they hold the same members of the
names that matter. -/
theorem decoded_iff_described (before behind : Blanks) (members : MemberWritings)
    (hdepth : (Writing.obj members).depth ≤ 127) (hfit : members.NumbersFit) :
    (∀ event, ofChars (objectText before members behind) = .ok event ↔
      members.AreUnicode ∧ event.DescribedBy members.values) ∧
    (∀ w : Writing, w.NumbersFit → ∀ m : UInt64,
      w.value = .nat m ↔ ∃ n, w = .numeral n ∧ n.IsUnsigned m.toNat) ∧
    (members.AreUnicode → ∀ (before' behind' : Blanks) (others : MemberWritings),
      (Writing.obj others).depth ≤ 127 → others.NumbersFit → others.AreUnicode → ∀ event : Event,
      (∀ name ∈ "type" :: event.kind.particulars,
        (membersNamed name members.values).Perm (membersNamed name others.values)) →
      (ofChars (objectText before members behind) = .ok event ↔
        ofChars (objectText before' others behind') = .ok event)) := by
  refine ⟨fun event => ?_, fun w hw m => Writing.value_eq_nat_iff hw m, ?_⟩
  · rw [ofChars_objectText, decoder_tree_iff hdepth hfit]
  · intro hunicode before' behind' others hdepth' hfit' hunicode' event hperm
    rw [ofChars_objectText, ofChars_objectText, decoder_tree_iff hdepth hfit,
      decoder_tree_iff hdepth' hfit', and_iff_right hunicode, and_iff_right hunicode']
    exact ⟨fun h => h.of_perm hperm, fun h => h.of_perm fun name hmem => (hperm name hmem).symm⟩

/-! ## Some objects -/

/-- A string whose characters stand for themselves; others are left out. -/
def plainItems (s : String) : List StringItem :=
  s.toList.filterMap fun c =>
    if allowed : c ≠ '"' ∧ c ≠ '\\' ∧ 0x20 ≤ c.toNat then some (.plain c allowed) else none

/-- Members written without blanks. -/
def membersOf (members : List (String × Writing)) : MemberWritings :=
  members.foldr (fun member rest =>
    .cons noBlanks (plainItems member.1) noBlanks noBlanks member.2 noBlanks rest) (.nil noBlanks)

/-- The first half of a pair. -/
def highUnit : StringItem :=
  .unit ⟨'d', by decide⟩ ⟨'8', by decide⟩ ⟨'3', by decide⟩ ⟨'D', by decide⟩

/-- The second half of a pair. -/
def lowUnit : StringItem :=
  .unit ⟨'d', by decide⟩ ⟨'e', by decide⟩ ⟨'0', by decide⟩ ⟨'0', by decide⟩

/-- The number seven. -/
def seven : NumeralText := ⟨false, 7, [], nofun, none, none⟩

/-- Zero with a minus. -/
def minusZero : NumeralText := ⟨true, 0, [], fun _ => rfl, none, none⟩

/-- An answer, its tag in the midst of its members, with a further member of a later version. -/
def answerMembers : MemberWritings :=
  membersOf [("code", .string (plainItems "0")), ("later", .string [highUnit, lowUnit]),
    ("message_id", .numeral seven), ("type", .string (plainItems "daemon_response")),
    ("pan_user", .string (plainItems "a")), ("message", .string (plainItems "ok"))]

/-- The same answer without the further member, its tag first. -/
def answerMembersAlone : MemberWritings :=
  membersOf [("type", .string (plainItems "daemon_response")), ("message", .string (plainItems "ok")),
    ("pan_user", .string (plainItems "a")), ("code", .string (plainItems "0")),
    ("message_id", .numeral seven)]

/-- The two objects are decoded as the answer, the second because it agrees with the first. -/
theorem decoded_iff_described_answer :
    (Writing.obj answerMembers).depth ≤ 127 ∧ answerMembers.NumbersFit ∧
      (∃ n, Writing.numeral seven = .numeral n ∧ n.IsUnsigned 7) ∧
      ofChars (objectText noBlanks answerMembers noBlanks) = .ok (.answered ⟨7, "a", "0", "ok"⟩) ∧
      ofChars (objectText noBlanks answerMembersAlone noBlanks) = .ok (.answered ⟨7, "a", "0", "ok"⟩) := by
  have hdepth : (Writing.obj answerMembers).depth ≤ 127 := by decide
  have hfit : answerMembers.NumbersFit := ⟨trivial, trivial, rfl, trivial, trivial, trivial, trivial⟩
  have hcalled : EventKind.CalledBy EventKind.answered.tag .answered := .known (by decide)
  have hunicode : answerMembers.AreUnicode :=
    ⟨rfl, rfl, rfl, rfl, rfl, trivial, rfl, rfl, rfl, rfl, rfl, rfl, trivial⟩
  have hunicode' : answerMembersAlone.AreUnicode :=
    ⟨rfl, rfl, rfl, rfl, rfl, rfl, rfl, rfl, rfl, trivial, trivial⟩
  have hfit' : answerMembersAlone.NumbersFit := ⟨trivial, trivial, trivial, trivial, rfl, trivial⟩
  obtain ⟨hdecoded, hinteger, hagree⟩ :=
    decoded_iff_described noBlanks noBlanks answerMembers hdepth hfit
  have hfirst : ofChars (objectText noBlanks answerMembers noBlanks) =
      .ok (.answered ⟨7, "a", "0", "ok"⟩) :=
    (hdecoded _).mpr ⟨hunicode, ⟨_, rfl, hcalled⟩, ⟨rfl, rfl, rfl, rfl⟩⟩
  have hsame : ∀ name ∈ ["type", "message_id", "pan_user", "code", "message"], ∃ value,
      OnlyMember answerMembers.values name value ∧ OnlyMember answerMembersAlone.values name value := by
    intro name hname
    simp only [List.mem_cons, List.not_mem_nil, or_false] at hname
    obtain rfl | rfl | rfl | rfl | rfl := hname <;> exact ⟨_, rfl, rfl⟩
  refine ⟨hdepth, hfit, (hinteger (.numeral seven) rfl 7).mp rfl, hfirst,
    (hagree hunicode noBlanks noBlanks answerMembersAlone (by decide) hfit' hunicode' _ ?_).mp hfirst⟩
  intro name hname
  obtain ⟨value, honly, honly'⟩ := hsame name hname
  exact .of_eq (honly.trans honly'.symm)

/-- The object with the only tag `update_users` and half of a pair in a further member. -/
def loneMembers : MemberWritings :=
  membersOf [("a", .string [highUnit]), ("type", .string (plainItems "update_users"))]

/-- An answer to the request zero, written with a minus. -/
def minusZeroMembers : MemberWritings :=
  membersOf [("type", .string (plainItems "daemon_response")), ("message_id", .numeral minusZero),
    ("pan_user", .string (plainItems "a")), ("code", .string (plainItems "0")),
    ("message", .string (plainItems "ok"))]

/-- It is not enough that a single tag names a kind without particulars, since half of a pair in a member
that does not matter is met while that member is kept; nor that an integer is not below zero, since zero
with a minus is a double. -/
theorem exists_described_not_decoded :
    ((Writing.obj loneMembers).text = "\x7b\"a\":\"\\ud83D\",\"type\":\"update_users\"\x7d".toList ∧
      (Writing.obj loneMembers).depth ≤ 127 ∧ loneMembers.NumbersFit ∧
      Event.usersChanged.DescribedBy loneMembers.values ∧
      ∀ event, ofChars (objectText noBlanks loneMembers noBlanks) ≠ .ok event) ∧
    ((Writing.numeral minusZero).text = ['-', '0'] ∧
      (Writing.obj minusZeroMembers).depth ≤ 127 ∧ minusZeroMembers.NumbersFit ∧
      (∀ name ∈ ["pan_user", "code", "message"], ∃ s, OnlyMember minusZeroMembers.values name (.str s)) ∧
      OnlyMember minusZeroMembers.values "message_id" (Writing.numeral minusZero).value ∧
      OnlyMember minusZeroMembers.values "type" (.str EventKind.answered.tag) ∧
      ∀ event, ofChars (objectText noBlanks minusZeroMembers noBlanks) ≠ .ok event) := by
  have hrefused : ∀ members : MemberWritings, (ofChars (objectText noBlanks members noBlanks)).toBool = false →
      ∀ event, ofChars (objectText noBlanks members noBlanks) ≠ .ok event := by
    intro members h event hok
    rw [hok] at h
    exact nomatch h
  have hcalled : EventKind.CalledBy EventKind.usersChanged.tag .usersChanged := .known (by decide)
  refine ⟨⟨by decide +kernel, by decide, ⟨trivial, trivial, trivial⟩, ⟨⟨_, rfl, hcalled⟩, trivial⟩,
      hrefused loneMembers (by decide +kernel)⟩,
    rfl, by decide, ⟨trivial, rfl, trivial, trivial, trivial, trivial⟩, ?_, rfl, rfl,
      hrefused minusZeroMembers (by decide +kernel)⟩
  intro name hname
  simp only [List.mem_cons, List.not_mem_nil, or_false] at hname
  obtain rfl | rfl | rfl := hname <;> exact ⟨_, rfl⟩

end Event

end DaemonBridge
