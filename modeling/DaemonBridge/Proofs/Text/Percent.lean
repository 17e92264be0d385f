import DaemonBridge.Text.Percent
import Mathlib.Data.List.TakeWhile
import Mathlib.Tactic.IntervalCases

/-!
# Query strings

A text in percent encoding is read back as the text, whatever characters it has, and contains nothing
that cuts a query or ends it. So the fields of a query are read back as they were written.
-/

namespace DaemonBridge.Text

/-! ## Values -/

/-- The byte neither ends a query nor separates its fields or a name from its value. -/
structure IsValueByte (b : UInt8) : Prop where
  ne_hash : b ≠ 0x23
  ne_ampersand : b ≠ 0x26
  ne_equals : b ≠ 0x3d

/-- A hexadecimal digit is encoded as one byte, which has its value. -/
theorem exists_encodeChar_upperHexDigit {n : Nat} (h : n < 16) :
    ∃ b : UInt8, String.utf8EncodeChar (upperHexDigit n) = [b] ∧ hexByteValue? b = some n ∧
      IsValueByte b := by
  interval_cases n <;> exact ⟨_, rfl, rfl, ⟨by decide, by decide, by decide⟩⟩

/-- An unreserved byte is the one byte of a character, and means nothing but itself. -/
theorem encodeChar_of_isUnreserved {b : UInt8} (h : isUnreserved b = true) :
    String.utf8EncodeChar (Char.ofUInt8 b) = [b] ∧ b ≠ 0x2b ∧ b ≠ 0x25 ∧
      b ≠ 0x23 ∧ b ≠ 0x26 ∧ b ≠ 0x3d := by
  have hall : ∀ n : Fin 256, isUnreserved (UInt8.ofNat n) = true →
      String.utf8EncodeChar (Char.ofUInt8 (UInt8.ofNat n)) = [UInt8.ofNat n] ∧
        UInt8.ofNat n ≠ 0x2b ∧ UInt8.ofNat n ≠ 0x25 ∧ UInt8.ofNat n ≠ 0x23 ∧ UInt8.ofNat n ≠ 0x26 ∧
        UInt8.ofNat n ≠ 0x3d := by decide +kernel
  have hb := hall ⟨b.toNat, b.toNat_lt⟩
  rw [UInt8.ofNat_toNat] at hb
  exact hb h

/-- A byte in percent encoding is encoded as itself, or as a percent sign and two digits. -/
theorem encode_percentByte (b : UInt8) :
    (encode (percentByte b) = [b] ∧ b ≠ 0x2b ∧ b ≠ 0x25 ∧ IsValueByte b) ∨
    ∃ high low, encode (percentByte b) = [0x25, high, low] ∧
      hexByteValue? high = some (b.toNat / 16) ∧ hexByteValue? low = some (b.toNat % 16) ∧
      IsValueByte high ∧ IsValueByte low := by
  unfold percentByte
  split
  · next hunreserved =>
    obtain ⟨hbyte, hplus, hpercent, hhash, hampersand, hequals⟩ := encodeChar_of_isUnreserved hunreserved
    refine .inl ⟨?_, hplus, hpercent, ⟨hhash, hampersand, hequals⟩⟩
    rw [encode, List.flatMap_singleton, hbyte]
  · have hlt := b.toNat_lt
    obtain ⟨high, hhigh, hhighValue, hhighByte⟩ :=
      exists_encodeChar_upperHexDigit (show b.toNat / 16 < 16 by omega)
    obtain ⟨low, hlow, hlowValue, hlowByte⟩ :=
      exists_encodeChar_upperHexDigit (show b.toNat % 16 < 16 by omega)
    refine .inr ⟨high, low, ?_, hhighValue, hlowValue, hhighByte, hlowByte⟩
    have hsign : String.utf8EncodeChar '%' = [0x25] := rfl
    rw [encode, List.flatMap_cons, List.flatMap_cons, List.flatMap_singleton, hsign, hhigh, hlow]
    rfl

/-- A byte in percent encoding is read back as the byte. -/
theorem formBytes_percentByte_append (b : UInt8) (rest : List UInt8) :
    formBytes (encode (percentByte b) ++ rest) = b :: formBytes rest := by
  rcases encode_percentByte b with ⟨hencode, hplus, hpercent, -⟩ | ⟨high, low, hencode, hhigh, hlow, -⟩
  · rw [hencode, List.singleton_append, formBytes.eq_def]
    split
    · next heq => cases heq
    · next heq => exact absurd (List.cons.inj heq).1 hplus
    · next heq => exact absurd (List.cons.inj heq).1 hpercent
    · next heq =>
      obtain ⟨rfl, rfl⟩ := List.cons.inj heq
      rfl
  · have hvalue : 16 * (b.toNat / 16) + b.toNat % 16 = b.toNat := by omega
    rw [hencode]
    simp only [List.cons_append, List.nil_append, formBytes, hhigh, hlow, hvalue, UInt8.ofNat_toNat]

/-- Bytes in percent encoding are read back as the bytes. -/
theorem formBytes_percentBytes (bytes : List UInt8) :
    formBytes (encode (bytes.flatMap percentByte)) = bytes := by
  induction bytes with
  | nil => rfl
  | cons b bytes ih =>
    rw [List.flatMap_cons, encode, List.flatMap_append, ← encode, ← encode,
      formBytes_percentByte_append, ih]

/-- A text in percent encoding is read back as the text. -/
theorem formDecode_percentEncode (text : List Char) : formDecode (encode (percentEncode text)) = text := by
  rw [formDecode, percentEncode, formBytes_percentBytes, decodeLossy, pieces_encode, List.map_map]
  exact List.map_id text

/-- A text in percent encoding has no byte that cuts a query. -/
theorem isValueByte_of_mem_percentEncode {text : List Char} {b : UInt8}
    (h : b ∈ encode (percentEncode text)) : IsValueByte b := by
  rw [encode, percentEncode, List.flatMap_assoc] at h
  obtain ⟨byte, -, hmem⟩ := List.mem_flatMap.mp h
  change b ∈ encode (percentByte byte) at hmem
  rcases encode_percentByte byte with ⟨hencode, -, -, hbyte⟩ | ⟨high, low, hencode, -, -, hhigh, hlow⟩
  · rw [hencode, List.mem_singleton] at hmem
    exact hmem ▸ hbyte
  · rw [hencode, List.mem_cons, List.mem_cons, List.mem_singleton] at hmem
    rcases hmem with rfl | rfl | rfl
    · exact ⟨by decide, by decide, by decide⟩
    · exact hhigh
    · exact hlow

/-- Unreserved characters are written as themselves. -/
theorem percentEncode_of_isUnreserved {text : List Char}
    (h : ∀ c ∈ text, ∃ b, String.utf8EncodeChar c = [b] ∧ percentByte b = [c]) :
    percentEncode text = text := by
  induction text with
  | nil => rfl
  | cons c text ih =>
    obtain ⟨b, hencode, hbyte⟩ := h c List.mem_cons_self
    have hrest := ih fun d hmem => h d (List.mem_cons_of_mem c hmem)
    rw [percentEncode, encode, List.flatMap_cons, hencode, ← encode, List.singleton_append,
      List.flatMap_cons, hbyte, ← percentEncode, hrest, List.singleton_append]

/-- A number is written as its digits. -/
theorem percentEncode_decimal (n : Nat) : percentEncode (decimal n) = decimal n := by
  refine percentEncode_of_isUnreserved fun c hmem => ?_
  have hdigit := isDigit_of_mem_decimal hmem
  have hlow : 48 ≤ c.toNat := (Char.isDigit_iff_toNat.mp hdigit).1
  have hhigh : c.toNat ≤ 57 := (Char.isDigit_iff_toNat.mp hdigit).2
  have hc : c = Char.ofNat c.toNat := (Char.ofNat_toNat c).symm
  generalize c.toNat = n at hlow hhigh hc
  subst hc
  interval_cases n <;> exact ⟨_, rfl, rfl⟩

/-! ## Fields -/

/-- Without a separator there is nothing to cut. -/
theorem splitAll_of_not_mem {α : Type} [BEq α] [LawfulBEq α] {separator : α} {l : List α}
    (h : separator ∉ l) : splitAll separator l = [l] := by
  induction l with
  | nil => rfl
  | cons a l ih =>
    have ha : (a == separator) = false := beq_false_of_ne fun heq => h (heq ▸ List.mem_cons_self)
    have hl := ih fun hmem => h (List.mem_cons_of_mem _ hmem)
    simp only [splitAll, ha, hl, Bool.false_eq_true, if_false]

/-- A list is cut at its first separator, and the rest as before. -/
theorem splitAll_append {α : Type} [BEq α] [LawfulBEq α] {separator : α} {l : List α}
    (h : separator ∉ l) (rest : List α) :
    splitAll separator (l ++ separator :: rest) = l :: splitAll separator rest := by
  induction l with
  | nil => simp only [List.nil_append, splitAll, beq_self_eq_true, if_true]
  | cons a l ih =>
    have ha : (a == separator) = false := beq_false_of_ne fun heq => h (heq ▸ List.mem_cons_self)
    have hl := ih fun hmem => h (List.mem_cons_of_mem _ hmem)
    simp only [List.cons_append, splitAll, ha, hl, Bool.false_eq_true, if_false]

/-- The first separator stands between its two sides. -/
theorem splitFirst_append {α : Type} [BEq α] [LawfulBEq α] {separator : α} {l : List α}
    (h : separator ∉ l) (rest : List α) : splitFirst separator (l ++ separator :: rest) = (l, rest) := by
  have hall : ∀ a ∈ l, (!(a == separator)) = true := by
    intro a hmem
    have hne : a ≠ separator := fun heq => h (by rw [← heq]; exact hmem)
    rw [beq_false_of_ne hne]
    rfl
  have hstop : (!(separator == separator)) = false := by rw [beq_self_eq_true]; rfl
  rw [splitFirst, List.takeWhile_append_of_pos hall, List.dropWhile_append_of_pos hall,
    List.takeWhile_cons_of_neg (by rw [hstop]; decide),
    List.dropWhile_cons_of_neg (by rw [hstop]; decide),
    List.append_nil, List.drop_succ_cons, List.drop_zero]

/-- A field of a query. -/
def fieldText (field : List Char × List Char) : List Char :=
  percentEncode field.1 ++ '=' :: percentEncode field.2

/-- A query with some fields. -/
def queryText : List (List Char × List Char) → List Char
  | [] => []
  | [field] => fieldText field
  | field :: rest => fieldText field ++ '&' :: queryText rest

/-- A field is the bytes of its name and its value with an equals sign between them. -/
theorem encode_fieldText (field : List Char × List Char) :
    encode (fieldText field) =
      encode (percentEncode field.1) ++ 0x3d :: encode (percentEncode field.2) := by
  rw [fieldText, encode, List.flatMap_append]
  rfl

/-- A field has no byte that ends a query or a field. -/
theorem not_mem_encode_fieldText (field : List Char × List Char) {b : UInt8}
    (h : b ∈ encode (fieldText field)) : b ≠ 0x23 ∧ b ≠ 0x26 := by
  rw [encode_fieldText, List.mem_append, List.mem_cons] at h
  rcases h with hname | rfl | hvalue
  · have hbyte := isValueByte_of_mem_percentEncode hname
    exact ⟨hbyte.ne_hash, hbyte.ne_ampersand⟩
  · decide
  · have hbyte := isValueByte_of_mem_percentEncode hvalue
    exact ⟨hbyte.ne_hash, hbyte.ne_ampersand⟩

/-- A query does not end early. -/
theorem hash_not_mem_encode_queryText (fields : List (List Char × List Char)) :
    (0x23 : UInt8) ∉ encode (queryText fields) := by
  induction fields with
  | nil => exact List.not_mem_nil
  | cons field rest ih =>
    have hfield : (0x23 : UInt8) ∉ encode (fieldText field) := fun hmem =>
      (not_mem_encode_fieldText field hmem).1 rfl
    cases rest with
    | nil => exact hfield
    | cons next rest =>
      rw [queryText, encode, List.flatMap_append, List.flatMap_cons]
      intro hmem
      rcases List.mem_append.mp hmem with hmem | hmem
      · exact hfield hmem
      · rcases List.mem_append.mp hmem with hmem | hmem
        · exact absurd hmem (by decide)
        · exact ih hmem
      · exact List.cons_ne_nil _ _

/-- A query is cut into its fields. -/
theorem splitAll_queryText (field : List Char × List Char) (rest : List (List Char × List Char)) :
    splitAll (0x26 : UInt8) (encode (queryText (field :: rest))) =
      (field :: rest).map fun field => encode (fieldText field) := by
  induction rest generalizing field with
  | nil => exact splitAll_of_not_mem fun hmem => (not_mem_encode_fieldText field hmem).2 rfl
  | cons next rest ih =>
    have hampersand : (0x26 : UInt8) ∉ encode (fieldText field) := fun hmem =>
      (not_mem_encode_fieldText field hmem).2 rfl
    have hbytes : encode (queryText (field :: next :: rest)) =
        encode (fieldText field) ++ 0x26 :: encode (queryText (next :: rest)) := by
      rw [queryText, encode, List.flatMap_append]
      · rfl
      · exact List.cons_ne_nil _ _
    rw [hbytes, splitAll_append hampersand, ih]
    rfl

/-- The fields of a query are read back as they were written. -/
theorem formFields_queryText (fields : List (List Char × List Char)) :
    formFields (queryText fields) = fields := by
  cases fields with
  | nil => rfl
  | cons field rest =>
    have hkept : ((field :: rest).map fun field => encode (fieldText field)).filter
        (fun piece => !piece.isEmpty) = (field :: rest).map fun field => encode (fieldText field) := by
      refine List.filter_eq_self.mpr fun piece hmem => ?_
      obtain ⟨written, -, rfl⟩ := List.mem_map.mp hmem
      rw [encode_fieldText]
      simp
    rw [formFields, splitAll_queryText, hkept, List.map_map]
    refine (List.map_congr_left fun written _ => ?_).trans (List.map_id _)
    have hequals : (0x3d : UInt8) ∉ encode (percentEncode written.1) := fun hmem =>
      (isValueByte_of_mem_percentEncode hmem).ne_equals rfl
    simp only [Function.comp_apply, encode_fieldText, splitFirst_append hequals, formDecode_percentEncode]
    rfl

end DaemonBridge.Text
