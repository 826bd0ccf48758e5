import SchemaCatalog.Proofs.Sample.Kind

/-!
# How values that fit are stored

An encoding takes values of some kinds (`Value.exists_encode_iff`) and is chosen from the data type
of a column together with the unadorned type of its field: octets, truth values and documents are
encoded in columns of binary data, of integers, and of JSON or characters. A value **fits** a column
of a dialect when it has a kind for the data type and one for the type (`Dialect.Fits`). Values that
fit can be stored (`Dialect.Fits.exists_encode`), and the laws about columns of octets, of integers
and of documents say as what.
-/

namespace SchemaCatalog

/-- Whether a data type is that of JSON documents, be it a type of the dialect. -/
def DataType.isJson : DataType → Bool
  | json => true
  | userDefined name => ValueEncoding.isJsonName name.localName
  | _ => false

/-- Whether values are integers. -/
def DataType.isInteger : DataType → Bool
  | integer _ => true
  | _ => false

/-! ### The encoding of a column -/

namespace ValueEncoding

variable {d : DataType} {t : NativeType}

/-- In a column of octets, identifiers and addresses are encoded if the field has one of their
types. -/
theorem forColumn_of_isBinary (hd : d.isBinary = true) :
    forColumn d t = if hasOctets t.unadorned then binary else passthrough := by
  cases d with
  | fixedBinary _ | variableBinary _ => rfl
  | _ => cases hd

/-- In a column of integers, truth values are encoded if the field has their type. -/
theorem forColumn_of_isInteger (hd : d.isInteger = true) :
    forColumn d t = if t.unadorned = .primitive .bool then integer else passthrough := by
  cases d with
  | integer _ => rfl
  | _ => cases hd

theorem forColumn_of_isJson (hd : d.isJson = true) : forColumn d t = jsonText := by
  cases d with
  | json => rfl
  | userDefined name => exact if_pos hd
  | _ => cases hd

/-- In a column of characters, documents are encoded if the field has a type of documents. -/
theorem forColumn_of_isCharacter (hd : d.isCharacter = true) :
    forColumn d t = if isDocument t.unadorned then jsonText else passthrough := by
  cases d with
  | fixedCharacter _ | variableCharacter _ => rfl
  | _ => cases hd

/-- Values of columns of other data types are stored as they are. -/
theorem forColumn_eq_passthrough (hbinary : d.isBinary = false) (hjson : d.isJson = false)
    (hcharacter : d.isCharacter = false) (hinteger : d.isInteger = false) :
    forColumn d t = passthrough := by
  cases d with
  | integer _ => cases hinteger
  | json => cases hjson
  | userDefined name => exact if_neg (Bool.eq_false_iff.mp hjson)
  | fixedBinary _ | variableBinary _ => cases hbinary
  | fixedCharacter _ | variableCharacter _ => cases hcharacter
  | _ => rfl

/-- An encoding **takes** values of the kinds that can be stored under it. -/
def Takes : ValueEncoding → String → Prop
  | passthrough, _ => True
  | binary, kind => kind ∈ ["uuid", "ip", "bytes"]
  | integer, kind => kind ∈ ["bool", "int", "enum"]
  | jsonText, kind => kind ∈ ["json", "list", "string", "enum"]

end ValueEncoding

/-! ### Encoded values -/

namespace Value

variable {w v : Value}

/-- Members of enumerations as their values. -/
def plain : Value → Value
  | member l => Sample.literalValue l
  | w => w

/-- The octets of an identifier or an address. -/
def octets? : Value → Option (List UInt8)
  | uuid u => some u.octets.toList
  | ip a => some a.octets
  | _ => none

/-- A truth value, be it that of a member of an enumeration. -/
def truth? : Value → Option Bool
  | bool b | member (.bool b) => some b
  | _ => none

theorem encode_passthrough (w : Value) : w.encode .passthrough = .ok w.plain := by
  cases w with
  | member l => cases l <;> rfl
  | _ => rfl

/-- **What can be stored** under an encoding depends on the kind of the value only. -/
theorem exists_encode_iff {enc : ValueEncoding} :
    (∃ v, w.encode enc = .ok v) ↔ enc.Takes w.kind := by
  cases w with
  | member l =>
    cases enc <;> cases l <;> simp [encode, encodeMember, ValueEncoding.Takes, kind]
  | _ => cases enc <;> simp [encode, ValueEncoding.Takes, kind]

/-- Octets are stored as they are. -/
theorem encode_binary {bs : List UInt8} (hw : w.octets? = some bs) :
    w.encode .binary = .ok (bytes bs) := by
  cases w with
  | uuid _ | ip _ =>
    cases hw
    rfl
  | _ => cases hw

/-- A document is stored as its text. -/
theorem encode_jsonText (hw : w.isDocument = true) :
    w.encode .jsonText = .ok (text w.toJson.print) := by
  cases w with
  | json j => rw [toJson]; rfl
  | list vs => rfl
  | _ => cases hw

/-- What is stored as text is no document any more. -/
theorem isDocument_of_encode_jsonText (h : w.encode .jsonText = .ok v) : v.isDocument = false := by
  cases w with
  | member l => cases l <;> cases h <;> rfl
  | _ => cases h <;> rfl

/-- Identifiers and addresses have octets, and stay what they are without an encoding. -/
theorem exists_octets_of_kind (hw : w.kind = "uuid" ∨ w.kind = "ip") :
    w.plain = w ∧ ∃ bs, w.octets? = some bs := by
  cases w with
  | uuid u => exact ⟨rfl, _, rfl⟩
  | ip a => exact ⟨rfl, _, rfl⟩
  | _ => simp [kind] at hw

theorem plain_of_isDocument (hw : w.isDocument = true) : w.plain = w := by
  cases w with
  | member l => cases hw
  | _ => rfl

theorem isDocument_plain (w : Value) : w.plain.isDocument = w.isDocument := by
  cases w with
  | member l => cases l <;> rfl
  | _ => rfl

/-- A value is a truth value without an encoding just when it stands for one. -/
theorem plain_eq_bool_iff {b : Bool} : w.plain = .bool b ↔ w.truth? = some b := by
  cases w with
  | member l => cases l <;> simp [plain, truth?, Sample.literalValue]
  | _ => simp [plain, truth?]

theorem kind_of_truth? {b : Bool} (hw : w.truth? = some b) : w.kind = "bool" ∨ w.kind = "enum" := by
  cases w with
  | bool b' => exact Or.inl rfl
  | member l => exact Or.inr rfl
  | _ => cases hw

theorem exists_bool_of_kind (hw : w.kind = "bool") : ∃ b, w = .bool b := by
  cases w with
  | bool b => exact ⟨b, rfl⟩
  | _ => simp [kind] at hw

end Value

/-! ### Values that fit -/

namespace Dialect

variable {δ : Dialect} {d : DataType} {t : NativeType} {w v : Value}

/-- Columns of octets take identifiers and addresses in every dialect. -/
theorem kinds_of_isBinary (hd : d.isBinary = true) : δ.kinds d = ["uuid", "ip"] := by
  cases d with
  | fixedBinary _ | variableBinary _ => rfl
  | _ => cases hd

/-- Columns of characters take strings and members of enumerations, and in Delta Lake documents as
well. -/
theorem kinds_of_isCharacter (hd : d.isCharacter = true) :
    δ.kinds d = if δ = delta then ["string", "enum", "json", "list"] else ["string", "enum"] := by
  cases d with
  | fixedCharacter _ | variableCharacter _ => rfl
  | _ => cases hd

/-- Only Delta Lake keeps documents in columns of characters. -/
theorem eq_delta_of_isCharacter (hd : d.isCharacter = true) (hw : w.isDocument = true)
    (h : w.kind ∈ δ.kinds d) : δ = .delta := by
  rw [Value.isDocument_iff] at hw
  by_contra hδ
  rw [kinds_of_isCharacter hd, if_neg hδ] at h
  rcases hw with hw | hw <;> exact absurd (hw ▸ h) (by decide)

/-- What columns of documents and of characters take can be written as text. -/
theorem kinds_subset_of_isJson_or_isCharacter (hd : d.isJson = true ∨ d.isCharacter = true) :
    δ.kinds d ⊆ ["json", "list", "string", "enum"] := by
  rcases hd with hjson | hcharacter
  · cases d with
    | json => cases δ <;> decide
    | userDefined name =>
      dsimp only [kinds]
      rw [if_pos (show ValueEncoding.isJsonName name.localName = true from hjson)]
      cases δ <;> decide
    | _ => cases hjson
  · rw [kinds_of_isCharacter hcharacter]
    cases δ <;> decide

/-- A value **fits** a column of a data type for a field of a type. -/
structure Fits (δ : Dialect) (d : DataType) (t : NativeType) (w : Value) : Prop where
  /-- The data type takes values of the kind. -/
  kind_mem : w.kind ∈ δ.kinds d
  /-- A value for a built-in type has its kind. -/
  kind_eq : ∀ p, t.unadorned = .primitive p → w.kind = p.valueKind
  /-- Documents and lists are values for types that have such values. -/
  type_of_isDocument : w.isDocument = true →
    ValueEncoding.isDocument t.unadorned = true ∨ t.unadorned.isForwardOrUnion = true

namespace Fits

/-- **Values that fit can be stored.** -/
theorem exists_encode (h : δ.Fits d t w) :
    ∃ v, w.encode (ValueEncoding.forColumn d t) = .ok v := by
  rw [Value.exists_encode_iff]
  by_cases hbinary : d.isBinary = true
  · rw [ValueEncoding.forColumn_of_isBinary hbinary]
    split
    · have hkind := h.kind_mem
      rw [kinds_of_isBinary hbinary] at hkind
      exact List.mem_of_mem_take (i := 2) hkind
    · trivial
  by_cases hjson : d.isJson = true
  · rw [ValueEncoding.forColumn_of_isJson hjson]
    exact kinds_subset_of_isJson_or_isCharacter (Or.inl hjson) h.kind_mem
  by_cases hcharacter : d.isCharacter = true
  · rw [ValueEncoding.forColumn_of_isCharacter hcharacter]
    split
    · exact kinds_subset_of_isJson_or_isCharacter (Or.inr hcharacter) h.kind_mem
    · trivial
  by_cases hinteger : d.isInteger = true
  · rw [ValueEncoding.forColumn_of_isInteger hinteger]
    split
    · rw [h.kind_eq .bool ‹_›]
      exact List.mem_cons_self
    · trivial
  · rw [ValueEncoding.forColumn_eq_passthrough (Bool.eq_false_iff.mpr hbinary)
      (Bool.eq_false_iff.mpr hjson) (Bool.eq_false_iff.mpr hcharacter)
      (Bool.eq_false_iff.mpr hinteger)]
    trivial

/-! #### Columns of octets -/

theorem kind_of_isBinary (h : δ.Fits d t w) (hd : d.isBinary = true) :
    w.kind = "uuid" ∨ w.kind = "ip" := by
  have hkind := h.kind_mem
  rw [kinds_of_isBinary hd] at hkind
  simpa using hkind

/-- A field with a column of octets has a built-in type of octets, or gets its data type from
elsewhere. -/
theorem hasOctets_eq (h : δ.Fits d t w) (hd : d.isBinary = true) :
    ValueEncoding.hasOctets t.unadorned = t.unadorned.isPrimitive := by
  cases ht : t.unadorned with
  | primitive p =>
    have hkind := h.kind_of_isBinary hd
    rw [h.kind_eq p ht] at hkind
    cases p <;> first | rfl | (exfalso; revert hkind; decide)
  | _ => rfl

/-- In a column of octets, values for built-in types are stored as their octets, and others, which
come from keys and members of unions, as they are. -/
theorem encode_of_isBinary (h : δ.Fits d t w) (hd : d.isBinary = true)
    (hv : w.encode (ValueEncoding.forColumn d t) = .ok v) :
    ∃ bs, w.octets? = some bs ∧ v = if t.unadorned.isPrimitive then .bytes bs else w := by
  obtain ⟨hplain, bs, hbs⟩ := Value.exists_octets_of_kind (h.kind_of_isBinary hd)
  refine ⟨bs, hbs, ?_⟩
  rw [ValueEncoding.forColumn_of_isBinary hd, h.hasOctets_eq hd] at hv
  split at hv
  · rw [Value.encode_binary hbs] at hv
    rw [if_pos ‹_›, Except.ok.inj hv]
  · rw [Value.encode_passthrough, hplain] at hv
    rw [if_neg ‹_›, Except.ok.inj hv]

/-! #### Columns of documents -/

/-- In a column of JSON or of characters, documents and lists are stored as JSON text, unless the
field of a column of characters has a forward reference or a union as its type: then they are
stored as they are, which happens in Delta Lake only. -/
theorem encode_of_isJson_or_isCharacter (h : δ.Fits d t w)
    (hd : d.isJson = true ∨ d.isCharacter = true)
    (hv : w.encode (ValueEncoding.forColumn d t) = .ok v) :
    (v.isDocument = true → w.isDocument = true) ∧
      (w.isDocument = true →
        if d.isCharacter ∧ t.unadorned.isForwardOrUnion then δ = .delta ∧ v = w
        else v = .text w.toJson.print) := by
  by_cases hraw : d.isCharacter = true ∧ ValueEncoding.isDocument t.unadorned = false
  -- the encoding does not look for documents
  · obtain ⟨hcharacter, hdocument⟩ := hraw
    rw [ValueEncoding.forColumn_of_isCharacter hcharacter, hdocument,
      if_neg Bool.false_ne_true, Value.encode_passthrough] at hv
    cases hv
    refine ⟨fun hv => w.isDocument_plain ▸ hv, fun hw => ?_⟩
    have hindirect : t.unadorned.isForwardOrUnion = true :=
      (h.type_of_isDocument hw).resolve_left (by simp [hdocument])
    rw [if_pos ⟨hcharacter, hindirect⟩]
    exact ⟨eq_delta_of_isCharacter hcharacter hw h.kind_mem, Value.plain_of_isDocument hw⟩
  · have hnone : ¬ (d.isCharacter = true ∧ t.unadorned.isForwardOrUnion = true) := by
      rintro ⟨hcharacter, hindirect⟩
      exact hraw ⟨hcharacter, NativeType.isDocument_of_isForwardOrUnion hindirect⟩
    have hencoding : ValueEncoding.forColumn d t = .jsonText := by
      rcases hd with hjson | hcharacter
      · exact ValueEncoding.forColumn_of_isJson hjson
      · rw [ValueEncoding.forColumn_of_isCharacter hcharacter, if_pos]
        by_contra hdocument
        exact hraw ⟨hcharacter, Bool.eq_false_iff.mpr hdocument⟩
    rw [hencoding] at hv
    refine ⟨fun hdocument => ?_, fun hw => ?_⟩
    · rw [Value.isDocument_of_encode_jsonText hv] at hdocument
      cases hdocument
    · rw [Value.encode_jsonText hw] at hv
      rw [if_neg hnone, Except.ok.inj hv]

/-! #### Columns of integers -/

/-- In a column of integers, truth values for built-in types are stored as zero and one, and
others, which come from keys, literals, and members of unions and of enumerations, as they are. -/
theorem encode_of_isInteger (h : δ.Fits d t w) (hd : d.isInteger = true)
    (hv : w.encode (ValueEncoding.forColumn d t) = .ok v) :
    (∀ b, v = .bool b → w.truth? = some b) ∧
      ∀ b, w.truth? = some b →
        if t.unadorned.isPrimitive then w = .bool b ∧ v = .ofBool b else v = .bool b := by
  rw [ValueEncoding.forColumn_of_isInteger hd] at hv
  split at hv
  · rename_i hbool
    obtain ⟨b, rfl⟩ := Value.exists_bool_of_kind (h.kind_eq .bool hbool)
    cases hv
    refine ⟨nofun, fun b' hb' => ?_⟩
    cases hb'
    rw [hbool]
    exact ⟨rfl, rfl⟩
  · rename_i hbool
    rw [Value.encode_passthrough] at hv
    cases hv
    refine ⟨fun b hb => Value.plain_eq_bool_iff.mp hb, fun b hb => ?_⟩
    -- no other built-in type has truth values or members of enumerations
    have hprimitive : ¬ t.unadorned.isPrimitive = true := by
      intro hprimitive
      cases ht : t.unadorned with
      | primitive p =>
        have hkind : p.valueKind = "bool" ∨ p.valueKind = "enum" :=
          h.kind_eq p ht ▸ Value.kind_of_truth? hb
        cases p <;> first | exact hbool ht | (revert hkind; decide)
      | _ =>
        rw [ht] at hprimitive
        cases hprimitive
    rw [if_neg hprimitive]
    exact Value.plain_eq_bool_iff.mpr hb

end Fits

end Dialect

end SchemaCatalog
