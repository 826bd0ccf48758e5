import SchemaCatalog.Proofs.Registry.Lookup

/-!
# Registries that agree on some names

`Registry.Agree r r' names` says that two registries hold equal definitions under some names
that are closed under mentions. What a type refers to is then the same in both, as long as all
names that it mentions are among these: one lemma for each function that looks up types.
-/

namespace SchemaCatalog.Registry

/-- Two registries **agree** on some names when they hold equal definitions under them, and
these mention such names only. -/
structure Agree (r r' : Registry) (names : List String) : Prop where
  /-- The definitions under the names are equal. -/
  get?_eq : ∀ n ∈ names, r.get? n = r'.get? n
  /-- What the definitions mention is among the names. -/
  closed : ∀ n ∈ names, ∀ d, r.get? n = some d → d.mentions ⊆ names

variable {r r' : Registry} {names : List String} {t : NativeType}

/-- Any two registries agree where nothing is asked. -/
theorem agree_nil (r r' : Registry) : Agree r r' [] := ⟨nofun, nofun⟩

namespace Agree

theorem resolve_eq (h : Agree r r' names) {name : String} (hn : name ∈ names) :
    r.resolve name = r'.resolve name := by
  rw [resolve, resolve, h.get?_eq name hn]

/-- What a type refers to is the same where the definitions of the names that it mentions agree. -/
theorem referenced?_eq (h : Agree r r' names) (ht : t.mentions ⊆ names) :
    r.referenced? t = r'.referenced? t := by
  unfold referenced?
  cases hname : t.referencedName? with
  | none => rfl
  | some name =>
    have hmem : name ∈ names := ht (by simp [NativeType.mentions_of_referencedName? hname])
    exact h.get?_eq name hmem

theorem entity?_eq (h : Agree r r' names) (ht : t.mentions ⊆ names) :
    r.entity? t = r'.entity? t := by
  rw [entity?, entity?, h.referenced?_eq ht]

theorem enumeration?_eq (h : Agree r r' names) (ht : t.mentions ⊆ names) :
    r.enumeration? t = r'.enumeration? t := by
  rw [enumeration?, enumeration?, h.referenced?_eq ht]

/-- Whether a type is simple is the same where the definitions agree. -/
theorem isSimple_eq (h : Agree r r' names) :
    ∀ {t : NativeType}, t.mentions ⊆ names → r.isSimple t = r'.isSimple t
  | .annotated base _, ht => by
    rw [isSimple, isSimple, h.isSimple_eq (t := base) ht]
  | .ref _, ht | .forward _, ht => by rw [isSimple, isSimple, h.enumeration?_eq ht]
  | .primitive _, _ | .literal _, _ | .list _, _ | .union _, _ | .custom _ _, _ => rfl

theorem soleEnumeration?_eq (h : Agree r r' names) :
    ∀ {ms : List NativeType} (found : Option Enumeration), NativeType.mentionsAll ms ⊆ names →
      r.soleEnumeration? found ms = r'.soleEnumeration? found ms
  | [], _, _ => rfl
  | m :: ms, found, hms => by
    obtain ⟨hm, hms⟩ := List.append_subset.mp hms
    unfold soleEnumeration?
    rw [h.enumeration?_eq hm, h.soleEnumeration?_eq found hms]
    split
    · rfl
    · split
      · exact h.soleEnumeration?_eq _ hms
      · rfl

/-- Which enumeration a union extends is the same where the definitions agree. -/
theorem extensible?_eq (h : Agree r r' names) (ht : t.mentions ⊆ names) :
    r.extensible? t = r'.extensible? t := by
  cases t with
  | union ms => exact h.soleEnumeration?_eq none ht
  | _ => rfl

/-- The fields of a definition of one of the names mention such names only. -/
theorem mentions_subset (h : Agree r r' names) {d : Definition} (hn : d.name ∈ names)
    (hd : r.get? d.name = some d) {f : Field} (hf : f ∈ d.fields) : f.type.mentions ⊆ names :=
  fun _ hm => h.closed d.name hn d hd (mem_mentions_iff.mpr ⟨f, hf, hm⟩)

end Agree

/-! ### Key types -/

/-- A type is a **key type** among some names when it is that of the primary key of an entity
of one of these. -/
structure KeyTypeAmong (r : Registry) (names : List String) (e : Entity) (key : Field) : Prop where
  /-- The entity is among the names. -/
  mem : e.name ∈ names
  /-- The entity is registered. -/
  get? : r.get? e.name = some (.entity e)
  /-- The field is the primary key of the entity. -/
  keyField : keyField e = .ok key

namespace KeyTypeAmong

variable {e : Entity} {key : Field}

theorem mem_keyTypes (h : KeyTypeAmong r names e key) : key.type ∈ r.keyTypes := by
  refine List.mem_map_of_mem (List.mem_filterMap.mpr ⟨e, ?_, keyField_eq_ok_iff.mp h.keyField⟩)
  exact List.mem_filterMap.mpr ⟨.entity e, (get?_eq_some_iff.mp h.get?).1, rfl⟩

/-- The type of such a key mentions no other names, since these are closed under mentioning. -/
theorem mentions_subset (h : KeyTypeAmong r names e key) (ha : Agree r r' names) :
    key.type.mentions ⊆ names :=
  ha.mentions_subset (d := .entity e) h.mem h.get? (mem_of_keyField h.keyField).1

theorem of_agree (h : KeyTypeAmong r names e key) (ha : Agree r r' names) :
    KeyTypeAmong r' names e key :=
  ⟨h.mem, by rw [← ha.get?_eq _ h.mem, h.get?], h.keyField⟩

end KeyTypeAmong

end SchemaCatalog.Registry
