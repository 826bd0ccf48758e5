import SchemaCatalog.Proofs.Converter.KeyDepth

/-!
# Well-formed types

A type is well formed when all names that it mentions are registered and none of its lists, at any
depth, has entities for items (`Registry.WellFormed`). Mapping does not look at every part of a
type: a list may become a document, an extensible enumeration is mapped as a key, and annotations
may be ignored. All the same, only well-formed types have a data type (`wellFormed_of_mapMember`):
what is not looked at is simple or a reference that has been resolved, so that neither an unknown
type nor a list of entities hides in it.
-/

namespace SchemaCatalog

/-- A type **lists** an item when it is a list of it, or when one of its parts lists it, be it below
annotations, lists or unions. -/
inductive NativeType.Lists : NativeType → NativeType → Prop
  /-- A list lists its item. -/
  | list (item : NativeType) : Lists (.list item) item
  /-- Annotations do not matter. -/
  | annotated {base item : NativeType} {as : List Annotation} :
    Lists base item → Lists (.annotated base as) item
  /-- A list lists what its item does. -/
  | inner {outer item : NativeType} : Lists outer item → Lists (.list outer) item
  /-- A union lists what one of its members does. -/
  | union {members : List NativeType} {m item : NativeType} :
    m ∈ members → Lists m item → Lists (.union members) item

namespace Registry

/-- A type is **well formed** when all that it mentions is registered and nothing that it lists is
an entity. -/
structure WellFormed (r : Registry) (t : NativeType) : Prop where
  /-- Every name that is mentioned stands for a definition. -/
  registered (name : String) : t.Mentions name → ∃ d, r.get? name = some d
  /-- No item of a list refers to an entity, whatever annotations it has. -/
  listsNoEntity (item : NativeType) : t.Lists item → r.entity? item.unadorned = none

namespace WellFormed

variable {r : Registry} {t item : NativeType}

theorem annotated (h : r.WellFormed t) (as : List Annotation) : r.WellFormed (.annotated t as) where
  registered
    | name, .annotated hname => h.registered name hname
  listsNoEntity
    | item, .annotated hitem => h.listsNoEntity item hitem

theorem list (h : r.WellFormed item) (hitem : r.entity? item.unadorned = none) :
    r.WellFormed (.list item) where
  registered
    | name, .list hname => h.registered name hname
  listsNoEntity
    | _, .list _ => hitem
    | inner, .inner hinner => h.listsNoEntity inner hinner

theorem union {members : List NativeType} (h : ∀ m ∈ members, r.WellFormed m) :
    r.WellFormed (.union members) where
  registered
    | name, .union hm hname => (h _ hm).registered name hname
  listsNoEntity
    | item, .union hm hitem => (h _ hm).listsNoEntity item hitem

theorem primitive (p : Primitive) : r.WellFormed (.primitive p) := ⟨nofun, nofun⟩

theorem literal (values : List Literal) : r.WellFormed (.literal values) := ⟨nofun, nofun⟩

theorem custom (moduleName name : String) : r.WellFormed (.custom moduleName name) :=
  ⟨nofun, nofun⟩

/-- A reference to something is well formed. -/
theorem of_referenced? {d : Definition} (h : r.referenced? t = some d) : r.WellFormed t where
  registered name hname := by
    obtain ⟨hget, hmentions⟩ := get?_of_referenced? h
    rw [NativeType.mentions_iff, hmentions, List.mem_singleton] at hname
    exact ⟨d, hname ▸ hget⟩
  listsNoEntity item hitem := by
    cases t with
    | ref _ | forward _ => cases hitem
    | _ => cases h

/-- Simple types are well formed. -/
theorem of_isSimple : ∀ {t : NativeType}, r.isSimple t = true → r.WellFormed t
  | .annotated base as, h => (of_isSimple (t := base) h).annotated as
  | .primitive p, _ => primitive p
  | .ref _, h | .forward _, h => by
    obtain ⟨e, he⟩ := Option.isSome_iff_exists.mp h
    exact of_referenced? (enumeration?_eq_some_iff.mp he)

end WellFormed

/-- What is simple does not refer to an entity. -/
theorem entity?_unadorned_of_isSimple {r : Registry} {t : NativeType} (h : r.isSimple t = true) :
    r.entity? t.unadorned = none := by
  cases he : r.entity? t.unadorned with
  | none => rfl
  | some e =>
    have hsimple := isSimple_of_referenced? (entity?_eq_some_iff.mp he) rfl
    rw [isSimple_unadorned, h] at hsimple
    cases hsimple

end Registry

namespace Converter

variable {c : Converter} {ofKey : NativeType → Except ConvertError DataType} {t : NativeType}
  {d : DataType}

/-! ### Lists -/

/-- What gives a list its name is well formed, and has no annotations. -/
theorem wellFormed_of_itemName {item : NativeType} {n : QualifiedName}
    (h : c.itemName t item = .ok n) : c.registry.WellFormed item ∧ item.unadorned = item := by
  cases item with
  | ref name | forward name =>
    obtain ⟨found, hfound, -⟩ := bind_eq_ok_iff.mp h
    exact ⟨.of_referenced? (Registry.referenced?_eq_some_iff.mpr
      ⟨name, rfl, Registry.resolve_eq_ok_iff.mp hfound⟩), rfl⟩
  | custom moduleName name => exact ⟨.custom moduleName name, rfl⟩
  | _ => cases h

/-- The items of a list are simple, or they give it their name. -/
theorem wellFormed_of_mapList {item : NativeType} (h : c.mapList t item = .ok d) :
    c.registry.WellFormed (.list item) := by
  unfold mapList at h
  split at h
  · rename_i hsimple
    exact (Registry.WellFormed.of_isSimple hsimple).list
      (Registry.entity?_unadorned_of_isSimple hsimple)
  · split at h
    · cases h
    · rename_i hentity
      obtain ⟨n, hn, -⟩ := bind_eq_ok_iff.mp h
      obtain ⟨hitem, hunadorned⟩ := wellFormed_of_itemName hn
      refine hitem.list ?_
      rw [hunadorned]
      simpa using hentity

/-! ### Types of fields -/

mutual

/-- A type with a data type is well formed, however keys are mapped. -/
theorem wellFormed_of_mapMemberWith (hs : c.options.SubstitutesPrimitives) :
    ∀ {t : NativeType} {d : DataType}, c.mapMemberWith ofKey t = .ok d → c.registry.WellFormed t
  | .primitive p, _, _ => .primitive p
  | .literal values, _, _ => .literal values
  | .custom moduleName name, _, _ => .custom moduleName name
  | .ref name, _, h | .forward name, _, h => by
    rw [mapMemberWith_reference rfl (hs.substitute?_eq_none rfl)] at h
    obtain ⟨found, hfound, -⟩ := bind_eq_ok_iff.mp h
    exact .of_referenced? (Registry.referenced?_eq_some_iff.mpr
      ⟨name, rfl, Registry.resolve_eq_ok_iff.mp hfound⟩)
  | .annotated base as, _, h => by
    rw [mapMemberWith_annotated (hs.substitute?_eq_none rfl)] at h
    split at h
    · exact (Registry.WellFormed.of_isSimple ‹_›).annotated as
    · split at h
      · exact (wellFormed_of_mapMemberWith hs h).annotated as
      · cases h
  | .list item, _, h => by
    rw [mapMemberWith, hs.substitute?_eq_none rfl] at h
    exact wellFormed_of_mapList h
  | .union members, _, h => by
    rw [mapMemberWith_union (hs.substitute?_eq_none rfl)] at h
    -- only in the last of the three ways are the members mapped one by one
    split at h
    · rename_i hextensible
      obtain ⟨e, he⟩ := Option.isSome_iff_exists.mp hextensible
      exact .union fun m hm => .of_isSimple (Registry.isSimple_of_extensible? he hm)
    · split at h
      · rename_i hentities
        rw [Bool.and_eq_true, List.all_eq_true] at hentities
        refine .union fun m hm => ?_
        obtain ⟨e, he⟩ := Option.isSome_iff_exists.mp (hentities.2 m hm)
        exact .of_referenced? (Registry.entity?_eq_some_iff.mp he)
      · obtain ⟨types, htypes, -⟩ := bind_eq_ok_iff.mp h
        exact .union (wellFormed_of_mapMembersWith hs htypes)

theorem wellFormed_of_mapMembersWith (hs : c.options.SubstitutesPrimitives) :
    ∀ {ts : List NativeType} {ds : List DataType}, c.mapMembersWith ofKey ts = .ok ds →
      ∀ t ∈ ts, c.registry.WellFormed t
  | [], _, _ => nofun
  | t :: ts, _, h => by
    obtain ⟨d, hd, h⟩ := bind_eq_ok_iff.mp h
    obtain ⟨ds, hds, -⟩ := bind_eq_ok_iff.mp h
    exact List.forall_mem_cons.mpr
      ⟨wellFormed_of_mapMemberWith hs hd, wellFormed_of_mapMembersWith hs hds⟩

end

/-- **Types with a data type are well formed**: all that they mention is registered, and they list
no entity, at any depth and however enumerations, structs and lists are represented. -/
theorem wellFormed_of_mapMember (hs : c.options.SubstitutesPrimitives)
    (h : c.mapMember t = .ok d) : c.registry.WellFormed t := by
  rw [mapMember, mapMemberAlong_eq] at h
  exact wellFormed_of_mapMemberWith hs h

/-! ### An orchard -/

namespace Orchard

/-- Kinds of fruit. -/
def fruit : Enumeration where
  name := "Fruit"
  moduleName := "app"
  members := [("apple", .str "apple"), ("pear", .str "pear")]

/-- A row of trees. -/
def row : Struct where
  name := "Row"
  moduleName := "app"
  fields := [{ name := "length", type := .primitive .float64 }]

/-- A tree. -/
def tree : Entity where
  name := "Tree"
  moduleName := "app"
  primaryKey := "id"
  fields := [{ name := "id", type := .primitive .int64 }]

/-- A harvest is a document, or lists kinds of fruit or rows. -/
def harvest : NativeType :=
  .annotated (.union [.list (.annotated (.ref "Fruit") []), .list (.forward "Row"),
    .primitive .json]) []

/-- A survey is a document, or lists trees. -/
def survey : NativeType := .union [.primitive .json, .list (.annotated (.ref "Tree") [])]

end Orchard

/-- An orchard, with lists that are represented in some way. -/
def orchard (mode : ArrayMode) : Converter where
  registry :=
    { types := [.enumeration Orchard.fruit, .struct Orchard.row, .entity Orchard.tree]
      nodup_names := by decide }
  options := { arrayMode := mode }

/-- A harvest is well formed, and mapped where lists are documents; a survey lists trees, and is
never mapped. -/
theorem wellFormed_orchard :
    (orchard .json).mapMember Orchard.harvest = .ok .json ∧
      (orchard .json).registry.WellFormed Orchard.harvest ∧
      ∀ mode d, (orchard mode).mapMember Orchard.survey ≠ .ok d := by
  have hs : ∀ mode, (orchard mode).options.SubstitutesPrimitives := fun _ => nofun
  have hharvest : (orchard .json).mapMember Orchard.harvest = .ok .json :=
    mapMember_eq_ok_iff.mpr ⟨1, by decide⟩
  refine ⟨hharvest, wellFormed_of_mapMember (hs _) hharvest, fun mode d h => ?_⟩
  have htree : (orchard mode).registry.entity? (.ref "Tree") = some Orchard.tree := rfl
  cases htree.symm.trans ((wellFormed_of_mapMember (hs mode) h).listsNoEntity _
    (.union (.tail _ (.head _)) (.list _)))

end Converter

end SchemaCatalog
