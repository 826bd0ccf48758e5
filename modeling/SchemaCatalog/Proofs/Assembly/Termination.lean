import SchemaCatalog.Assembly
import SchemaCatalog.Proofs.Assembly.Cycles
import SchemaCatalog.Proofs.Converter.KeyCycles
import SchemaCatalog.Proofs.Converter.KeyDepth

/-!
# Conversions that end where keys are acyclic

Besides following keys, two steps of a conversion go from definition to definition: the closure of
the roots, and the search for an order of the structs. Both visit each definition at most once, so
that they end however the definitions refer to each other; all that they fail with is direct
(`direct_closure`, `direct_dependencyOrder`). So a catalog ends when the types of its fields and
keys do, and these do where keys are acyclic (`ends_of_keysAcyclic`), whatever other fields refer
to.
-/

namespace SchemaCatalog

open ConvertError (Direct)

/-! ### Closures and orders -/

/-- A closure visits each name once, and all that it fails with is a name that nothing bears. -/
theorem direct_closureFrom (r : Registry) (seen names : List String) :
    FailsOnly Direct (r.closureFrom seen names) := by
  fun_induction Registry.closureFrom r seen names with
  | case1 seen => exact .ok seen
  | case2 seen name rest hs ih => exact ih
  | case3 seen name rest hs hd => exact .error trivial
  | case4 seen name rest hs d hd ih => exact ih

theorem direct_closure (r : Registry) (roots : List String) :
    FailsOnly Direct (r.closure roots) :=
  direct_closureFrom r [] roots

/-- The search for an order ends at its bound at the latest, and what it fails with names no key. -/
theorem direct_visit (structs : List Struct) (depth : Nat) (path : List String) (s : Struct)
    (listed : List Struct) : FailsOnly Direct (s.visit structs depth path listed) := by
  induction depth generalizing path s listed with
  | zero => exact .error trivial
  | succ depth ih =>
    rw [visit_succ]
    split
    · exact .ok _
    · split
      · exact .error trivial
      · refine (FailsOnly.foldlM (fun listed name => ?_) listed).map _
        unfold Struct.visitMention
        split
        · exact .ok _
        · split
          · exact ih _ _ _
          · exact .ok _

/-- Structs are ordered, or an error says directly why not, however they mention each other. -/
theorem direct_dependencyOrder (structs : List Struct) :
    FailsOnly Direct (dependencyOrder structs) :=
  .foldlM (fun listed s => direct_visit structs _ [] s listed) []

/-- Naming a definition does not make an error cyclic. -/
theorem Ends.nameOwner {α : Type} {x : Except ConvertError α} (hx : Ends x) (owner : String) :
    Ends (ConvertError.nameOwner owner x) :=
  hx.mapError fun _ herr => herr

/-- The bound on the length of the path does not show in an order. -/
theorem foldlM_visit_eq {structs : List Struct} {depth : Nat} (hdepth : structs.length < depth) :
    structs.foldlM (fun listed s => s.visit structs depth [] listed) [] =
      dependencyOrder structs :=
  foldlM_congr (fun _ hs _ => visit_eq_of_lt (.start hs) (by simpa using hdepth) (by simp)) []

namespace Converter

variable {c : Converter}

/-- To find the namespace of an object no key is followed. -/
theorem direct_place {α : Type} (moduleName : String) (object : α) :
    FailsOnly Direct (c.place moduleName object) := by
  refine .bind ?_ fun _ => .ok _
  exact (direct_target _ _).bind fun _ => .ok _

/-- The definitions in reach are found without following keys. -/
theorem direct_reachable (roots : List String) : FailsOnly Direct (c.reachable roots) :=
  (direct_closure _ roots).bind fun _ =>
    (FailsOnly.mapM fun name _ => direct_resolve _ name).bind fun _ => .ok _

theorem direct_enumTypes (types : List Definition) : FailsOnly Direct (c.enumTypes types) :=
  .mapM fun _ _ => (direct_qualifiedName _ _).bind fun _ => direct_place _ _

theorem direct_lookupTables (native : List Enumeration) (entities : List Entity) :
    FailsOnly Direct (c.lookupTables native entities) := by
  refine .mapM fun e _ => ?_
  split
  · exact .error trivial
  · exact (direct_lookupTable e).bind fun _ => direct_place _ _

/-! ### Definitions -/

section Definitions

variable (hm : ∀ t, Ends (c.mapMember t))
include hm

/-- The table of an entity ends when the types of its fields do. -/
theorem ends_table (e : Entity) : Ends (c.table e) :=
  Ends.nameOwner (failsOnly_tableParts not_cyclic_of_direct hm e) e.name

/-- A composite type ends when the types of its fields do. -/
theorem ends_composite (d : Definition) : Ends (c.composite d) := by
  have hmembers : Ends (d.fields.mapM c.compositeMember) :=
    .mapM fun f _ => failsOnly_compositeMember hm f
  cases d with
  | enumeration e => exact (FailsOnly.error trivial).ends
  | entity _ | struct _ =>
    refine (hmembers.nameOwner _).bind fun members => FailsOnly.ends ?_
    exact (direct_qualifiedName _ _).bind fun _ => .of_mapError fun _ => trivial

/-- Composite types end: the search for their order does so in any case, and each of them does. -/
theorem ends_compositeTypes (types : List Definition) : Ends (c.compositeTypes types) := by
  unfold compositeTypes
  split
  · refine (direct_dependencyOrder _).ends.bind fun structs => .mapM fun s _ => ?_
    exact (ends_composite hm _).bind fun _ => (direct_place _ _).ends
  · exact .ok _

theorem ends_entityTables (entities : List Entity) : Ends (c.entityTables entities) :=
  .mapM fun e _ => (ends_table hm e).bind fun _ => (direct_place _ _).ends

/-- Join tables end as the keys of the two entities do. -/
theorem ends_joinTables (entities : List Entity) : Ends (c.joinTables entities) := by
  refine .bind (.mapM fun p _ => ?_) fun _ => .ok _
  unfold fieldJoin?
  split
  · refine .bind (Ends.nameOwner (failsOnly_joinTable not_cyclic_of_direct hm _ _ _) _) fun _ => ?_
    exact (direct_place _ _).ends.bind fun _ => .ok _
  · exact .ok _

/-- **The objects of a catalog end** when all of them do, one kind after the other. -/
theorem ends_objects (types : List Definition) : Ends (c.objects types) :=
  (direct_enumTypes types).ends.bind fun _ => (ends_compositeTypes hm types).bind fun _ =>
    (ends_entityTables hm _).bind fun _ => (direct_lookupTables _ _).ends.bind fun _ =>
      (ends_joinTables hm _).bind fun _ => .ok _

/-- A catalog ends when its objects do, since the closure of its roots ends in any case. -/
theorem ends_assemble (roots : List String) : Ends (c.assemble roots) :=
  (direct_reachable roots).ends.bind fun types => (ends_objects hm types).bind fun _ => .ok _

end Definitions

/-- **Conversions end where keys are acyclic**, whatever else refers to each other. Keys are
followed to a bounded depth for all types: what deeper ones are mapped to makes no difference. So
types of fields, tables, composite types and catalogs do not come back to a key that they are
following. Nor does the search for an order of structs depend on the bound on its path. -/
theorem ends_of_keysAcyclic (c : Converter) (h : c.registry.KeysAcyclic) :
    (∃ bound, ∀ depth > bound, ∀ rest, c.mapMemberWith^[depth] rest = c.mapMember) ∧
      (∀ t, Ends (c.mapMember t)) ∧ (∀ e, Ends (c.table e)) ∧ (∀ d, Ends (c.composite d)) ∧
      (∀ roots, Ends (c.assemble roots)) ∧
      ∀ structs depth, structs.length < depth →
        structs.foldlM (fun listed s => s.visit structs depth [] listed) [] =
          dependencyOrder structs := by
  have hm := ends_mapMember h
  exact ⟨⟨_, fun _ hdepth => iterate_mapMemberWith_eq h hdepth⟩, hm, ends_table hm,
    ends_composite hm, ends_assemble hm, fun _ _ => foldlM_visit_eq⟩

/-! ### An atlas -/

namespace Atlas

/-- Countries have a capital, and codes of some type. -/
def country (code : NativeType) : Entity where
  name := "Country"
  moduleName := "app"
  primaryKey := "code"
  fields := [{ name := "code", type := code }, { name := "capital", type := .forward "City" }]

/-- There is one city in each country. -/
def city : Entity where
  name := "City"
  moduleName := "app"
  primaryKey := "country"
  fields :=
    [{ name := "country", type := .annotated (.ref "Country") [] },
      { name := "border", type := .forward "Line" }]

/-- A street is known by its city. -/
def street : Entity where
  name := "Street"
  moduleName := "app"
  primaryKey := "city"
  fields := [{ name := "city", type := .union [.ref "City", .forward "City"] }]

/-- Lines consist of lines. -/
def line : Struct where
  name := "Line"
  moduleName := "app"
  fields := [{ name := "parts", type := .list (.forward "Line") }]

end Atlas

/-- An atlas, with codes of countries of some type. -/
def atlas (code : NativeType) : Converter where
  registry :=
    { types := [.entity (Atlas.country code), .entity Atlas.city, .entity Atlas.street,
        .struct Atlas.line]
      nodup_names := (by decide : ["Country", "City", "Street", "Line"].Nodup) }
  options := {}

/-- A street is known by the code of its country, when this is a text; when it is a street, the
street is known by itself. -/
theorem ends_of_keysAcyclic_atlas :
    (atlas (.primitive .string)).registry.KeysAcyclic ∧
      (∃ depth, ∀ rest, (atlas (.primitive .string)).mapMemberWith^[depth] rest (.ref "Street") =
        .ok .text) ∧
      (∀ roots, Ends ((atlas (.primitive .string)).assemble roots)) ∧
      ¬ Ends ((atlas (.forward "Street")).mapMember (.ref "Street")) := by
  have hkeys : (atlas (.primitive .string)).registry.KeysAcyclic := by
    refine Registry.keysAcyclic_of_rank
      (fun e => if e.name = "Country" then 0 else if e.name = "City" then 1 else 2) ?_
    rintro x y ⟨hx, -, key, hkey, hmentions⟩
    rw [NativeType.mentions_iff] at hmentions
    have hx : x = Atlas.country (.primitive .string) ∨ x = Atlas.city ∨ x = Atlas.street := by
      simpa [atlas] using hx
    rcases hx with rfl | rfl | rfl
    · cases hkey
      cases hmentions
    · cases hkey
      obtain hy : y.name = "Country" := by simpa [NativeType.mentions] using hmentions
      simp [hy, Atlas.city]
    · cases hkey
      obtain hy : y.name = "City" := by
        simpa [NativeType.mentions, NativeType.mentionsAll] using hmentions
      simp [hy, Atlas.street]
  obtain ⟨⟨bound, hbound⟩, -, -, -, hassemble, -⟩ := ends_of_keysAcyclic _ hkeys
  refine ⟨hkeys, ⟨bound + 1, fun rest => ?_⟩, hassemble, fun hends => ?_⟩
  · rw [hbound _ (Nat.lt_succ_self _)]
    exact mapMember_eq_ok_iff.mpr ⟨4, by decide⟩
  · refine hends (.unsupported "union<City, 'City'>" .cyclicKey) ?_ ⟨_, rfl⟩
    decide +kernel

end Converter

end SchemaCatalog
