import Mathlib.Data.List.Induction
import SchemaCatalog.Proofs.Assembly.Declarations

/-!
# Modules and namespaces

No two entries of a mapping have one target, so that different modules have different targets
(`NamespaceMapping.eq_of_target`). The objects of a definition stand in the namespace of its module
(`exists_target_of_hasObjectIn`), where the default namespace is called `""`. There the two fall
apart: a mapping may send one module to the default namespace and another to the namespace `""`,
which are different targets with one name. `separatesModules_iff` says that this is the only way in
which definitions of different modules get into one namespace, and `not_separatesModules_archive`
that they do.
-/

namespace SchemaCatalog

namespace OrderedMap

variable {α : Type*}

/-- The last entry of a map is inserted last. -/
theorem ofList_append_singleton (es : List (String × α)) (e : String × α) :
    ofList (es ++ [e]) = (ofList es).insert e.1 e.2 := by
  rw [ofList, List.foldl_append]
  rfl

/-- What a map of entries has is an entry. -/
theorem mem_of_get?_ofList {es : List (String × α)} {k : String} {a : α}
    (h : (ofList es).get? k = some a) : (k, a) ∈ es := by
  induction es using List.reverseRecOn with
  | nil => cases h
  | append_singleton es e ih =>
    rw [ofList_append_singleton, get?_insert] at h
    split at h
    · rename_i hk
      cases h
      exact hk ▸ List.mem_append_right _ (List.mem_singleton_self _)
    · exact List.mem_append_left _ (ih h)

/-- A map of entries has their keys. -/
theorem mem_keys_ofList {es : List (String × α)} {k : String} (h : k ∈ es.map Prod.fst) :
    k ∈ (ofList es).keys := by
  induction es using List.reverseRecOn with
  | nil => cases h
  | append_singleton es e ih =>
    rw [ofList_append_singleton, keys_insert]
    rw [List.map_append, List.mem_append] at h
    rcases h with h | h
    · split
      · exact ih h
      · exact List.mem_append_left _ (ih h)
    · rw [List.map_singleton, List.mem_singleton] at h
      split
      · exact h ▸ ‹_›
      · exact h ▸ List.mem_append_right _ (List.mem_singleton_self _)

end OrderedMap

namespace NamespaceMapping

variable {entries : List (String × Option String)} {m : NamespaceMapping} {a b : String}
  {target : Option String}

/-- **When a mapping is accepted**: the targets of its entries differ. -/
theorem ofList_eq_ok_iff :
    ofList entries = .ok m ↔ (entries.map Prod.snd).Nodup ∧ m = ⟨OrderedMap.ofList entries⟩ := by
  rw [← firstRepeated?_eq_none_iff, ofList]
  cases firstRepeated? (entries.map Prod.snd) with
  | some target => simp
  | none => simp [eq_comm]

/-- A mapping with entries is not empty. -/
theorem isEmpty_eq_false (hne : entries ≠ []) (h : ofList entries = .ok m) : m.isEmpty = false := by
  obtain ⟨-, rfl⟩ := ofList_eq_ok_iff.mp h
  obtain ⟨e, he⟩ := List.exists_mem_of_ne_nil _ hne
  have hkey := OrderedMap.mem_keys_ofList (List.mem_map_of_mem he)
  obtain ⟨entry, hentry, -⟩ := List.mem_map.mp hkey
  exact List.isEmpty_eq_false_iff_exists_mem.mpr ⟨entry, hentry⟩

/-- The targets of a mapping with entries are those of the entries. -/
theorem mem_of_target (hne : entries ≠ []) (h : ofList entries = .ok m)
    (ha : m.target a = .ok target) : (a, target) ∈ entries := by
  rw [NamespaceMapping.target, isEmpty_eq_false hne h, if_neg Bool.false_ne_true] at ha
  obtain ⟨-, rfl⟩ := ofList_eq_ok_iff.mp h
  split at ha
  · rename_i hget
    cases ha
    exact OrderedMap.mem_of_get?_ofList hget
  · cases ha

/-- **Different modules have different targets**, if there are entries. -/
theorem eq_of_target (hne : entries ≠ []) (h : ofList entries = .ok m)
    (ha : m.target a = .ok target) (hb : m.target b = .ok target) : a = b := by
  exact congrArg Prod.fst (List.inj_on_of_nodup_map (ofList_eq_ok_iff.mp h).1
    (mem_of_target hne h ha) (mem_of_target hne h hb) rfl)

end NamespaceMapping

namespace Converter

variable {c : Converter} {roots : List String} {k : Catalog} {n : Namespace} {d : Definition}

/-- A definition **has an object** in a namespace. -/
inductive HasObjectIn (c : Converter) (n : Namespace) : Definition → Prop
  /-- The enumeration type of an enumeration. -/
  | enumType {e : Enumeration} {u : EnumerationType} :
    u ∈ n.enums → c.enumType e = .ok u → HasObjectIn c n (.enumeration e)
  /-- The composite type of a struct. -/
  | composite {s : Struct} {t : CompositeType} :
    t ∈ n.structs → c.composite (.struct s) = .ok t → HasObjectIn c n (.struct s)
  /-- The table of an entity. -/
  | table {e : Entity} {t : Table} :
    t ∈ n.tables → c.table e = .ok t → HasObjectIn c n (.entity e)
  /-- The lookup table of an enumeration. -/
  | lookupTable {e : Enumeration} {t : Table} :
    t ∈ n.tables → c.lookupTable e = .ok t → HasObjectIn c n (.enumeration e)
  /-- The join table of a relationship of an entity. -/
  | joinTable {e : Entity} {f : Field} {item : RelatedItem} {t : Table} : t ∈ n.tables →
    f ∈ e.fields → c.role f.type = .relationship item → c.joinTable e f.name item = .ok t →
      HasObjectIn c n (.entity e)

/-- A catalog **separates modules** when the definitions that have objects in one namespace are of
one module. -/
def SeparatesModules (c : Converter) (k : Catalog) : Prop :=
  ∀ n ∈ k.namespaces, ∀ d ∈ c.registry.types, ∀ d' ∈ c.registry.types,
    c.HasObjectIn n d → c.HasObjectIn n d' → d.moduleName = d'.moduleName

/-! ### The namespace of an object -/

/-- With qualified names, a namespace has the objects whose names have its name. -/
theorem name_eq_of_mem_namespaces (hf : c.options.factory = .plain)
    (hq : c.options.qualifiedNames = true) (h : c.assemble roots = .ok k)
    (hn : n ∈ k.namespaces) :
    (∀ u ∈ n.enums, n.name = u.name.namespaceName.getD "") ∧
      (∀ t ∈ n.structs, n.name = t.name.namespaceName.getD "") ∧
        ∀ t ∈ n.tables, n.name = t.name.namespaceName.getD "" := by
  obtain ⟨types, p, -, hp, rfl⟩ := assemble_eq_ok_iff.mp h
  have hfaithful : c.options.factory.Faithful := hf ▸ ObjectFactory.faithful_plain
  have hkeeps : c.options.factory.KeepsComposites := hf ▸ ObjectFactory.keepsComposites_plain
  rw [group, if_pos hq, hf] at hn
  obtain ⟨htables, hstructs, henums⟩ := PlacedObjects.eq_of_mem_qualifiedCatalog hn
  rw [htables, hstructs, henums]
  refine ⟨fun u hu => ?_, fun t ht => ?_, fun t ht => ?_⟩
  · obtain ⟨e, -, hplaced⟩ :=
      exists_of_mem_right (forall₂_enums hp) (PlacedObjects.mem_inPlace_iff.mp hu)
    exact hplaced.place_eq (enumType_eq_ok hplaced.object).1
  · obtain ⟨structs, -, -, hall⟩ := exists_forall₂_structs hp
    obtain ⟨s, -, hplaced⟩ := exists_of_mem_right hall (PlacedObjects.mem_inPlace_iff.mp ht)
    exact hplaced.place_eq (composite_eq_ok hkeeps hplaced.object).1
  · obtain ⟨origin, -, hplaced⟩ :=
      exists_of_mem_right (forall₂_tables hp) (PlacedObjects.mem_inPlace_iff.mp ht)
    exact place_of_placedTable hfaithful hplaced

/-- With qualified names, namespaces of one name are one. -/
theorem eq_of_name_eq_of_mem_namespaces (hf : c.options.factory = .plain)
    (hq : c.options.qualifiedNames = true) (h : c.assemble roots = .ok k) {n' : Namespace}
    (hn : n ∈ k.namespaces) (hn' : n' ∈ k.namespaces) (hname : n.name = n'.name) : n = n' := by
  obtain ⟨types, p, -, -, rfl⟩ := assemble_eq_ok_iff.mp h
  rw [group, if_pos hq, hf] at hn hn'
  exact List.inj_on_of_nodup_map p.nodup_names_qualifiedCatalog hn hn' hname

/-- **Where the objects of a definition stand**: in the namespace of its module. -/
theorem exists_target_of_hasObjectIn (hf : c.options.factory = .plain)
    (hq : c.options.qualifiedNames = true) (h : c.assemble roots = .ok k)
    (hn : n ∈ k.namespaces) (hd : c.HasObjectIn n d) :
    ∃ target, c.options.namespaces.target d.moduleName = .ok target ∧
      n.name = target.getD "" := by
  obtain ⟨henums, hstructs, htables⟩ := name_eq_of_mem_namespaces hf hq h hn
  have hfaithful : c.options.factory.Faithful := hf ▸ ObjectFactory.faithful_plain
  have hkeeps : c.options.factory.KeepsComposites := hf ▸ ObjectFactory.keepsComposites_plain
  have of_name : ∀ {moduleName named : String} {name : QualifiedName},
      c.qualifiedName moduleName named = .ok name → n.name = name.namespaceName.getD "" →
        ∃ target, c.options.namespaces.target moduleName = .ok target ∧
          n.name = target.getD "" := by
    intro moduleName named name hname hplace
    obtain ⟨target, htarget, rfl⟩ := qualifiedName_eq_ok_iff.mp hname
    exact ⟨target, htarget, hplace⟩
  cases hd with
  | enumType hu hmade => exact of_name (enumType_eq_ok hmade).1 (henums _ hu)
  | composite ht hmade => exact of_name (composite_eq_ok hkeeps hmade).1 (hstructs _ ht)
  | table ht hmade => exact of_name (table_eq_ok hfaithful hmade).1 (htables _ ht)
  | lookupTable ht hmade => exact of_name (lookupTable_eq_ok hfaithful hmade).1 (htables _ ht)
  | joinTable ht _ _ hmade =>
    obtain ⟨named, hname⟩ := (joinTable_eq_ok hfaithful hmade).1
    exact of_name hname (htables _ ht)

/-- **When a catalog separates modules**: no two definitions with objects may be of modules of which
one maps to the default namespace and the other to the namespace that is called like it. -/
theorem separatesModules_iff (hf : c.options.factory = .plain)
    (hq : c.options.qualifiedNames = true) {entries : List (String × Option String)}
    (hne : entries ≠ []) (hm : NamespaceMapping.ofList entries = .ok c.options.namespaces)
    (h : c.assemble roots = .ok k) :
    c.SeparatesModules k ↔ ∀ d ∈ c.registry.types, ∀ d' ∈ c.registry.types,
      (∃ n ∈ k.namespaces, c.HasObjectIn n d) → (∃ n ∈ k.namespaces, c.HasObjectIn n d') →
        c.options.namespaces.target d.moduleName = .ok none →
          c.options.namespaces.target d'.moduleName ≠ .ok (some "") := by
  constructor
  · rintro hseparates d hd d' hd' ⟨n, hn, hobject⟩ ⟨n', hn', hobject'⟩ htarget htarget'
    obtain ⟨target, hd_target, hname⟩ := exists_target_of_hasObjectIn hf hq h hn hobject
    obtain ⟨target', hd_target', hname'⟩ := exists_target_of_hasObjectIn hf hq h hn' hobject'
    rw [htarget] at hd_target
    rw [htarget'] at hd_target'
    cases hd_target
    cases hd_target'
    -- the two namespaces have the empty name, so that they are one
    obtain rfl : n = n' :=
      eq_of_name_eq_of_mem_namespaces hf hq h hn hn' (hname.trans hname'.symm)
    rw [hseparates n hn d hd d' hd' hobject hobject', htarget'] at htarget
    cases htarget
  · intro hapart n hn d hd d' hd' hobject hobject'
    obtain ⟨target, htarget, hname⟩ := exists_target_of_hasObjectIn hf hq h hn hobject
    obtain ⟨target', htarget', hname'⟩ := exists_target_of_hasObjectIn hf hq h hn hobject'
    have hsame : target = target' := by
      rw [hname] at hname'
      match target, target', hname' with
      | none, none, _ => rfl
      | some name, some name', hname' => exact congrArg some hname'
      | none, some name, hname' =>
        cases hname'
        exact absurd htarget' (hapart d hd d' hd' ⟨n, hn, hobject⟩ ⟨n, hn, hobject'⟩ htarget)
      | some name, none, hname' =>
        cases hname'
        exact absurd htarget (hapart d' hd' d hd ⟨n, hn, hobject'⟩ ⟨n, hn, hobject⟩ htarget')
    subst hsame
    exact NamespaceMapping.eq_of_target hne hm htarget htarget'

/-! ### An archive -/

namespace Archive

/-- Letters. -/
def letter : Entity where
  name := "Letter"
  moduleName := "app.letters"
  primaryKey := "id"
  fields := [{ name := "id", type := .primitive .int64 }]

/-- Stamps. -/
def stamp : Entity where
  name := "Stamp"
  moduleName := "app.stamps"
  primaryKey := "id"
  fields := [{ name := "id", type := .primitive .int64 }]

/-- The definitions of an archive. -/
def registry : Registry where
  types := [.entity letter, .entity stamp]
  nodup_names := by decide

/-- The letters are in the default namespace, the stamps in a namespace of their own. -/
def entries (stamps : String) : List (String × Option String) :=
  [("app.letters", none), ("app.stamps", some stamps)]

theorem ofList_entries (stamps : String) : NamespaceMapping.ofList (entries stamps) =
    .ok ⟨OrderedMap.ofList (entries stamps)⟩ := rfl

end Archive

/-- An archive, with a namespace for the stamps. -/
def archive (stamps : String) : Converter where
  registry := Archive.registry
  options := { namespaces := ⟨OrderedMap.ofList (Archive.entries stamps)⟩ }

theorem reachable_archive (stamps : String) : (archive stamps).reachable ["Letter", "Stamp"] =
    .ok (["Letter", "Stamp"].filterMap (archive stamps).registry.get?) := by
  have hnames : Archive.registry.closure ["Letter", "Stamp"] = .ok ["Letter", "Stamp"] := by cbv
  exact reachable_eq_ok hnames (by decide) (by decide)

/-- A namespace of a name that is not empty keeps the stamps from the letters. -/
theorem separatesModules_archive : ∃ k, (archive "stamps").assemble ["Letter", "Stamp"] = .ok k ∧
    k.namespaces.map (fun n => (n.name, n.tables.length)) = [("", 1), ("stamps", 1)] ∧
    (archive "stamps").SeparatesModules k := by
  have hnames : ((archive "stamps").assemble ["Letter", "Stamp"]).toOption.map
      (fun k => k.namespaces.map fun n => (n.name, n.tables.length)) =
        some [("", 1), ("stamps", 1)] := by
    rw [assemble, reachable_archive]
    decide +kernel
  obtain ⟨k, hk, hnames⟩ := exists_eq_ok_of_toOption hnames
  have htargets : ∀ d ∈ (archive "stamps").registry.types,
      ((archive "stamps").options.namespaces.target d.moduleName).toOption ≠ some (some "") := by
    decide
  have hne : Archive.entries "stamps" ≠ [] := List.cons_ne_nil _ _
  exact ⟨k, hk, hnames, (separatesModules_iff rfl rfl hne (Archive.ofList_entries _) hk).mpr
    fun _ _ d' hd' _ _ _ htarget => htargets d' hd' (toOption_eq_some_iff.mpr htarget)⟩

/-- A namespace of the empty name is the default namespace, so that stamps are among the letters,
although the mapping is accepted. -/
theorem not_separatesModules_archive :
    NamespaceMapping.ofList (Archive.entries "") = .ok (archive "").options.namespaces ∧
    ((archive "").options.factory = .plain ∧ (archive "").options.qualifiedNames = true) ∧
    ∃ k, (archive "").assemble ["Letter", "Stamp"] = .ok k ∧ ¬ (archive "").SeparatesModules k := by
  refine ⟨rfl, ⟨rfl, rfl⟩, ?_⟩
  have htables : ((archive "").assemble ["Letter", "Stamp"]).toOption.map
      (fun k => decide (∃ n ∈ k.namespaces,
        (∃ t ∈ n.tables, ((archive "").table Archive.letter).toOption = some t) ∧
          ∃ t ∈ n.tables, ((archive "").table Archive.stamp).toOption = some t)) = some true := by
    rw [assemble, reachable_archive]
    decide +kernel
  obtain ⟨k, hk, htables⟩ := exists_eq_ok_of_toOption htables
  obtain ⟨n, hn, ⟨t, ht, hletter⟩, t', ht', hstamp⟩ := of_decide_eq_true htables
  refine ⟨k, hk, fun hseparates => ?_⟩
  have hmodules := hseparates n hn _ List.mem_cons_self _
    (List.mem_cons_of_mem _ List.mem_cons_self) (.table ht (toOption_eq_some_iff.mp hletter))
    (.table ht' (toOption_eq_some_iff.mp hstamp))
  exact absurd hmodules (by decide)

end Converter

end SchemaCatalog
