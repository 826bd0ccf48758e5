import SchemaCatalog.Proofs.Assembly.Declarations
import SchemaCatalog.Proofs.Assembly.Integrity
import SchemaCatalog.Proofs.Assembly.Uses

/-!
# The names in a catalog

The objects of a catalog other than join tables bear the names of definitions, one each
(`ownDefinitions`), so that no two of them have one name. The name of a join table is put together
from those of an entity, a field and a related type, and nothing keeps it from being the name of
another object: the names of a catalog differ just when those of its join tables differ from each
other and from the names of definitions (`nodup_names_iff`).
-/

namespace SchemaCatalog

/-- The names of the objects of a catalog. -/
def Catalog.names (k : Catalog) : List QualifiedName :=
  k.tables.map Table.name ++ k.structs.map CompositeType.name ++ k.enums.map EnumerationType.name

namespace Converter

variable {c : Converter} {roots : List String} {types : List Definition} {p : PlacedObjects}

/-- The structs that become composite types. -/
def ownStructs (c : Converter) (types : List Definition) : List Struct :=
  if c.options.structMode = .type then types.filterMap Definition.struct? else []

/-- The definitions with an object of their own, among some that are reached: items with tables,
and the structs and enumerations that become types. -/
def ownDefinitions (c : Converter) (types : List Definition) : List Definition :=
  (c.tableItems (types.filterMap Definition.entity?)).map RelatedItem.definition ++
    (c.ownStructs types).map .struct ++ (c.nativeEnums types).map .enumeration

/-- The name of the object of a definition. -/
def ownName (c : Converter) (d : Definition) : Except ConvertError QualifiedName :=
  c.qualifiedName d.moduleName d.name

/-- The names that objects have from the definitions that they are made for. -/
def ownNames (c : Converter) (types : List Definition) : List QualifiedName :=
  (c.ownDefinitions types).filterMap fun d => (c.ownName d).toOption

/-- The names of the join tables for some definitions. -/
def joinNames (c : Converter) (types : List Definition) : List QualifiedName :=
  (c.relationships (types.filterMap Definition.entity?)).filterMap fun r =>
    (c.joinName r.owner r.field.name r.item).toOption

/-! ### The names of objects -/

/-- Names that are given one by one are the names that there are. -/
theorem filterMap_toOption_of_forall₂ {α β γ ε : Type} {f : α → Except ε γ} {name : β → γ}
    {as : List α} {bs : List β} (h : List.Forall₂ (fun a b => f a = .ok (name b)) as bs) :
    as.filterMap (fun a => (f a).toOption) = bs.map name := by
  induction h with
  | nil => rfl
  | cons hab _ ih => rw [List.filterMap_cons, hab, List.map_cons, ← ih]; rfl

/-- The tables bear the names of items and of relationships. -/
theorem names_tables (hf : c.options.factory.Faithful) (hp : c.objects types = .ok p) :
    (p.tables.map Prod.snd).map Table.name =
      ((c.tableItems (types.filterMap Definition.entity?)).map RelatedItem.definition).filterMap
        (fun d => (c.ownName d).toOption) ++ c.joinNames types := by
  obtain ⟨items, joins, htables, hitems, hjoins⟩ := exists_of_forall₂_append (forall₂_tables hp)
  rw [List.forall₂_map_left_iff] at hitems hjoins
  rw [htables, List.map_append, List.map_append, List.map_map, List.map_map]
  congr 1
  · rw [List.filterMap_map]
    refine (filterMap_toOption_of_forall₂ (hitems.imp fun i o ho => ?_)).symm
    have hname := qualifiedName_of_itemTable hf ho.object
    cases i <;> exact hname
  · refine (filterMap_toOption_of_forall₂ (hjoins.imp fun r o ho => ?_)).symm
    have hmade : c.joinTable r.owner r.field.name r.item = .ok o.2 := ho.object
    exact (exists_parts_of_joinTable hf hmade).1

/-- The composite types bear the names of the structs, if structs are types. -/
theorem perm_names_structs (hk : c.options.factory.KeepsComposites)
    (hr : c.reachable roots = .ok types) (hp : c.objects types = .ok p) :
    ((p.structs.map Prod.snd).map CompositeType.name).Perm
      (((c.ownStructs types).map .struct).filterMap fun d => (c.ownName d).toOption) := by
  obtain ⟨structs, hstructs, hnone, hplaced⟩ := exists_forall₂_structs hp
  have hnames : structs.filterMap (fun s => (c.ownName (.struct s)).toOption) =
      (p.structs.map Prod.snd).map CompositeType.name := by
    rw [List.map_map]
    exact filterMap_toOption_of_forall₂ (hplaced.imp fun s o ho =>
      (composite_eq_ok hk ho.object).1)
  have hperm : structs.Perm (c.ownStructs types) := by
    unfold ownStructs
    split
    · have hnodup := (sortedBy_structs (sortedBy_reachable hr)).nodup_map
      exact perm_dependencyOrder hnodup (hstructs ‹_›)
    · rw [hnone ‹_›]
  rw [← hnames, List.filterMap_map]
  exact hperm.filterMap _

/-- The enumeration types bear the names of the enumerations that become types. -/
theorem names_enums (hp : c.objects types = .ok p) :
    (p.enums.map Prod.snd).map EnumerationType.name =
      ((c.nativeEnums types).map .enumeration).filterMap fun d => (c.ownName d).toOption := by
  rw [List.filterMap_map, List.map_map]
  refine (filterMap_toOption_of_forall₂ ((forall₂_enums hp).imp fun e o ho => ?_)).symm
  exact (enumType_eq_ok ho.object).1

/-- **The names in a catalog** are those of definitions and those of join tables. -/
theorem perm_names (hf : c.options.factory.Faithful) (hk : c.options.factory.KeepsComposites)
    (hr : c.reachable roots = .ok types) (hp : c.objects types = .ok p) :
    (c.group p).names.Perm (c.ownNames types ++ c.joinNames types) := by
  obtain ⟨⟨tableNames, htableNames, htables⟩, ⟨structNames, hstructNames, hstructs⟩,
    ⟨enumNames, henumNames, henums⟩⟩ := c.grouped_group p
  have htables : ((c.group p).tables.map Table.name).Perm _ :=
    htables ▸ (PlacedObjects.perm_byPlaces htableNames).map Table.name
  have hstructs : ((c.group p).structs.map CompositeType.name).Perm _ :=
    hstructs ▸ (PlacedObjects.perm_byPlaces hstructNames).map CompositeType.name
  have henums : ((c.group p).enums.map EnumerationType.name).Perm _ :=
    henums ▸ (PlacedObjects.perm_byPlaces henumNames).map EnumerationType.name
  rw [names_tables hf hp] at htables
  rw [names_enums hp] at henums
  refine ((htables.append (hstructs.trans (perm_names_structs hk hr hp))).append henums).trans ?_
  rw [ownNames, ownDefinitions, List.filterMap_append, List.filterMap_append]
  -- the names of join tables stand behind those of the other tables
  simp only [List.append_assoc]
  refine (List.perm_append_comm.trans ?_).append_left _
  rw [List.append_assoc]

/-! ### Names that differ -/

/-- Definitions with an object of their own are registered. -/
theorem get?_of_mem_ownDefinitions (hr : c.reachable roots = .ok types) {d : Definition}
    (hd : d ∈ c.ownDefinitions types) : c.registry.get? d.name = some d := by
  have hget : ∀ d ∈ types, c.registry.get? d.name = some d :=
    fun d hd => ((mem_reachable_iff hr).mp hd).1
  rcases List.mem_append.mp hd with hd | hd
  · rcases List.mem_append.mp hd with hd | hd
    · obtain ⟨i, hi, rfl⟩ := List.mem_map.mp hd
      cases i with
      | entity e => exact hget _ (mem_entities_iff.mp (mem_tableItems_entity_iff.mp hi))
      | enumeration e =>
        obtain ⟨owner, -, f, -, hf⟩ :=
          mem_lookupEnums_iff.mp (mem_tableItems_enumeration_iff.mp hi)
        exact get?_of_lookup (mem_keyItems_or_relationship_iff.mp hf)
    · obtain ⟨s, hs, rfl⟩ := List.mem_map.mp hd
      unfold ownStructs at hs
      split at hs
      · exact hget _ (mem_structs_iff.mp hs)
      · cases hs
  · obtain ⟨e, he, rfl⟩ := List.mem_map.mp hd
    exact hget _ ((mem_nativeEnums_iff hget).mp he).2.1

/-- An enumeration with a lookup table does not become a type as well. -/
theorem not_mem_of_lookupTables {native : List Enumeration} {entities : List Entity}
    {tables : List (String × Table)} (h : c.lookupTables native entities = .ok tables)
    {e : Enumeration} (he : e ∈ c.lookupEnums entities) : e ∉ native := by
  obtain ⟨o, -, ho⟩ := exists_of_mem_left (mapM_eq_ok_iff.mp h) he
  intro hmem
  rw [if_pos (List.any_eq_true.mpr ⟨e, hmem, by simp⟩)] at ho
  cases ho

/-- **No two definitions with an object of their own have one name.** -/
theorem nodup_ownDefinitions (hr : c.reachable roots = .ok types)
    (hp : c.objects types = .ok p) : ((c.ownDefinitions types).map Definition.name).Nodup := by
  obtain ⟨-, -, tables, lookups, joins, -, hlookups, -⟩ := objects_eq_ok_iff.mp hp
  have hsorted := sortedBy_reachable hr
  -- definitions of one name are one definition, so that no definition may come twice
  refine List.Nodup.map_on (fun d hd d' hd' hname => ?_) ?_
  · have hget := get?_of_mem_ownDefinitions hr hd
    rw [hname, get?_of_mem_ownDefinitions hr hd'] at hget
    exact (Option.some.inj hget).symm
  have hitems : ((c.tableItems (types.filterMap Definition.entity?)).map
      RelatedItem.definition).Nodup := by
    refine List.Nodup.of_map Definition.name ?_
    rw [List.map_map]
    simpa [Function.comp_def] using nodup_tableItems hr
  have hstructs : ((c.ownStructs types).map Definition.struct).Nodup := by
    refine List.Nodup.map (fun _ _ => Definition.struct.inj) ?_
    unfold ownStructs
    split
    · exact (sortedBy_structs hsorted).nodup
    · exact List.nodup_nil
  have hnatives : ((c.nativeEnums types).map Definition.enumeration).Nodup :=
    (sortedBy_nativeEnums hsorted).nodup.map fun _ _ => Definition.enumeration.inj
  refine List.nodup_append'.mpr ⟨List.nodup_append'.mpr ⟨hitems, hstructs, ?_⟩, hnatives, ?_⟩
  · intro d hitem hstruct
    obtain ⟨i, -, rfl⟩ := List.mem_map.mp hitem
    obtain ⟨s, -, hs⟩ := List.mem_map.mp hstruct
    cases i <;> cases hs
  · intro d hd hnative
    obtain ⟨e, he, rfl⟩ := List.mem_map.mp hnative
    rcases List.mem_append.mp hd with hitem | hstruct
    · obtain ⟨i, hi, hdefinition⟩ := List.mem_map.mp hitem
      cases i <;> cases hdefinition
      exact not_mem_of_lookupTables hlookups (mem_tableItems_enumeration_iff.mp hi) he
    · obtain ⟨s, -, hs⟩ := List.mem_map.mp hstruct
      cases hs

/-- The objects other than join tables have different names. -/
theorem nodup_ownNames (hr : c.reachable roots = .ok types) (hp : c.objects types = .ok p) :
    (c.ownNames types).Nodup := by
  have hname : ∀ {d n}, (c.ownName d).toOption = some n → n.name = d.name := by
    intro d n hn
    obtain ⟨target, -, rfl⟩ := qualifiedName_eq_ok_iff.mp (toOption_eq_some_iff.mp hn)
    rfl
  refine List.Pairwise.filterMap _ (fun d d' hne n hn n' hn' heq => hne ?_)
    (List.pairwise_map.mp (nodup_ownDefinitions hr hp))
  rw [← hname hn, ← hname hn', heq]

theorem nodup_names_group_iff (hf : c.options.factory.Faithful)
    (hk : c.options.factory.KeepsComposites) (hr : c.reachable roots = .ok types)
    (hp : c.objects types = .ok p) :
    (c.group p).names.Nodup ↔
      (c.joinNames types).Nodup ∧ ∀ n ∈ c.joinNames types, n ∉ c.ownNames types := by
  rw [(perm_names hf hk hr hp).nodup_iff, List.nodup_append', and_iff_right (nodup_ownNames hr hp)]
  exact and_congr_right fun _ => ⟨fun hdisjoint n hjoin hown => hdisjoint hown hjoin,
    fun hdisjoint n hown hjoin => hdisjoint n hjoin hown⟩

/-- **When the names of a catalog differ**: those of join tables have to differ from each other
and from the names that objects have from definitions. -/
theorem nodup_names_iff (hf : c.options.factory.Faithful) (hk : c.options.factory.KeepsComposites)
    (hr : c.reachable roots = .ok types) {k : Catalog} (h : c.assemble roots = .ok k) :
    k.names.Nodup ↔
      (c.joinNames types).Nodup ∧ ∀ n ∈ c.joinNames types, n ∉ c.ownNames types := by
  obtain ⟨types', p, hr', hp, rfl⟩ := assemble_eq_ok_iff.mp h
  rw [hr] at hr'
  cases hr'
  exact nodup_names_group_iff hf hk hr hp

/-- The names in the catalog of the blog differ, that of its join table too. -/
theorem nodup_names_blog : ∃ types k, blog.reachable ["Post"] = .ok types ∧
    blog.assemble ["Post"] = .ok k ∧ (blog.joinNames types).length = 1 ∧ k.names.Nodup := by
  have hnames : ((blog.reachable ["Post"]).toOption.map fun types =>
      ((blog.joinNames types).length, decide ((blog.joinNames types).Nodup ∧
        ∀ n ∈ blog.joinNames types, n ∉ blog.ownNames types))) = some (1, true) := by
    rw [reachable_blog]
    decide +kernel
  obtain ⟨types, hr, hnames⟩ := exists_eq_ok_of_toOption hnames
  obtain ⟨hlength, hnames⟩ := Prod.mk.inj hnames
  obtain ⟨k, hk, -⟩ := assemble_blog
  exact ⟨types, k, hr, hk, hlength, (nodup_names_iff ObjectFactory.faithful_plain
    ObjectFactory.keepsComposites_plain hr hk).mpr (of_decide_eq_true hnames)⟩

/-- A forum with posts and old posts, both of which have tags. -/
def forum : Converter where
  registry :=
    { types :=
        [.entity
            { name := "Tag", moduleName := "app", primaryKey := "id"
              fields := [{ name := "id", type := .primitive .int64 }] },
          .entity
            { name := "Post", moduleName := "app", primaryKey := "id"
              fields :=
                [{ name := "id", type := .primitive .int64 },
                  { name := "old_tags", type := .list (.ref "Tag") }] },
          .entity
            { name := "Post_old", moduleName := "app", primaryKey := "id"
              fields :=
                [{ name := "id", type := .primitive .int64 },
                  { name := "tags", type := .list (.ref "Tag") }] }]
      nodup_names := by decide }
  options := {}

/-- The old tags of posts and the tags of old posts have join tables of one name. -/
theorem not_nodup_names_forum :
    ∃ k, forum.assemble ["Post", "Post_old"] = .ok k ∧ ¬ k.names.Nodup := by
  have hclosure : forum.registry.closure ["Post", "Post_old"] =
      .ok ["Post", "Tag", "Post_old"] := by
    cbv
  have htypes : forum.reachable ["Post", "Post_old"] =
      .ok (["Post", "Post_old", "Tag"].filterMap forum.registry.get?) :=
    reachable_eq_ok hclosure (by decide) (by decide)
  have hnames : (forum.assemble ["Post", "Post_old"]).toOption.map (fun k =>
      decide k.names.Nodup) = some false := by
    rw [assemble, htypes]
    decide +kernel
  obtain ⟨k, hk, hnames⟩ := exists_eq_ok_of_toOption hnames
  exact ⟨k, hk, of_decide_eq_false hnames⟩

/-! ### Names without separators -/

end Converter

/-- The definitions of a registry have **plain names**, without the characters that stand between
the parts of a derived name. -/
def Registry.PlainNames (r : Registry) : Prop :=
  ∀ d ∈ r.types, '_' ∉ d.name.toList ∧ '.' ∉ d.name.toList

/-- What stands before the first separator is determined, and so is the rest. -/
theorem append_cons_inj {α : Type} {a : α} :
    ∀ {l l' r r' : List α}, a ∉ l → a ∉ l' → l ++ a :: r = l' ++ a :: r' → l = l' ∧ r = r'
  | [], [], _, _, _, _, h => ⟨rfl, (List.cons.inj h).2⟩
  | [], _ :: _, _, _, _, hl', h => absurd List.mem_cons_self ((List.cons.inj h).1 ▸ hl')
  | _ :: _, [], _, _, hl, _, h => absurd List.mem_cons_self ((List.cons.inj h).1 ▸ hl)
  | b :: l, b' :: l', r, r', hl, hl', h => by
    obtain ⟨rfl, hrest⟩ := List.cons.inj h
    obtain ⟨rfl, rfl⟩ := append_cons_inj (List.not_mem_of_not_mem_cons hl)
      (List.not_mem_of_not_mem_cons hl') hrest
    exact ⟨rfl, rfl⟩

/-- Three parts are determined by what is put together from them if there is no separator in the
first and in the last. -/
theorem append_cons_append_cons_inj {α : Type} {a : α} {l l' m m' r r' : List α} (hl : a ∉ l)
    (hl' : a ∉ l') (hr : a ∉ r) (hr' : a ∉ r')
    (h : l ++ a :: (m ++ a :: r) = l' ++ a :: (m' ++ a :: r')) : l = l' ∧ m = m' ∧ r = r' := by
  obtain ⟨rfl, hrest⟩ := append_cons_inj hl hl' h
  have hreverse : r.reverse ++ a :: m.reverse = r'.reverse ++ a :: m'.reverse := by
    simpa using congrArg List.reverse hrest
  obtain ⟨hr_eq, hm_eq⟩ := append_cons_inj (by simpa using hr) (by simpa using hr') hreverse
  exact ⟨rfl, List.reverse_inj.mp hm_eq, List.reverse_inj.mp hr_eq⟩

/-- The stem of a plain name ends in the name, after what stands for the namespace. -/
theorem QualifiedName.exists_stem_eq (ns : Option String) (style : NameStyle) :
    ∃ start : List Char, ∀ name : String, '.' ∉ name.toList →
      (QualifiedName.mk ns name style).stem.toList = start ++ name.toList := by
  have hname : ∀ {name : String}, '.' ∉ name.toList →
      name.toList.map (fun ch => if ch = '.' then '_' else ch) = name.toList := by
    intro name hdot
    refine (List.map_congr_left fun ch hch => if_neg ?_).trans (List.map_id _)
    exact fun hch_eq => hdot (hch_eq ▸ hch)
  refine ⟨(QualifiedName.mk ns "" style).stem.toList, fun name hdot => ?_⟩
  cases style <;> cases ns <;>
    simp [stem, underscored, compact, localName, String.toList_map, hname hdot]

namespace Converter

variable {c : Converter} {roots : List String} {types : List Definition}

theorem joinName_eq_ok {owner : Entity} {fieldName : String} {item : RelatedItem}
    {n : QualifiedName} (h : c.joinName owner fieldName item = .ok n) :
    n.name.toList = (QualifiedName.mk n.namespaceName owner.name n.style).stem.toList ++
      '_' :: (fieldName.toList ++ '_' :: item.name.toList) := by
  obtain ⟨stem, hstem, h⟩ := bind_eq_ok_iff.mp h
  obtain ⟨m, hm, hstem⟩ := bind_eq_ok_iff.mp hstem
  obtain ⟨target, htarget, rfl⟩ := qualifiedName_eq_ok_iff.mp h
  obtain ⟨target', htarget', rfl⟩ := qualifiedName_eq_ok_iff.mp hm
  rw [htarget] at htarget'
  cases htarget'
  rw [← pure_eq_ok_iff.mp hstem]
  simp [String.toList_append]

/-- A join table has a separator in its name. -/
theorem mem_name_of_joinName {owner : Entity} {fieldName : String} {item : RelatedItem}
    {n : QualifiedName} (h : c.joinName owner fieldName item = .ok n) : '_' ∈ n.name.toList := by
  rw [joinName_eq_ok h]
  simp

/-- The name of a join table determines the names of entity and field, if names are plain. -/
theorem eq_of_joinName {owner owner' : Entity} {fieldName fieldName' : String}
    {item item' : RelatedItem} {n : QualifiedName}
    (hplain : ∀ name ∈ [owner.name, owner'.name, item.name, item'.name],
      '_' ∉ name.toList ∧ '.' ∉ name.toList)
    (h : c.joinName owner fieldName item = .ok n)
    (h' : c.joinName owner' fieldName' item' = .ok n) :
    owner.name = owner'.name ∧ fieldName = fieldName' := by
  obtain ⟨start, hstart⟩ := QualifiedName.exists_stem_eq n.namespaceName n.style
  simp only [List.forall_mem_cons] at hplain
  obtain ⟨⟨howner, hdot⟩, ⟨howner', hdot'⟩, ⟨hitem, -⟩, ⟨hitem', -⟩, -⟩ := hplain
  have hname := (joinName_eq_ok h).symm.trans (joinName_eq_ok h')
  rw [hstart _ hdot, hstart _ hdot', List.append_assoc, List.append_assoc,
    List.append_cancel_left_eq] at hname
  obtain ⟨howner_eq, hfield_eq, -⟩ := append_cons_append_cons_inj howner howner' hitem hitem' hname
  exact ⟨String.toList_inj.mp howner_eq, String.toList_inj.mp hfield_eq⟩

/-- Different relationships differ in the names of entity or field. -/
theorem pairwise_relationships (hr : c.reachable roots = .ok types)
    (hd : c.registry.DistinctFields) :
    (c.relationships (types.filterMap Definition.entity?)).Pairwise fun r r' =>
      ¬ (r.owner.name = r'.owner.name ∧ r.field.name = r'.field.name) := by
  have hentities := (sortedBy_entities (sortedBy_reachable hr)).nodup_map
  rw [relationships, List.pairwise_flatMap]
  refine ⟨fun e he => ?_, (List.pairwise_map.mp hentities).imp fun hne r hr r' hr' heq => hne ?_⟩
  · have he := (mem_reachable_iff hr).mp (mem_entities_iff.mp he)
    have hfields := hd e (Registry.get?_eq_some_iff.mp he.1).1
    refine List.Pairwise.filterMap _ (fun f f' hne r hr r' hr' heq => hne ?_)
      (List.pairwise_map.mp hfields)
    rw [← (relationship?_eq_some_iff.mp hr).2.2, ← (relationship?_eq_some_iff.mp hr').2.2]
    exact heq.2
  · obtain ⟨f, -, hf⟩ := List.mem_filterMap.mp hr
    obtain ⟨f', -, hf'⟩ := List.mem_filterMap.mp hr'
    rw [← (relationship?_eq_some_iff.mp hf).2.1, ← (relationship?_eq_some_iff.mp hf').2.1]
    exact heq.1

/-- **Plain names are enough**: where no name of a definition contains a separator and the fields
of an entity differ in name, all names of a catalog differ. -/
theorem nodup_names_of_plainNames (hf : c.options.factory.Faithful)
    (hk : c.options.factory.KeepsComposites) (hplain : c.registry.PlainNames)
    (hd : c.registry.DistinctFields) {k : Catalog} (h : c.assemble roots = .ok k) :
    k.names.Nodup := by
  obtain ⟨types, p, hr, hp, rfl⟩ := assemble_eq_ok_iff.mp h
  have hregistered : ∀ {d}, c.registry.get? d.name = some d →
      '_' ∉ d.name.toList ∧ '.' ∉ d.name.toList :=
    fun hget => hplain _ (Registry.get?_eq_some_iff.mp hget).1
  have hsides : ∀ r ∈ c.relationships (types.filterMap Definition.entity?),
      ∀ name ∈ [r.owner.name, r.item.name], '_' ∉ name.toList ∧ '.' ∉ name.toList := by
    intro r hrel
    obtain ⟨howner, hfield, hrole⟩ := mem_relationships_iff.mp hrel
    have howner := (mem_reachable_iff hr).mp (mem_entities_iff.mp howner)
    have hitem : c.registry.ReachesDefinition roots r.item.definition :=
      reachesDefinition_of_mem_items howner hfield (by simp [hrole, FieldRole.items])
    simp only [List.forall_mem_cons]
    exact ⟨hregistered howner.1, r.item.name_definition ▸ hregistered hitem.1,
      List.forall_mem_nil _⟩
  rw [nodup_names_group_iff hf hk hr hp]
  constructor
  · have hpairwise := (pairwise_relationships hr hd).imp_of_mem fun hr hr' hne =>
      And.intro (hsides _ hr) (And.intro (hsides _ hr') hne)
    refine List.Pairwise.filterMap _ ?_ hpairwise
    rintro r r' ⟨hplain, hplain', hne⟩ n hn n' hn' heq
    obtain rfl : n = n' := heq
    refine hne (eq_of_joinName ?_ (toOption_eq_some_iff.mp hn) (toOption_eq_some_iff.mp hn'))
    simp only [List.forall_mem_cons] at hplain hplain' ⊢
    exact ⟨hplain.1, hplain'.1, hplain.2.1, hplain'.2.1, List.forall_mem_nil _⟩
  -- the name of a definition has no separator, that of a join table does
  · intro n hjoin hown
    obtain ⟨r, -, hn⟩ := List.mem_filterMap.mp hjoin
    obtain ⟨d, hd, hn'⟩ := List.mem_filterMap.mp hown
    obtain ⟨target, -, rfl⟩ := qualifiedName_eq_ok_iff.mp (toOption_eq_some_iff.mp hn')
    exact (hregistered (get?_of_mem_ownDefinitions hr hd)).1
      (mem_name_of_joinName (toOption_eq_some_iff.mp hn))

end Converter

end SchemaCatalog
