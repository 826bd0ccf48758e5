import SchemaCatalog.Assembly
import SchemaCatalog.Proofs.Converter.Role
import SchemaCatalog.Proofs.Registry.Reachability
import SchemaCatalog.Proofs.Sorted

/-!
# The definitions of a catalog

`reachable` lists the definitions of the reachable names, by name (`mem_reachable_iff`,
`sortedBy_reachable`). Which enumerations among them get a lookup table depends on the fields
of the entities: those that a column holds keys of, and those at the far side of a
relationship (`mem_lookupEnums_iff`).
-/

namespace SchemaCatalog.Converter

variable {c : Converter} {roots : List String} {types : List Definition}

/-! ### Reachable definitions -/

/-- **The definitions of a catalog** are those of the reachable names. -/
theorem mem_reachable_iff (h : c.reachable roots = .ok types) {d : Definition} :
    d ∈ types ↔ c.registry.ReachesDefinition roots d := by
  obtain ⟨names, hnames, h⟩ := bind_eq_ok_iff.mp h
  obtain ⟨found, hfound, h⟩ := bind_eq_ok_iff.mp h
  cases pure_eq_ok_iff.mp h
  rw [List.mem_mergeSort, mem_iff_of_mapM hfound]
  simp only [Registry.ReachesDefinition, Registry.resolve_eq_ok_iff,
    ← Registry.mem_closure_iff hnames]
  constructor
  · rintro ⟨n, hn, hd⟩
    obtain rfl := Registry.name_of_get? hd
    exact ⟨hd, hn⟩
  · rintro ⟨hd, hn⟩
    exact ⟨d.name, hn, hd⟩

/-- The definitions in reach are in the order of their names, each once. -/
theorem sortedBy_reachable (h : c.reachable roots = .ok types) :
    SortedBy Definition.name types := by
  obtain ⟨names, hnames, h⟩ := bind_eq_ok_iff.mp h
  obtain ⟨found, hfound, h⟩ := bind_eq_ok_iff.mp h
  cases pure_eq_ok_iff.mp h
  have hkeys : names.map id = found.map Definition.name := by
    refine map_eq_map_of_forall₂ (mapM_eq_ok_iff.mp hfound) fun n d hd => ?_
    exact (Registry.name_of_get? (Registry.resolve_eq_ok_iff.mp hd)).symm
  refine sortedBy_mergeSort ?_
  rw [← hkeys, List.map_id]
  exact Registry.nodup_closure hnames

/-- What is reached is registered, once the names are found. -/
theorem exists_reachable {names : List String} (h : c.registry.closure roots = .ok names) :
    ∃ types, c.reachable roots = .ok types := by
  obtain ⟨found, hfound⟩ : ∃ found, names.mapM c.registry.resolve = .ok found := by
    refine exists_mapM_eq_ok fun n hn => ?_
    obtain ⟨d, hd⟩ := (Registry.search_closure h).registered n hn
    exact ⟨d, Registry.resolve_eq_ok_iff.mpr hd⟩
  exact ⟨_, bind_eq_ok_iff.mpr ⟨names, h, bind_eq_ok_iff.mpr ⟨found, hfound, rfl⟩⟩⟩

/-- The definitions of a catalog are those of the names found, once these are sorted. -/
theorem reachable_eq_ok {names sorted : List String}
    (hnames : c.registry.closure roots = .ok names) (hperm : names.Perm sorted)
    (hsorted : SortedBy id sorted) :
    c.reachable roots = .ok (sorted.filterMap c.registry.get?) := by
  obtain ⟨types, htypes⟩ := exists_reachable hnames
  have hsorted : SortedBy Definition.name (sorted.filterMap c.registry.get?) :=
    hsorted.filterMap fun _ _ => Registry.name_of_get?
  rw [htypes, SortedBy.ext (sortedBy_reachable htypes) hsorted]
  intro d
  rw [mem_reachable_iff htypes, Registry.ReachesDefinition, ← Registry.mem_closure_iff hnames,
    hperm.mem_iff, List.mem_filterMap]
  constructor
  · exact fun ⟨hd, hname⟩ => ⟨d.name, hname, hd⟩
  · rintro ⟨name, hname, hd⟩
    obtain rfl := Registry.name_of_get? hd
    exact ⟨hd, hname⟩

/-! ### The parts of sorted definitions -/

section Parts

/-- A part of some definitions belongs to one of them. -/
theorem mem_parts_iff {α : Type} {part? : Definition → Option α} {whole : α → Definition}
    (h : ∀ {d a}, part? d = some a ↔ d = whole a) {a : α} :
    a ∈ types.filterMap part? ↔ whole a ∈ types := by
  rw [List.mem_filterMap]
  constructor
  · rintro ⟨d, hd, ha⟩
    exact h.mp ha ▸ hd
  · exact fun ha => ⟨whole a, ha, h.mpr rfl⟩

/-- The entities among definitions are those that are entities. -/
theorem mem_entities_iff {e : Entity} :
    e ∈ types.filterMap Definition.entity? ↔ .entity e ∈ types :=
  mem_parts_iff Definition.entity?_eq_some_iff

theorem mem_enumerations_iff {e : Enumeration} :
    e ∈ types.filterMap Definition.enumeration? ↔ .enumeration e ∈ types :=
  mem_parts_iff Definition.enumeration?_eq_some_iff

theorem mem_structs_iff {s : Struct} :
    s ∈ types.filterMap Definition.struct? ↔ .struct s ∈ types :=
  mem_parts_iff Definition.struct?_eq_some_iff

variable (h : SortedBy Definition.name types)
include h

theorem sortedBy_entities : SortedBy Entity.name (types.filterMap Definition.entity?) := by
  refine h.filterMap fun d e he => ?_
  rw [Definition.entity?_eq_some_iff.mp he]
  rfl

theorem sortedBy_enumerations :
    SortedBy Enumeration.name (types.filterMap Definition.enumeration?) := by
  refine h.filterMap fun d e he => ?_
  rw [Definition.enumeration?_eq_some_iff.mp he]
  rfl

theorem sortedBy_structs : SortedBy Struct.name (types.filterMap Definition.struct?) := by
  refine h.filterMap fun d s hs => ?_
  rw [Definition.struct?_eq_some_iff.mp hs]
  rfl

end Parts

/-! ### Enumerations with a lookup table -/

theorem sortedBy_byName (es : List Enumeration) : SortedBy Enumeration.name (byName es) :=
  sortedBy_distinct Enumeration.name es

/-- Nothing is lost by keeping each name once when a name stands for one enumeration. -/
theorem mem_byName_iff {es : List Enumeration}
    (hes : ∀ e ∈ es, c.registry.get? e.name = some (.enumeration e)) {e : Enumeration} :
    e ∈ byName es ↔ e ∈ es := by
  have hmem : ∀ {e}, e ∈ byName es → e ∈ es := fun he =>
    List.mem_mergeSort.mp ((eraseDupsBy_sublist _).mem he)
  -- the kept element of the same name is the enumeration of that name
  refine ⟨hmem, fun he => ?_⟩
  obtain ⟨e', he', hname⟩ : ∃ e' ∈ byName es, (e.name == e'.name) = true :=
    exists_mem_eraseDupsBy (fun a => beq_self_eq_true a.name) (List.mem_mergeSort.mpr he)
  have hget := hes e' (hmem he')
  rw [← beq_iff_eq.mp hname, hes e he] at hget
  cases hget
  exact he'

/-- Where enumerations are relations, a field looks up the enumeration that it refers to or lists.
-/
theorem regularLookup?_eq_some_iff {f : Field} {e : Enumeration} :
    c.regularLookup? f = some e ↔ c.options.enumMode = .relation ∧
      (c.role f.type = .enumeration e ∨ c.role f.type = .relationship (.enumeration e)) := by
  -- a list of an enumeration is a relationship under relations only
  have hlisted : c.role f.type = .relationship (.enumeration e) →
      c.options.enumMode = .relation := enumMode_of_relationship
  unfold regularLookup?
  cases hrole : c.role f.type with
  | relationship item =>
    cases item with
    | entity => simp
    | enumeration e' =>
      rw [hrole] at hlisted
      simpa using fun he => hlisted (by rw [he])
  | _ => simp

theorem extensibleLookup?_eq_some_iff {f : Field} {e : Enumeration} :
    c.extensibleLookup? f = some e ↔ c.role f.type = .extensible e := by
  unfold extensibleLookup?
  cases c.role f.type <;> simp

/-- The enumerations that a field needs a lookup table for are those that it points to. -/
theorem mem_keyItems_or_relationship_iff {f : Field} {e : Enumeration} :
    (.enumeration e ∈ c.keyItems f ∨ c.role f.type = .relationship (.enumeration e)) ↔
      c.regularLookup? f = some e ∨ c.extensibleLookup? f = some e := by
  rw [regularLookup?_eq_some_iff, extensibleLookup?_eq_some_iff]
  have hlisted : c.role f.type = .relationship (.enumeration e) →
      c.options.enumMode = .relation := enumMode_of_relationship
  unfold keyItems
  cases hrole : c.role f.type with
  | relationship item =>
    rw [hrole] at hlisted
    simpa using hlisted
  | enumeration e' => by_cases hmode : c.options.enumMode = .relation <;> simp [hmode, eq_comm]
  | extensible e' => simp [eq_comm]
  | _ => simp

/-- A field of an entity uses only enumerations that are registered. -/
theorem get?_of_lookup {f : Field} {e : Enumeration}
    (h : c.regularLookup? f = some e ∨ c.extensibleLookup? f = some e) :
    c.registry.get? e.name = some (.enumeration e) := by
  have hitem : .enumeration e ∈ (c.role f.type).items := by
    rcases mem_keyItems_or_relationship_iff.mpr h with h | h
    · exact mem_items_of_mem_keyItems h
    · simp [h, FieldRole.items]
  exact (get?_of_mem_items hitem).1

/-- The enumerations of the lookup tables for some fields, in order: `regular` ones, then
`extensible` ones. -/
structure LookupOrder (c : Converter) (fields : List Field)
    (regular extensible : List Enumeration) : Prop where
  /-- Regular ones are sorted by name. -/
  sorted_regular : SortedBy Enumeration.name regular
  /-- Extensible ones are sorted by name. -/
  sorted_extensible : SortedBy Enumeration.name extensible
  /-- The regular ones are those that some field, under relations, holds or lists. -/
  mem_regular : ∀ e, e ∈ regular ↔ ∃ f ∈ fields, c.options.enumMode = .relation ∧
    (c.role f.type = .enumeration e ∨ c.role f.type = .relationship (.enumeration e))
  /-- The extensible ones are those that some field extends, other than regular ones. -/
  mem_extensible : ∀ e, e ∈ extensible ↔
    (∃ f ∈ fields, c.role f.type = .extensible e) ∧ e ∉ regular

/-- The enumerations that are looked up come in two parts, those of regular fields first. -/
theorem lookupEnums_eq (c : Converter) (entities : List Entity) :
    ∃ regular extensible, c.lookupEnums entities = regular ++ extensible ∧
      c.LookupOrder (entities.flatMap Entity.fields) regular extensible := by
  have hregular : ∀ e, e ∈ byName ((entities.flatMap Entity.fields).filterMap c.regularLookup?) ↔
      ∃ f ∈ entities.flatMap Entity.fields, c.regularLookup? f = some e := by
    intro e
    rw [mem_byName_iff (c := c), List.mem_filterMap]
    intro e he
    obtain ⟨f, -, hf⟩ := List.mem_filterMap.mp he
    exact get?_of_lookup (Or.inl hf)
  have hextensible : ∀ e,
      e ∈ byName ((entities.flatMap Entity.fields).filterMap c.extensibleLookup?) ↔
        ∃ f ∈ entities.flatMap Entity.fields, c.extensibleLookup? f = some e := by
    intro e
    rw [mem_byName_iff (c := c), List.mem_filterMap]
    intro e he
    obtain ⟨f, -, hf⟩ := List.mem_filterMap.mp he
    exact get?_of_lookup (Or.inr hf)
  simp only [regularLookup?_eq_some_iff, extensibleLookup?_eq_some_iff] at hregular hextensible
  refine ⟨_, _, rfl, sortedBy_byName _, (sortedBy_byName _).filter _, hregular, fun e => ?_⟩
  rw [List.mem_filter, hextensible]
  refine and_congr_right fun ⟨f, _, hf⟩ => ?_
  -- a name stands for one enumeration, so that comparing names compares enumerations
  have hsame : ∀ r ∈ byName ((entities.flatMap Entity.fields).filterMap c.regularLookup?),
      r.name = e.name → r = e := by
    intro r hr hname
    obtain ⟨g, -, hg⟩ := (hregular r).mp hr
    have hget := get?_of_lookup (Or.inl (regularLookup?_eq_some_iff.mpr hg))
    rw [hname, get?_of_lookup (Or.inr (extensibleLookup?_eq_some_iff.mpr hf))] at hget
    cases hget
    rfl
  rw [Bool.not_eq_true', List.any_eq_false]
  constructor
  · intro h he
    simpa using h e he
  · intro h r hr
    simpa using fun hname => h (hsame r hr hname ▸ hr)

/-- No two lookup tables are for enumerations of one name. -/
theorem nodup_lookupEnums (c : Converter) (entities : List Entity) :
    ((c.lookupEnums entities).map Enumeration.name).Nodup := by
  obtain ⟨regular, extensible, heq, horder⟩ := c.lookupEnums_eq entities
  have hget : ∀ e ∈ regular ++ extensible, c.registry.get? e.name = some (.enumeration e) := by
    intro e he
    rcases List.mem_append.mp he with he | he
    · obtain ⟨f, -, hf⟩ := (horder.mem_regular e).mp he
      exact get?_of_lookup (Or.inl (regularLookup?_eq_some_iff.mpr hf))
    · obtain ⟨⟨f, -, hf⟩, -⟩ := (horder.mem_extensible e).mp he
      exact get?_of_lookup (Or.inr (extensibleLookup?_eq_some_iff.mpr hf))
  rw [heq]
  refine List.Nodup.map_on (fun e he e' he' hname => ?_) (List.nodup_append.mpr
    ⟨horder.sorted_regular.nodup, horder.sorted_extensible.nodup, fun e he e' he' h => ?_⟩)
  · have h := hget e he
    rw [hname, hget e' he'] at h
    cases h
    rfl
  · exact ((horder.mem_extensible e').mp he').2 (h ▸ he)

/-- **Which enumerations get a lookup table**: those that a field of an entity points to. -/
theorem mem_lookupEnums_iff {entities : List Entity} {e : Enumeration} :
    e ∈ c.lookupEnums entities ↔ ∃ owner ∈ entities, ∃ f ∈ owner.fields,
      .enumeration e ∈ c.keyItems f ∨ c.role f.type = .relationship (.enumeration e) := by
  obtain ⟨regular, extensible, heq, horder⟩ := c.lookupEnums_eq entities
  simp only [heq, List.mem_append, mem_keyItems_or_relationship_iff, regularLookup?_eq_some_iff,
    extensibleLookup?_eq_some_iff]
  rw [horder.mem_extensible, horder.mem_regular]
  simp only [List.mem_flatMap]
  grind

end SchemaCatalog.Converter
