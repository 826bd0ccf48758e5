import SchemaCatalog.Proofs.Assembly.Definitions
import SchemaCatalog.Proofs.Assembly.DependencyOrder
import SchemaCatalog.Proofs.Assembly.Objects
import SchemaCatalog.Proofs.Converter.Agreement

/-!
# A catalog depends on reachable definitions only

The names that some roots reach are closed under mentions, so that two registries that hold
equal definitions under them agree on them. Then the definitions of the catalog are the same,
in the same order (`reachable_congr`), and so is what is made of them (`objects_congr`): the
order of registration, the order and repetition of roots, and what is not reached do not
matter, for catalogs and for errors alike.
-/

namespace SchemaCatalog

open Registry

/-- The reached names are closed under mentions. -/
theorem Registry.agree_of_closure {r r' : Registry} {roots names : List String}
    (h : r.closure roots = .ok names) (hget : ∀ n ∈ names, r.get? n = r'.get? n) :
    Agree r r' names where
  get?_eq := hget
  closed _ hn _ hd _ hm :=
    (mem_closure_iff h).mpr (.mention ((mem_closure_iff h).mp hn) hd hm)

namespace Converter

variable {r r' : Registry} {names : List String} {o : Options} {types : List Definition}

/-! ### Objects of given definitions -/

/-- Some definitions **stand among** some names when they are registered under these. -/
def StandAmong (r : Registry) (names : List String) (types : List Definition) : Prop :=
  ∀ d ∈ types, d.name ∈ names ∧ r.get? d.name = some d

section Objects

variable (h : Agree r r' names) (ht : StandAmong r names types)
include h ht

theorem mentions_subset_of_mem {d : Definition} (hd : d ∈ types) :
    ∀ f ∈ d.fields, f.type.mentions ⊆ names :=
  fun _ hf => h.mentions_subset (ht d hd).1 (ht d hd).2 hf

theorem nativeEnums_congr : nativeEnums ⟨r, o⟩ types = nativeEnums ⟨r', o⟩ types := by
  have hnative : isNative ⟨r, o⟩ types = isNative ⟨r', o⟩ types := by
    funext e
    unfold isNative
    congr 1
    rw [Bool.eq_iff_iff, List.any_eq_true, List.any_eq_true]
    refine exists_congr fun d => and_congr_right fun hd => ?_
    rw [List.any_eq_true, List.any_eq_true]
    refine exists_congr fun f => and_congr_right fun hf => ?_
    rw [plainEnums_congr h (mentions_subset_of_mem h ht hd f hf)]
  unfold nativeEnums
  rw [hnative]

theorem compositeTypes_congr (hn : SortedBy Definition.name types) :
    compositeTypes ⟨r, o⟩ types = compositeTypes ⟨r', o⟩ types := by
  unfold compositeTypes
  dsimp only
  split
  · refine bind_congr_of_ok fun structs hstructs => mapM_congr fun s hs => ?_
    -- the order lists only structs of the given definitions
    have hperm := perm_dependencyOrder (sortedBy_structs hn).nodup_map hstructs
    have hmem := mem_structs_iff.mp (hperm.mem_iff.mp hs)
    rw [composite_congr h (mentions_subset_of_mem h ht hmem)]
    rfl
  · rfl

theorem entityTables_congr :
    entityTables ⟨r, o⟩ (types.filterMap Definition.entity?) =
      entityTables ⟨r', o⟩ (types.filterMap Definition.entity?) := by
  refine mapM_congr fun e he => ?_
  rw [table_congr h (mentions_subset_of_mem h ht (mem_entities_iff.mp he))]
  rfl

theorem lookupTables_congr {native : List Enumeration} :
    lookupTables ⟨r, o⟩ native (types.filterMap Definition.entity?) =
      lookupTables ⟨r', o⟩ native (types.filterMap Definition.entity?) := by
  have hrole : ∀ f ∈ (types.filterMap Definition.entity?).flatMap Entity.fields,
      role ⟨r, o⟩ f.type = role ⟨r', o⟩ f.type := by
    intro f hf
    obtain ⟨e, he, hf⟩ := List.mem_flatMap.mp hf
    exact role_congr h (mentions_subset_of_mem h ht (mem_entities_iff.mp he) f hf)
  have hregular : ((types.filterMap Definition.entity?).flatMap Entity.fields).filterMap
      (regularLookup? ⟨r, o⟩) = ((types.filterMap Definition.entity?).flatMap
        Entity.fields).filterMap (regularLookup? ⟨r', o⟩) :=
    List.filterMap_congr fun f hf => by rw [regularLookup?, regularLookup?, hrole f hf]
  have hextensible : ((types.filterMap Definition.entity?).flatMap Entity.fields).filterMap
      (extensibleLookup? ⟨r, o⟩) = ((types.filterMap Definition.entity?).flatMap
        Entity.fields).filterMap (extensibleLookup? ⟨r', o⟩) :=
    List.filterMap_congr fun f hf => by rw [extensibleLookup?, extensibleLookup?, hrole f hf]
  unfold lookupTables lookupEnums
  dsimp only
  rw [hregular, hextensible]
  refine mapM_congr fun e _ => ?_
  rw [lookupTable_congr r r']
  rfl

theorem joinTables_congr :
    joinTables ⟨r, o⟩ (types.filterMap Definition.entity?) =
      joinTables ⟨r', o⟩ (types.filterMap Definition.entity?) := by
  unfold joinTables
  rw [mapM_congr fun p hp => ?_]
  obtain ⟨e, he, hp⟩ := List.mem_flatMap.mp hp
  obtain ⟨f, hf, rfl⟩ := List.mem_map.mp hp
  have howner := mentions_subset_of_mem h ht (mem_entities_iff.mp he)
  unfold fieldJoin?
  dsimp only
  rw [← role_congr h (howner f hf)]
  cases hrole : role ⟨r, o⟩ f.type with
  | relationship item =>
    have hitem : item ∈ (role ⟨r, o⟩ f.type).items := by rw [hrole]; exact List.mem_cons_self
    obtain ⟨hget, hmention⟩ := get?_of_mem_items hitem
    rw [← item.name_definition] at hget hmention
    dsimp only
    rw [joinTable_congr h howner fun g hg =>
      h.mentions_subset (howner f hf hmention) hget hg]
    rfl
  | _ => rfl

/-- **The objects of definitions** depend on what the definitions mention only. -/
theorem objects_congr (hn : SortedBy Definition.name types) :
    objects ⟨r, o⟩ types = objects ⟨r', o⟩ types := by
  have henums : enumTypes ⟨r, o⟩ types = enumTypes ⟨r', o⟩ types := by
    unfold enumTypes
    rw [nativeEnums_congr h ht]
    rfl
  unfold objects
  dsimp only
  rw [henums, compositeTypes_congr h ht hn, entityTables_congr h ht, nativeEnums_congr h ht,
    lookupTables_congr h ht, joinTables_congr h ht]

end Objects

/-! ### Catalogs of given roots -/

/-- The same names and the same definitions under them give the same definitions in order. -/
theorem reachable_congr {roots roots' names' : List String} (hr : r.closure roots = .ok names)
    (hr' : r'.closure roots' = .ok names') (hnames : ∀ n, n ∈ names ↔ n ∈ names')
    (hget : ∀ n ∈ names, r.get? n = r'.get? n) :
    ∃ types, reachable ⟨r, o⟩ roots = .ok types ∧ reachable ⟨r', o⟩ roots' = .ok types := by
  obtain ⟨types, htypes⟩ := exists_reachable (c := ⟨r, o⟩) hr
  obtain ⟨types', htypes'⟩ := exists_reachable (c := ⟨r', o⟩) hr'
  refine ⟨types, htypes, ?_⟩
  rw [htypes', SortedBy.ext (sortedBy_reachable htypes') (sortedBy_reachable htypes) fun d => ?_]
  rw [mem_reachable_iff htypes, mem_reachable_iff htypes', ReachesDefinition, ReachesDefinition,
    ← mem_closure_iff hr, ← mem_closure_iff hr', ← hnames]
  refine and_congr_left fun hn => ?_
  rw [hget d.name hn]

/-- Catalogs of the same definitions are the same where the registries agree. -/
theorem assemble_eq_of_reachable {roots roots' : List String} (hr : r.closure roots = .ok names)
    (hget : ∀ n ∈ names, r.get? n = r'.get? n) (h : reachable ⟨r, o⟩ roots = .ok types)
    (h' : reachable ⟨r', o⟩ roots' = .ok types) :
    assemble ⟨r, o⟩ roots = assemble ⟨r', o⟩ roots' := by
  have hamong : StandAmong r names types := fun d hd => by
    obtain ⟨hd, hn⟩ := (mem_reachable_iff h).mp hd
    exact ⟨(mem_closure_iff hr).mpr hn, hd⟩
  have hobjects : objects ⟨r, o⟩ types = objects ⟨r', o⟩ types :=
    objects_congr (agree_of_closure hr hget) hamong (sortedBy_reachable h)
  rw [assemble, assemble, h, h']
  change (objects ⟨r, o⟩ types >>= _) = (objects ⟨r', o⟩ types >>= _)
  rw [hobjects]
  rfl

/-- **A catalog depends on the reachable definitions only**: where two registries hold the same
definitions under the names that the roots reach, the catalogs are the same in every order, or
the errors are the same. -/
theorem assemble_congr {roots roots' names' : List String} (hr : r.closure roots = .ok names)
    (hr' : r'.closure roots' = .ok names') (hnames : ∀ n, n ∈ names ↔ n ∈ names')
    (hget : ∀ n ∈ names, r.get? n = r'.get? n) (o : Options) :
    assemble ⟨r, o⟩ roots = assemble ⟨r', o⟩ roots' := by
  obtain ⟨types, htypes, htypes'⟩ := reachable_congr (o := o) hr hr' hnames hget
  exact assemble_eq_of_reachable hr hget htypes htypes'

/-- The order of registration, the order and repetition of the roots, and definitions that are
not reached do not matter, once all that the roots reach is registered. -/
theorem assemble_eq_of_reaches {roots roots' : List String} (hroots : ∀ n, n ∈ roots ↔ n ∈ roots')
    (hget : ∀ n, r.Reaches roots n → r.get? n = r'.get? n) (hr : r.closure roots = .ok names)
    (o : Options) : assemble ⟨r, o⟩ roots = assemble ⟨r', o⟩ roots' := by
  have hget' : ∀ n ∈ names, r.get? n = r'.get? n := fun n hn => hget n ((mem_closure_iff hr).mp hn)
  obtain ⟨names', hr'⟩ : ∃ names', r'.closure roots' = .ok names' := by
    refine exists_closure_iff.mpr fun n hn => ?_
    have hn := (reaches_congr hroots hget).mpr hn
    obtain ⟨d, hd⟩ := exists_closure_iff.mp ⟨names, hr⟩ n hn
    exact ⟨d, hget n hn ▸ hd⟩
  have hnames : ∀ n, n ∈ names ↔ n ∈ names' := fun n => by
    rw [mem_closure_iff hr, mem_closure_iff hr', reaches_congr hroots hget]
  obtain ⟨types, htypes, htypes'⟩ := reachable_congr (o := o) hr hr' hnames hget'
  exact assemble_eq_of_reachable hr hget' htypes htypes'

/-- The blog registered the other way round, with a struct that nothing mentions. -/
def blogReordered : Registry where
  types := blog.registry.types.reverse ++ [.struct ⟨"Draft", "app", [], none⟩]
  nodup_names := by decide

theorem assemble_blogReordered :
    assemble ⟨blog.registry, {}⟩ ["Post"] =
      assemble ⟨blogReordered, {}⟩ ["Kind", "Post", "Post"] := by
  have hr : blog.registry.closure ["Post"] = .ok ["Post", "Tag", "Kind"] := by cbv
  have hr' : blogReordered.closure ["Kind", "Post", "Post"] = .ok ["Kind", "Post", "Tag"] := by cbv
  refine assemble_congr hr hr' (fun n => ?_) (fun n hn => ?_) {}
  · simp only [List.mem_cons, List.not_mem_nil]
    tauto
  · simp only [List.mem_cons, List.not_mem_nil, or_false] at hn
    rcases hn with rfl | rfl | rfl <;> rfl

end Converter

end SchemaCatalog
