import SchemaCatalog.Proofs.Assembly.Declarations

/-!
# The order of composite types

The composite types of a catalog are made in an order in which no struct stands before one that it
mentions. Two things can undo this for the data types of their members. A member may refer to a
struct that its own struct does not mention (`HoldsUnmentioned`), by the key of an entity if names
stand for structs only; and prefixed names bring the types of all namespaces together place by
place, so that the order is kept only within a place. `pairwise_structs` says that nothing else
can.
-/

namespace SchemaCatalog

/-- A composite type **holds** the type of a name when a member, or the items of a member that is
an array, have that type. -/
def CompositeType.Holds (t : CompositeType) (n : QualifiedName) : Prop :=
  ∃ d ∈ t.dataTypes, d.named? = some n

instance (t : CompositeType) (n : QualifiedName) : Decidable (t.Holds n) :=
  inferInstanceAs (Decidable (∃ d ∈ t.dataTypes, d.named? = some n))

/-- The composite types of a namespace stand **dependencies first**: none stands before one that it
holds. -/
def Namespace.DependenciesFirst (n : Namespace) : Prop :=
  n.structs.Pairwise fun a b => ¬ a.Holds b.name

instance (n : Namespace) : Decidable n.DependenciesFirst :=
  inferInstanceAs (Decidable (n.structs.Pairwise fun a b => ¬ a.Holds b.name))

namespace Converter

variable {c : Converter} {roots : List String} {types : List Definition} {p : PlacedObjects}

/-- Structs **mention what they name**: none that is reached refers to another by the key of an
entity only. -/
def MentionsNamed (c : Converter) (roots : List String) : Prop :=
  ∀ s t, c.registry.ReachesDefinition roots (.struct s) →
    c.registry.ReachesDefinition roots (.struct t) →
      ∀ f ∈ s.fields, c.NamesStruct t f.type → t.name ∈ s.mentions

/-- Where keys of entities have simple types, no struct refers to another by a key. -/
theorem mentionsNamed_of_isSimple (hkeys : ∀ e key, .entity e ∈ c.registry.types →
    Registry.keyField e = .ok key → c.registry.isSimple key.type = true) :
    c.MentionsNamed roots := by
  intro s t _ ht f hfield hnames
  exact List.mem_flatMap.mpr ⟨f, hfield, hnames.mem_mentions ht.1 hkeys⟩

/-- The composite types of two structs of which the first does not mention the second. -/
def Independent (c : Converter) (roots : List String) (a b : CompositeType) : Prop :=
  ∃ s t, c.registry.ReachesDefinition roots (.struct s) ∧
    c.registry.ReachesDefinition roots (.struct t) ∧ c.composite (.struct s) = .ok a ∧
      c.composite (.struct t) = .ok b ∧ t.name ∉ s.mentions

/-- The composite types are made so that each is independent of those that come later. -/
theorem pairwise_placed_structs (hr : c.reachable roots = .ok types)
    (hp : c.objects types = .ok p) :
    (p.structs.map Prod.snd).Pairwise (c.Independent roots) := by
  obtain ⟨structs, hstructs, hnone, hplaced⟩ := exists_forall₂_structs hp
  rw [List.pairwise_map]
  by_cases hmode : c.options.structMode = .type
  · have hreached := (mem_structs_of_dependencyOrder hr (hstructs hmode)).2
    have horder := pairwise_dependencyOrder (hstructs hmode)
    refine (pairwise_of_forall₂ hplaced horder).imp ?_
    rintro a b ⟨s, hs, t, ht, ha, hb, hmention⟩
    exact ⟨s, t, (hreached s).mp hs, (hreached t).mp ht, ha.object, hb.object, hmention⟩
  · rw [hnone hmode, List.forall₂_nil_left_iff] at hplaced
    rw [hplaced]
    exact .nil

/-- A composite type is placed in the namespace of its name. -/
theorem place_of_placedStruct (hk : c.options.factory.KeepsComposites)
    (hp : c.objects types = .ok p) : ∀ o ∈ p.structs, o.2.name.namespaceName.getD "" = o.1 := by
  intro o ho
  obtain ⟨structs, -, -, hplaced⟩ := exists_forall₂_structs hp
  obtain ⟨s, -, hs⟩ := exists_of_mem_right hplaced ho
  exact (hs.place_eq (composite_eq_ok hk hs.object).1).symm

/-- A composite type **holds another unmentioned** when it is that of a struct that does not
mention the other struct. If the name of the other stands for its struct only, a field names the
struct nevertheless, which it can do by the key of an entity. -/
def HoldsUnmentioned (c : Converter) (roots : List String) (a b : CompositeType) : Prop :=
  ∃ s t, c.registry.ReachesDefinition roots (.struct s) ∧
    c.registry.ReachesDefinition roots (.struct t) ∧ c.composite (.struct s) = .ok a ∧
      c.composite (.struct t) = .ok b ∧ t.name ∉ s.mentions ∧
        (c.StructName t b.name → ∃ f ∈ s.fields, c.NamesStruct t f.type)

/-- A composite type that holds one that it is independent of holds it unmentioned. -/
theorem holdsUnmentioned_of_independent (hk : c.options.factory.KeepsComposites)
    {a b : CompositeType} (h : c.Independent roots a b) (hholds : a.Holds b.name) :
    c.HoldsUnmentioned roots a b := by
  obtain ⟨s, t, hs, ht, ha, hb, hmention⟩ := h
  refine ⟨s, t, hs, ht, ha, hb, hmention, fun hn => ?_⟩
  obtain ⟨d, hd, hnamed⟩ := hholds
  obtain ⟨f, hfield, hd⟩ := ((composite_eq_ok hk ha).2 d).mp hd
  exact ⟨f, hfield, namesStruct_of_mapMember hn hs hfield hd hnamed⟩

/-- Nothing is held unmentioned where names stand for structs only and structs mention what they
name. -/
theorem not_holdsUnmentioned (hk : c.options.factory.KeepsComposites)
    (hnames : ∀ s n, c.registry.ReachesDefinition roots (.struct s) →
      c.qualifiedName s.moduleName s.name = .ok n → c.StructName s n)
    (hmentions : c.MentionsNamed roots) {a b : CompositeType} :
    ¬ c.HoldsUnmentioned roots a b := by
  rintro ⟨s, t, hs, ht, -, hb, hmention, hnamed⟩
  obtain ⟨f, hfield, hnames⟩ := hnamed (hnames t b.name ht (composite_eq_ok hk hb).1)
  exact hmention (hmentions s t hs ht f hfield hnames)

/-- **The order of composite types**: one stands before a type that it holds only if names are
prefixed and the two are in different namespaces, or it holds the type unmentioned. -/
theorem pairwise_structs (hk : c.options.factory.KeepsComposites) {k : Catalog}
    (h : c.assemble roots = .ok k) : ∀ ns ∈ k.namespaces, ns.structs.Pairwise fun a b =>
      a.Holds b.name →
        (c.options.qualifiedNames = false ∧ a.name.namespaceName ≠ b.name.namespaceName) ∨
          c.HoldsUnmentioned roots a b := by
  obtain ⟨types, p, hr, hp, rfl⟩ := assemble_eq_ok_iff.mp h
  have hstructs := pairwise_placed_structs hr hp
  intro ns hns
  rcases structs_of_mem_group hns with ⟨name, heq⟩ | ⟨hq, heq⟩ <;> rw [heq]
  · exact (PlacedObjects.pairwise_inPlace hstructs).imp fun hind hholds =>
      Or.inr (holdsUnmentioned_of_independent hk hind hholds)
  · have hnodup := (PlacedObjects.covers_places p.structs).nodup
    refine (PlacedObjects.pairwise_byPlaces (fun t => t.name.namespaceName.getD "") hnodup
      (place_of_placedStruct hk hp) hstructs).imp fun {a b} hind hholds => ?_
    -- the order is kept within a place
    by_cases hsame : a.name.namespaceName = b.name.namespaceName
    · have hind := hind (congrArg (Option.getD · "") hsame)
      exact Or.inr (holdsUnmentioned_of_independent hk hind hholds)
    · exact Or.inl ⟨hq, hsame⟩

/-! ### A small gazetteer -/

namespace Gazetteer

/-- Regions have a code. -/
def region : Struct where
  name := "Region"
  moduleName := "app.geo"
  fields := [{ name := "code", type := .primitive .string }]

/-- Countries belong to a region. -/
def country : Struct where
  name := "Country"
  moduleName := "app.ref"
  fields := [{ name := "region", type := .ref "Region" }]

/-- Addresses are in a country. -/
def address : Struct where
  name := "Address"
  moduleName := "app.geo"
  fields := [{ name := "country", type := .ref "Country" }]

/-- Sites have an address. -/
def site : Entity where
  name := "Site"
  moduleName := "app.geo"
  primaryKey := "id"
  fields :=
    [{ name := "id", type := .primitive .int64 }, { name := "address", type := .ref "Address" }]

end Gazetteer

/-- A gazetteer of two modules, each with a namespace of its own, with names of some style. -/
def gazetteer (qualified : Bool) : Converter where
  registry :=
    { types :=
        [.struct Gazetteer.address, .struct Gazetteer.country, .struct Gazetteer.region,
          .entity Gazetteer.site]
      nodup_names := by decide }
  options :=
    { qualifiedNames := qualified
      namespaces := ⟨⟨[("app.geo", some "geo"), ("app.ref", some "ref")], by decide⟩⟩ }

theorem reachable_gazetteer (qualified : Bool) : (gazetteer qualified).reachable ["Site"] =
    .ok (["Address", "Country", "Region", "Site"].filterMap
      (gazetteer qualified).registry.get?) := by
  have hnames : (gazetteer qualified).registry.closure ["Site"] =
      .ok ["Site", "Address", "Country", "Region"] := by
    cbv
  exact reachable_eq_ok hnames (by decide) (by decide)

/-- With qualified names dependencies come first in both namespaces. -/
theorem dependenciesFirst_gazetteer : ∃ k, (gazetteer true).assemble ["Site"] = .ok k ∧
    k.structs.length = 3 ∧ ∀ ns ∈ k.namespaces, ns.DependenciesFirst := by
  have hlength : ((gazetteer true).assemble ["Site"]).toOption.map (fun k =>
      k.structs.length) = some 3 := by
    rw [assemble, reachable_gazetteer]
    decide +kernel
  obtain ⟨k, hk, hlength⟩ := exists_eq_ok_of_toOption hlength
  have hnames : ∀ s n, (gazetteer true).registry.ReachesDefinition ["Site"] (.struct s) →
      (gazetteer true).qualifiedName s.moduleName s.name = .ok n →
        (gazetteer true).StructName s n := by
    intro s n hs hn
    refine ⟨hs.1, hn, List.forall_mem_nil _, fun p => ?_, ?_⟩
    · simp [named?_standardType (gazetteer true).options rfl p]
    · simp [gazetteer, Gazetteer.address, Gazetteer.country, Gazetteer.region, Gazetteer.site,
        Definition.fields, NativeType.customs]
  have hmentions : (gazetteer true).MentionsNamed ["Site"] := by
    refine mentionsNamed_of_isSimple fun e key he hkey => ?_
    simp only [gazetteer, List.mem_cons, reduceCtorEq, Definition.entity.injEq, List.not_mem_nil,
      or_false, false_or] at he
    subst he
    cases hkey
    rfl
  have hstructs := pairwise_structs ObjectFactory.keepsComposites_plain hk
  refine ⟨k, hk, hlength, fun ns hns => (hstructs ns hns).imp fun hholds hheld => ?_⟩
  rcases hholds hheld with ⟨hq, -⟩ | hunmentioned
  · cases hq
  · exact not_holdsUnmentioned ObjectFactory.keepsComposites_plain hnames hmentions hunmentioned

/-- With prefixed names an address stands before the country that it holds. -/
theorem not_dependenciesFirst_gazetteer : ∃ k, (gazetteer false).assemble ["Site"] = .ok k ∧
    ∃ ns ∈ k.namespaces, ¬ ns.DependenciesFirst := by
  have hstructs : ((gazetteer false).assemble ["Site"]).toOption.map (fun k =>
      decide (∃ ns ∈ k.namespaces, ¬ ns.DependenciesFirst)) = some true := by
    rw [assemble, reachable_gazetteer]
    decide +kernel
  obtain ⟨k, hk, hstructs⟩ := exists_eq_ok_of_toOption hstructs
  exact ⟨k, hk, of_decide_eq_true hstructs⟩

/-! ### A small depot -/

/-- A depot, where the key of a parcel is a serial number, and labels refer to their parcel. -/
def depot : Converter where
  registry :=
    { types :=
        [.struct
            { name := "Label", moduleName := "app"
              fields := [{ name := "parcel", type := .ref "Parcel" }] },
          .struct
            { name := "Serial", moduleName := "app"
              fields := [{ name := "code", type := .primitive .string }] },
          .entity
            { name := "Parcel", moduleName := "app", primaryKey := "id"
              fields :=
                [{ name := "id", type := .ref "Serial" },
                  { name := "label", type := .ref "Label" }] }]
      nodup_names := by decide }
  options := {}

/-- A label holds the serial number of its parcel, which it does not mention, and stands before
it. -/
theorem not_dependenciesFirst_depot : ∃ k, depot.assemble ["Parcel"] = .ok k ∧
    ∃ ns ∈ k.namespaces, ¬ ns.DependenciesFirst := by
  have hnames : depot.registry.closure ["Parcel"] = .ok ["Parcel", "Serial", "Label"] := by cbv
  have htypes : depot.reachable ["Parcel"] =
      .ok (["Label", "Parcel", "Serial"].filterMap depot.registry.get?) :=
    reachable_eq_ok hnames (by decide) (by decide)
  have hstructs : (depot.assemble ["Parcel"]).toOption.map (fun k =>
      decide (∃ ns ∈ k.namespaces, ¬ ns.DependenciesFirst)) = some true := by
    rw [assemble, htypes]
    decide +kernel
  obtain ⟨k, hk, hstructs⟩ := exists_eq_ok_of_toOption hstructs
  exact ⟨k, hk, of_decide_eq_true hstructs⟩

end Converter

end SchemaCatalog
