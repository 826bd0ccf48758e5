import SchemaCatalog.Proofs.Registry.Reachability

/-!
# The order of reachable names

`Traversal` is the recursive traversal of the names that some names mention: it lists a name when it
first meets it, then what its definition mentions, and only then the names that come after it. The
search with a list of names to visit finds the same order (`traversal_iff`), since what the search
finds for two lists of names, one after the other, it finds for the second after the first
(`closureFrom_append`), and the traversal of two lists comes apart in the same way
(`Traversal.exists_of_append`). A search fails at a name that is reached and not registered
(`exists_of_closureFrom_eq_error`). So the closure lists the reachable names in the order of the
recursive traversal, unless one of them is not registered (`closure_traversal`).
-/

namespace SchemaCatalog.Registry

/-- The **recursive traversal** of some names, from left to right, that has seen others: it passes
over a name that has been seen; any other name is seen, then those that its definition mentions are
traversed, and then the names that follow. -/
inductive Traversal (r : Registry) : List String → List String → List String → Prop
  /-- Without names nothing more is seen. -/
  | nil {seen : List String} : Traversal r seen [] seen
  /-- A name that has been seen is passed over. -/
  | skip {seen rest result : List String} {name : String} : name ∈ seen →
    Traversal r seen rest result → Traversal r seen (name :: rest) result
  /-- A new name stands before what its definition mentions, and this before what follows. -/
  | visit {seen rest next result : List String} {name : String} {d : Definition} : name ∉ seen →
    r.get? name = some d → Traversal r (seen ++ [name]) d.mentions next →
      Traversal r next rest result → Traversal r seen (name :: rest) result

variable {r : Registry} {roots seen names rest next result : List String} {name : String}

/-! ### One list after the other -/

theorem closureFrom_skip (hs : name ∈ seen) :
    r.closureFrom seen (name :: rest) = r.closureFrom seen rest := by
  rw [closureFrom, dif_pos (by simpa using hs)]

theorem closureFrom_unknown (hs : name ∉ seen) (hd : r.get? name = none) :
    r.closureFrom seen (name :: rest) = .error (.unknownType name) := by
  rw [closureFrom, dif_neg (by simpa using hs)]
  split
  · rfl
  · cases hd.symm.trans ‹_›

theorem closureFrom_visit {d : Definition} (hs : name ∉ seen) (hd : r.get? name = some d) :
    r.closureFrom seen (name :: rest) = r.closureFrom (seen ++ [name]) (d.mentions ++ rest) := by
  rw [closureFrom, dif_neg (by simpa using hs)]
  split
  · cases hd.symm.trans ‹_›
  · cases hd.symm.trans ‹_›
    rfl

/-- **The search for two lists** goes on with the second one where it ends with the first. -/
theorem closureFrom_append :
    r.closureFrom seen (names ++ rest) =
      r.closureFrom seen names >>= fun next => r.closureFrom next rest := by
  fun_induction closureFrom r seen names with
  | case1 seen => rfl
  | case2 seen name names hs ih =>
    rw [List.cons_append, closureFrom_skip (by simpa using hs), ih]
  | case3 seen name names hs hd =>
    rw [List.cons_append, closureFrom_unknown (by simpa using hs) hd]
    rfl
  | case4 seen name names hs d hd ih =>
    rw [List.cons_append, closureFrom_visit (by simpa using hs) hd, ← List.append_assoc, ih]

namespace Traversal

/-- The traversal of two lists goes on with the second one where it ends with the first. -/
theorem exists_of_append (h : Traversal r seen (names ++ rest) result) :
    ∃ next, Traversal r seen names next ∧ Traversal r next rest result := by
  generalize hall : names ++ rest = all at h
  induction h generalizing names with
  | nil =>
    obtain ⟨rfl, rfl⟩ := List.append_eq_nil_iff.mp hall
    exact ⟨_, .nil, .nil⟩
  | @skip seen all result name hs h ih =>
    cases names with
    | nil =>
      obtain rfl : rest = name :: all := hall
      exact ⟨seen, .nil, .skip hs h⟩
    | cons first names =>
      obtain ⟨rfl, hnames⟩ := List.cons.inj hall
      obtain ⟨next, hnext, hresult⟩ := ih hnames
      exact ⟨next, .skip hs hnext, hresult⟩
  | @visit seen all below result name d hs hd hbelow h _ ih =>
    cases names with
    | nil =>
      obtain rfl : rest = name :: all := hall
      exact ⟨seen, .nil, .visit hs hd hbelow h⟩
    | cons first names =>
      obtain ⟨rfl, hnames⟩ := List.cons.inj hall
      obtain ⟨next, hnext, hresult⟩ := ih hnames
      exact ⟨next, .visit hs hd hbelow hnext, hresult⟩

/-- What the traversal lists, the search finds. -/
theorem closureFrom_eq_ok (h : Traversal r seen names result) :
    r.closureFrom seen names = .ok result := by
  induction h with
  | nil => rw [closureFrom]
  | skip hs _ ih => rw [closureFrom_skip hs, ih]
  | visit hs hd _ _ ih ih' =>
    rw [closureFrom_visit hs hd, closureFrom_append, ih]
    exact ih'

end Traversal

/-- **The search finds the names in the order of the recursive traversal.** -/
theorem traversal_iff : Traversal r seen names result ↔ r.closureFrom seen names = .ok result := by
  refine ⟨Traversal.closureFrom_eq_ok, fun h => ?_⟩
  fun_induction closureFrom r seen names with
  | case1 seen =>
    cases h
    exact .nil
  | case2 seen name rest hs ih => exact .skip (by simpa using hs) (ih h)
  | case3 => cases h
  | case4 seen name rest hs d hd ih =>
    -- the names to visit come apart into those of the definition and those that follow
    obtain ⟨next, hnext, hresult⟩ := (ih h).exists_of_append
    exact .visit (by simpa using hs) hd hnext hresult

/-! ### Names that are not registered -/

/-- A search fails at a name that is reached and not registered. -/
theorem exists_of_closureFrom_eq_error (hsearch : Search r roots seen names) {e : ConvertError}
    (h : r.closureFrom seen names = .error e) :
    ∃ name, e = .unknownType name ∧ r.Reaches roots name ∧ r.get? name = none := by
  fun_induction closureFrom r seen names with
  | case1 => cases h
  | case2 seen name rest hs ih => exact ih (hsearch.skip (by simpa using hs)) h
  | case3 seen name rest hs hd =>
    cases h
    exact ⟨name, rfl, hsearch.reaches name (.inr List.mem_cons_self), hd⟩
  | case4 seen name rest hs d hd ih => exact ih (hsearch.visit (by simpa using hs) hd) h

/-- **The closure is the recursive traversal**: it fails, with a name that is not known, exactly
when a reachable name is not registered; otherwise it lists the reachable names, each once, and as
the recursive traversal of the roots does, which has one result only. -/
theorem closure_traversal (r : Registry) (roots : List String) :
    ((∃ name, r.closure roots = .error (.unknownType name)) ↔
      ∃ name, r.Reaches roots name ∧ r.get? name = none) ∧
    ((¬ ∃ name, r.Reaches roots name ∧ r.get? name = none) →
      ∃ names, r.closure roots = .ok names ∧ names.Nodup ∧
        (∀ name, name ∈ names ↔ r.Reaches roots name) ∧
          ∀ result, Traversal r [] roots result ↔ result = names) := by
  have herror : ∀ e, r.closure roots = .error e →
      ∃ name, e = .unknownType name ∧ r.Reaches roots name ∧ r.get? name = none :=
    fun e => exists_of_closureFrom_eq_error (Search.start r roots)
  refine ⟨⟨?_, ?_⟩, fun hknown => ?_⟩
  · rintro ⟨name, h⟩
    obtain ⟨unknown, -, hreached, hget⟩ := herror _ h
    exact ⟨unknown, hreached, hget⟩
  · rintro ⟨unknown, hreached, hget⟩
    cases h : r.closure roots with
    | ok names =>
      obtain ⟨d, hd⟩ := exists_closure_iff.mp ⟨names, h⟩ unknown hreached
      cases hget.symm.trans hd
    | error e =>
      obtain ⟨name, rfl, -⟩ := herror e h
      exact ⟨name, rfl⟩
  · cases h : r.closure roots with
    | error e =>
      obtain ⟨name, -, hunknown⟩ := herror e h
      exact absurd ⟨name, hunknown⟩ hknown
    | ok names =>
      refine ⟨names, rfl, nodup_closure h, fun name => mem_closure_iff h, fun result => ?_⟩
      rw [traversal_iff]
      constructor
      · exact fun hresult => Except.ok.inj (hresult.symm.trans h)
      · rintro rfl
        exact h

/-! ### A small atlas -/

namespace Atlas

/-- Cities are in a country, on a river. -/
def city : Entity where
  name := "City"
  moduleName := "app"
  primaryKey := "id"
  fields :=
    [{ name := "id", type := .primitive .int64 }, { name := "country", type := .ref "Country" },
      { name := "river", type := .ref "River", nullable := true }]

/-- Countries have a flag, rivers and a capital. -/
def country : Entity where
  name := "Country"
  moduleName := "app"
  primaryKey := "id"
  fields :=
    [{ name := "id", type := .primitive .int64 }, { name := "flag", type := .ref "Flag" },
      { name := "rivers", type := .list (.ref "River") },
      { name := "capital", type := .forward "City" }]

/-- Flags have colours. -/
def flag : Struct where
  name := "Flag"
  moduleName := "app"
  fields := [{ name := "colours", type := .list (.primitive .string) }]

/-- Rivers have a mouth. -/
def river : Entity where
  name := "River"
  moduleName := "app"
  primaryKey := "id"
  fields :=
    [{ name := "id", type := .primitive .int64 }, { name := "mouth", type := .ref "City" }]

/-- Roads lead to a town. -/
def road : Entity where
  name := "Road"
  moduleName := "app"
  primaryKey := "id"
  fields := [{ name := "id", type := .primitive .int64 }, { name := "town", type := .ref "Town" }]

end Atlas

/-- An atlas, in which towns are not registered. -/
def atlas : Registry where
  types :=
    [.entity Atlas.road, .entity Atlas.river, .struct Atlas.flag, .entity Atlas.country,
      .entity Atlas.city]
  nodup_names := by decide

/-- From a city the flag of its country comes before its river, which the country mentions too; a
road leads to a name that is not known. -/
theorem closure_traversal_atlas :
    atlas.closure ["City"] = .ok ["City", "Country", "Flag", "River"] ∧
      Traversal atlas [] ["City"] ["City", "Country", "Flag", "River"] ∧
      atlas.Reaches ["City"] "Flag" ∧
      ∃ name, atlas.closure ["City", "Road"] = .error (.unknownType name) := by
  have hclosure : atlas.closure ["City"] = .ok ["City", "Country", "Flag", "River"] := by cbv
  have hknown : ¬ ∃ name, atlas.Reaches ["City"] name ∧ atlas.get? name = none := by
    rintro ⟨name, hreached, hget⟩
    obtain ⟨d, hd⟩ := exists_closure_iff.mp ⟨_, hclosure⟩ name hreached
    cases hget.symm.trans hd
  obtain ⟨names, hnames, -, hmem, horder⟩ := (closure_traversal atlas ["City"]).2 hknown
  obtain rfl := Except.ok.inj (hclosure.symm.trans hnames)
  have hroad : atlas.Reaches ["City", "Road"] "Road" := .root (by simp)
  have htown : atlas.Reaches ["City", "Road"] "Town" :=
    .mention (d := .entity Atlas.road) hroad rfl (by decide)
  exact ⟨hclosure, (horder _).mpr rfl, (hmem _).mp (by decide),
    (closure_traversal atlas ["City", "Road"]).1.mpr ⟨"Town", htown, rfl⟩⟩

end SchemaCatalog.Registry
