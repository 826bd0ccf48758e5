import SchemaCatalog.Proofs.Definition
import SchemaCatalog.Proofs.Registry.Lookup

/-!
# Runs of registrations

A run registers definitions one after the other, and a registration that fails leaves the
registry as it is. One call appends a definition of a new name; a definition of a taken name
changes nothing, and it is no error if it repeats the registered one (`add_of_repeats`). By
induction the types after a run are the first definitions of their names, in the order of the
run (`types_run`). Whether the successful calls can be made again depends on the defaults, since
a definition with a default that is not a number does not repeat itself (`run_spec`).
-/

namespace SchemaCatalog

namespace Registry

variable {r : Registry} {d old : Definition} {ds : List Definition}

/-- The registry after a call of `add`: the one it returns, or the old one if it fails. -/
def afterAdd (r : Registry) (d : Definition) : Registry := (r.add d).toOption.getD r

/-- The registry after a run of calls of `add`. -/
def run (r : Registry) (ds : List Definition) : Registry := ds.foldl afterAdd r

/-- The definitions of a run whose calls succeed, in order. -/
def accepted (r : Registry) : List Definition → List Definition
  | [] => []
  | d :: ds =>
    match r.add d with
    | .ok r' => d :: r'.accepted ds
    | .error _ => r.accepted ds

/-! ### One call -/

/-- A definition of a new name is appended. -/
theorem add_of_get?_eq_none (h : r.get? d.name = none) :
    ∃ r', r.add d = .ok r' ∧ r'.types = r.types ++ [d] := by
  unfold add
  split
  · simp_all
  · exact ⟨_, rfl, rfl⟩

/-- A definition of a name that is taken is compared with the one that has it. -/
theorem add_of_get?_eq_some (h : r.get? d.name = some old) :
    r.add d = if old == d then .ok r else .error (.duplicateType d.name) := by
  unfold add
  split <;> simp_all

theorem add_of_repeats (h : r.get? d.name = some old) (hd : d.Repeats old) : r.add d = .ok r := by
  rw [add_of_get?_eq_some h, if_pos (Definition.beq_iff.mpr hd)]

theorem add_of_not_repeats (h : r.get? d.name = some old) (hd : ¬ d.Repeats old) :
    r.add d = .error (.duplicateType d.name) := by
  rw [add_of_get?_eq_some h, if_neg (mt Definition.beq_iff.mp hd)]

theorem types_afterAdd_of_get?_eq_none (h : r.get? d.name = none) :
    (r.afterAdd d).types = r.types ++ [d] := by
  obtain ⟨r', hadd, htypes⟩ := add_of_get?_eq_none h
  rw [afterAdd, hadd]
  exact htypes

theorem afterAdd_of_get?_eq_some (h : r.get? d.name = some old) : r.afterAdd d = r := by
  rw [afterAdd, add_of_get?_eq_some h]
  split <;> rfl

/-- After a call the name of the definition is taken, and the other names mean what they did. -/
theorem get?_afterAdd (r : Registry) (d : Definition) (name : String) :
    (r.afterAdd d).get? name = (r.get? name).or (if d.name = name then some d else none) := by
  cases h : r.get? d.name with
  | none =>
    rw [get?, types_afterAdd_of_get?_eq_none h, List.find?_append, List.find?_singleton]
    simp [get?]
  | some old =>
    rw [afterAdd_of_get?_eq_some h]
    split
    · next hname => rw [← hname, h]; rfl
    · rw [Option.or_none]

/-! ### Runs -/

theorem run_cons (r : Registry) (d : Definition) (ds : List Definition) :
    r.run (d :: ds) = (r.afterAdd d).run ds := rfl

/-- **What a name stands for after a run** is what it stood for before, or else the first definition
of that name in the run. -/
theorem get?_run (r : Registry) (ds : List Definition) (name : String) :
    (r.run ds).get? name = (r.get? name).or (ds.find? fun d => d.name = name) := by
  induction ds generalizing r with
  | nil => exact Option.or_none.symm
  | cons d ds ih =>
    rw [run_cons, ih, get?_afterAdd, Option.or_assoc, List.find?_cons]
    congr 1
    split <;> simp_all

/-- A run appends the first definitions of the names that were not taken before it. -/
theorem types_run_append (r : Registry) (ds : List Definition) :
    (r.run ds).types = r.types ++
      (ds.filter fun d => (r.get? d.name).isNone).eraseDupsBy fun d e => d.name == e.name := by
  induction ds generalizing r with
  | nil => exact (List.append_nil _).symm
  | cons d ds ih =>
    rw [run_cons, ih]
    cases h : r.get? d.name with
    | none =>
      rw [types_afterAdd_of_get?_eq_none h, List.filter_cons_of_pos (by simp [h]),
        List.eraseDupsBy_cons, List.append_assoc, List.singleton_append, List.filter_filter]
      congr 4
      funext e
      by_cases hname : d.name = e.name
      · simp [get?_afterAdd, hname]
      · simp [get?_afterAdd, hname, Ne.symm hname]
    | some old =>
      rw [afterAdd_of_get?_eq_some h, List.filter_cons_of_neg (by simp [h])]

/-- **After a run** of additions the definitions are the first ones of their names, in order. -/
theorem types_run (ds : List Definition) :
    (empty.run ds).types = ds.eraseDupsBy fun d e => d.name == e.name := by
  simp [types_run_append, empty, get?]

/-! ### Making the successful calls again -/

/-- Calls for taken names leave the registry as it is if and only if each of them does. -/
theorem foldlM_add_eq_ok_iff (h : ∀ d ∈ ds, ∃ old, r.get? d.name = some old) :
    ds.foldlM add r = .ok r ↔ ∀ d ∈ ds, r.add d = .ok r := by
  induction ds with
  | nil => simp [pure, Except.pure]
  | cons d ds ih =>
    obtain ⟨old, hold⟩ := h d List.mem_cons_self
    have ih := ih fun e he => h e (List.mem_cons_of_mem d he)
    rw [List.foldlM_cons, List.forall_mem_cons]
    by_cases hd : d.Repeats old
    · rw [add_of_repeats hold hd, ← ih]
      simp [bind, Except.bind]
    · rw [add_of_not_repeats hold hd]
      simp [bind, Except.bind]

/-- A call of a run is accepted, or it is for a taken name and does not repeat what bears it. -/
theorem accepted_cons (r : Registry) (d : Definition) (ds : List Definition) :
    (r.add d = .ok (r.afterAdd d) ∧ r.accepted (d :: ds) = d :: (r.afterAdd d).accepted ds) ∨
      ((r.get? d.name).isSome ∧ r.accepted (d :: ds) = (r.afterAdd d).accepted ds) := by
  cases hadd : r.add d with
  | ok r' => exact .inl (by simp [accepted, afterAdd, hadd, Except.toOption])
  | error err =>
    refine .inr ⟨?_, by simp [accepted, afterAdd, hadd, Except.toOption]⟩
    by_contra hsome
    obtain ⟨r', hok, -⟩ := add_of_get?_eq_none (Option.not_isSome_iff_eq_none.mp hsome)
    rw [hadd] at hok
    cases hok

/-- What is accepted later was accepted in the whole run. -/
theorem accepted_afterAdd_subset (r : Registry) (d : Definition) (ds : List Definition) :
    (r.afterAdd d).accepted ds ⊆ r.accepted (d :: ds) := by
  rcases accepted_cons r d ds with ⟨-, h⟩ | ⟨-, h⟩
  · exact h ▸ List.subset_cons_self _ _
  · exact h ▸ List.Subset.refl _

/-- The first definition of a name that is not taken is accepted. -/
theorem mem_accepted_of_find? {name : String} (hnone : r.get? name = none)
    (hd : ds.find? (fun d => d.name = name) = some d) : d ∈ r.accepted ds := by
  induction ds generalizing r with
  | nil => cases hd
  | cons e ds ih =>
    rw [List.find?_cons] at hd
    split at hd
    · next hname =>
      obtain rfl := Option.some.inj hd
      rcases accepted_cons r e ds with ⟨-, h⟩ | ⟨htaken, -⟩
      · exact h ▸ List.mem_cons_self
      · rw [decide_eq_true_iff.mp hname, hnone] at htaken
        cases htaken
    · next hname =>
      refine accepted_afterAdd_subset r e ds (ih ?_ hd)
      rw [get?_afterAdd, hnone, if_neg (by simpa using hname), Option.or_none]

/-- An accepted definition differs from what bears its name after the run in the signs of zeros
at most. -/
theorem unsigned_of_mem_accepted (hd : d ∈ r.accepted ds) :
    ∃ old, (r.run ds).get? d.name = some old ∧ old.unsigned = d.unsigned := by
  induction ds generalizing r with
  | nil => cases hd
  | cons e ds ih =>
    rcases accepted_cons r e ds with ⟨hadd, h⟩ | ⟨-, h⟩
    · rcases List.mem_cons.mp (h ▸ hd) with rfl | hd
      · cases hold : r.get? d.name with
        | none =>
          refine ⟨d, ?_, rfl⟩
          rw [get?_run, hold, Option.none_or, List.find?_cons_of_pos (by simp)]
        | some old =>
          refine ⟨old, by rw [get?_run, hold, Option.some_or], ?_⟩
          by_contra hne
          rw [add_of_not_repeats hold fun hrep => hne hrep.2] at hadd
          cases hadd
      · exact ih hd
    · exact ih (h ▸ hd)

/-! ### Main result -/

/-- **Runs of registrations.** A call for a new name appends the definition; one for a taken
name changes nothing, and fails unless the definition repeats the registered one. After a run
the types are the first definitions of their names in the order of the run, and the successful
calls can be made again without an effect if and only if no registered definition has a default
that is not a number. -/
theorem run_spec (ds : List Definition) :
    (∀ (r : Registry) (d : Definition),
      (r.get? d.name = none → ∃ r', r.add d = .ok r' ∧ r'.types = r.types ++ [d]) ∧
      ∀ old, r.get? d.name = some old →
        (d.Repeats old → r.add d = .ok r) ∧
        (¬ d.Repeats old → r.add d = .error (.duplicateType d.name))) ∧
    (empty.run ds).types = (ds.eraseDupsBy fun d e => d.name == e.name) ∧
    ((empty.accepted ds).foldlM add (empty.run ds) = .ok (empty.run ds) ↔
      ∀ d ∈ (empty.run ds).types, d.hasNaN = false) := by
  refine ⟨fun r d => ⟨add_of_get?_eq_none, fun old hold => ⟨add_of_repeats hold,
    add_of_not_repeats hold⟩⟩, types_run ds, ?_⟩
  have htaken : ∀ d ∈ empty.accepted ds, ∃ old, (empty.run ds).get? d.name = some old :=
    fun d hd => (unsigned_of_mem_accepted hd).imp fun _ => And.left
  rw [foldlM_add_eq_ok_iff htaken]
  constructor
  · intro hagain d hd
    have hget : (empty.run ds).get? d.name = some d := get?_eq_some_iff.mpr ⟨hd, rfl⟩
    have hfirst : ds.find? (fun e => e.name = d.name) = some d := by
      rwa [get?_run, show empty.get? d.name = none from rfl, Option.none_or] at hget
    by_contra hnan
    have hagain := hagain d (mem_accepted_of_find? rfl hfirst)
    rw [add_of_not_repeats hget (mt Definition.repeats_self_iff.mp hnan)] at hagain
    cases hagain
  · intro hnan d hd
    obtain ⟨old, hold, hunsigned⟩ := unsigned_of_mem_accepted hd
    exact add_of_repeats hold ⟨hnan old (get?_eq_some_iff.mp hold).1, hunsigned⟩

/-- A buoy with the default of its depth. -/
def buoy (depth : Float) : Definition :=
  .entity ⟨"Buoy", "sea", "id",
    [{ name := "id", type := .primitive .int64 },
     { name := "depth", type := .primitive .float64, default := some (.float depth) }], none⟩

/-- Buoys that are registered one after the other: the second repeats the first, the third
does not. -/
def buoys : List Definition := [buoy 0.0, buoy (-0.0), buoy 1.5]

theorem run_spec_buoys :
    (∃ r, empty.add (buoy 0.0) = .ok r ∧ r.types = [buoy 0.0]) ∧
      (empty.run buoys).add (buoy (-0.0)) = .ok (empty.run buoys) ∧
      (empty.run buoys).add (buoy 1.5) = .error (.duplicateType "Buoy") ∧
      (empty.run buoys).types = [buoy 0.0] ∧
      [buoy 0.0, buoy (-0.0)].foldlM add (empty.run buoys) = .ok (empty.run buoys) := by
  obtain ⟨hadd, htypes, hagain⟩ := run_spec buoys
  have hget : (empty.run buoys).get? "Buoy" = some (buoy 0.0) := rfl
  refine ⟨(hadd _ (buoy 0.0)).1 rfl, ((hadd _ (buoy (-0.0))).2 _ hget).1 ⟨rfl, rfl⟩,
    ((hadd _ (buoy 1.5)).2 _ hget).2 ?_, htypes, hagain.mpr ?_⟩
  · rw [← Definition.beq_iff]
    decide
  · rw [htypes]
    exact List.forall_mem_singleton.mpr rfl

/-- A buoy whose depth is not a number cannot be registered again, and one of depth `-0.0` is
accepted for a different one of depth `0.0`. -/
theorem not_add_buoy :
    (∃ r, empty.add (buoy (0.0 / 0.0)) = .ok r ∧
      r.add (buoy (0.0 / 0.0)) = .error (.duplicateType "Buoy")) ∧
      buoy (-0.0) ≠ buoy 0.0 ∧
      ∃ r, empty.add (buoy 0.0) = .ok r ∧ r.add (buoy (-0.0)) = .ok r := by
  refine ⟨⟨_, rfl, rfl⟩, fun h => ?_, _, rfl, rfl⟩
  have hzero : (-0.0 : Float) = 0.0 := by simpa [buoy] using h
  exact absurd hzero (by decide)

end Registry

end SchemaCatalog
