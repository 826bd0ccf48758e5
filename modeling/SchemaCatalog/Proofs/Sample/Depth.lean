import SchemaCatalog.Proofs.Sample.Outcome

/-!
# The depth of a sample

A sample follows keys and structs to its depth, below which it gives up. The depth has no other
effect: whatever is drawn, a deeper sample draws it too, from the same numbers
(`extendedBy_records`, `extendedBy_recordsOf`). One step of drawing keeps this relation of samplers
(`extendedBy_valueWith`), and an induction on the depth takes it to values
(`extendedBy_valueBounded`), from which it passes to fields and records. Laws about all that can be
drawn are therefore stated for samples of every depth.
-/

namespace SchemaCatalog

namespace Sampler

variable {α β : Type}

/-- A sampler is **extended by** another one that draws whatever it draws, from the same numbers,
and goes on from the same position. -/
def ExtendedBy (x y : Sampler α) : Prop :=
  ∀ d drawn, x d = .ok drawn → y d = .ok drawn

namespace ExtendedBy

variable {x y : Sampler α}

theorem refl (x : Sampler α) : x.ExtendedBy x := fun _ _ h => h

/-- A failure is extended by everything. -/
theorem of_fail {e : ConvertError} : (fail e : Sampler α).ExtendedBy x := nofun

/-- A sequence is extended when its steps are, one after the other. -/
theorem bind {f g : α → Sampler β} (hx : x.ExtendedBy y) (hf : ∀ a, (f a).ExtendedBy (g a)) :
    (x >>= f).ExtendedBy (y >>= g) := by
  intro d drawn h
  have hsteps : (x d >>= fun p => f p.1 p.2) = .ok drawn := h
  obtain ⟨p, hp, hdrawn⟩ := bind_eq_ok_iff.mp hsteps
  have hextended : (y d >>= fun p => g p.1 p.2) = .ok drawn :=
    bind_eq_ok_iff.mpr ⟨p, hx d p hp, hf p.1 p.2 drawn hdrawn⟩
  exact hextended

/-- A sequence is extended when what follows its first step is. -/
theorem bind_left {f g : α → Sampler β} (hf : ∀ a, (f a).ExtendedBy (g a)) :
    (x >>= f).ExtendedBy (x >>= g) :=
  (refl x).bind hf

/-- What is drawn may be put into a form. -/
theorem map (hx : x.ExtendedBy y) (f : α → β) :
    (do let a ← x; return f a : Sampler β).ExtendedBy (do let a ← y; return f a) :=
  hx.bind fun _ => refl _

theorem nameOwner (owner : String) (hx : x.ExtendedBy y) :
    (nameOwner owner x).ExtendedBy (nameOwner owner y) :=
  fun d drawn h => mapError_eq_ok_iff.mpr (hx d drawn (mapError_eq_ok_iff.mp h))

theorem replicate (hx : x.ExtendedBy y) :
    ∀ n, (replicate n x).ExtendedBy (replicate n y)
  | 0 => refl _
  | n + 1 => hx.bind fun a => (replicate hx n).map (a :: ·)

theorem mapM {f g : α → Sampler β} (hf : ∀ a, (f a).ExtendedBy (g a)) :
    ∀ as : List α, (as.mapM f).ExtendedBy (as.mapM g)
  | [] => refl _
  | a :: as => by
    rw [List.mapM_cons, List.mapM_cons]
    exact (hf a).bind fun b => (mapM hf as).map (b :: ·)

end ExtendedBy

end Sampler

namespace Sample

open Sampler

/-- The sample at another depth. -/
def atDepth (s : Sample) (depth : Nat) : Sample := { s with depth }

variable {s : Sample} {depth depth' : Nat} {e : Entity}

/-! ### One step -/

section Step

variable {ofType ofType' : NativeType → Sampler Value} (h : ∀ t, (ofType t).ExtendedBy (ofType' t))
include h

theorem extendedBy_fieldWith (f : Field) :
    (fieldWith ofType f).ExtendedBy (fieldWith ofType' f) := by
  unfold fieldWith
  split
  · refine .bind_left fun present => ?_
    split
    · exact h f.type
    · exact .refl _
  · exact h f.type

theorem extendedBy_structDocument (d : Struct) :
    (structDocument ofType d).ExtendedBy (structDocument ofType' d) :=
  (ExtendedBy.mapM (fun f => (extendedBy_fieldWith h f).map _) d.fields).map _

/-- What is drawn for a reference is extended when it is so for the types of keys and of fields. -/
theorem extendedBy_referenceWith (t : NativeType) (name : String) :
    (s.referenceWith ofType t name).ExtendedBy
      ((s.atDepth depth).referenceWith ofType' t name) := by
  have hget : (s.atDepth depth).registry.get? name = s.registry.get? name := rfl
  rw [referenceWith, referenceWith, hget]
  cases s.registry.get? name with
  | none => exact .refl _
  | some found =>
    cases found with
    | enumeration e => exact .refl _
    | entity e =>
      dsimp only
      cases Registry.keyField e with
      | ok key => exact h key.type
      | error err => exact .refl _
    | struct d => exact extendedBy_structDocument h d

omit h in
/-- What is drawn for the member of a union is extended when it is so for every member. -/
theorem extendedBy_memberWith {ts : List NativeType}
    (hts : ∀ t ∈ ts,
      (s.valueWith ofType t).ExtendedBy ((s.atDepth depth).valueWith ofType' t)) (i : Nat) :
    (s.memberWith ofType i ts).ExtendedBy ((s.atDepth depth).memberWith ofType' i ts) := by
  induction ts generalizing i with
  | nil =>
    rw [memberWith, memberWith]
    exact .refl _
  | cons t ts ih =>
    cases i with
    | zero =>
      rw [memberWith, memberWith]
      exact hts t List.mem_cons_self
    | succ i =>
      rw [memberWith, memberWith]
      exact ih (fun u hu => hts u (List.mem_cons_of_mem _ hu)) i

/-- **A step of drawing** is extended when the drawing of values of keys and of structs is. -/
theorem extendedBy_valueWith :
    ∀ t, (s.valueWith ofType t).ExtendedBy ((s.atDepth depth).valueWith ofType' t)
  | .primitive _ | .literal _ | .custom _ _ => by
    rw [valueWith, valueWith]
    exact .refl _
  | .ref name | .forward name => by
    rw [valueWith, valueWith]
    exact extendedBy_referenceWith h _ name
  | .annotated base as => by
    rw [valueWith, valueWith]
    split
    · split
      · exact .refl _
      · exact extendedBy_valueWith base
    · exact extendedBy_valueWith base
  | .list item => by
    have hitem : (s.atDepth depth).registry.enumeration? item.unadorned =
        s.registry.enumeration? item.unadorned := rfl
    rw [valueWith, valueWith, hitem]
    split
    · exact .refl _
    · exact .bind_left fun n => ((extendedBy_valueWith item).replicate n).map Value.list
  | .union members => by
    have hunion : (s.atDepth depth).registry.extensible? (.union members) =
        s.registry.extensible? (.union members) := rfl
    rw [valueWith, valueWith, hunion]
    split
    · exact .refl _
    · split
      · exact .refl _
      · exact .bind_left fun i => extendedBy_memberWith (fun m hm => extendedBy_valueWith m) i

end Step

/-! ### Deeper samples -/

/-- **Following keys and structs deeper** extends what is drawn. -/
theorem extendedBy_valueBounded {n n' : Nat} (hle : n ≤ n') (t : NativeType) :
    (s.valueBounded n t).ExtendedBy ((s.atDepth depth).valueBounded n' t) := by
  induction n generalizing n' t with
  | zero => exact .of_fail
  | succ n ih =>
    obtain ⟨n', rfl⟩ := Nat.exists_eq_succ_of_ne_zero (Nat.ne_zero_of_lt hle)
    exact extendedBy_valueWith (ih (Nat.le_of_succ_le_succ hle)) t

theorem extendedBy_fieldValue (hle : s.depth ≤ depth) (index : Nat) (f : Field) :
    (s.fieldValue e index f).ExtendedBy ((s.atDepth depth).fieldValue e index f) := by
  unfold fieldValue
  refine .nameOwner e.name ?_
  split
  · exact .refl _
  · exact extendedBy_fieldWith (extendedBy_valueBounded hle) f

/-- Filling in fields is extended field by field. -/
theorem extendedBy_fill (hle : s.depth ≤ depth) (index : Nat) (r : Record) (fs : List Field) :
    (s.fill e index r fs).ExtendedBy ((s.atDepth depth).fill e index r fs) := by
  induction fs generalizing r with
  | nil => exact .refl _
  | cons f fs ih =>
    exact (extendedBy_fieldValue hle index f).bind fun v => ih (r.set f.name v)

/-- **A deeper sample** draws all records that a sample draws, from the same numbers. -/
theorem extendedBy_records (hle : s.depth ≤ depth) (e : Entity) :
    (s.records e).ExtendedBy ((s.atDepth depth).records e) :=
  .mapM (fun index => extendedBy_fill hle index Record.empty e.fields) (List.range s.count)

/-- **The depth matters only where it ends the drawing**: records of an entity that are drawn at
some depth are drawn from the same numbers at every greater one. -/
theorem extendedBy_recordsOf (hle : depth ≤ depth') (registry : Registry) (latest : Timestamp)
    (name : String) (count : Nat) :
    (recordsOf registry latest name count depth).ExtendedBy
      (recordsOf registry latest name count depth') := by
  unfold recordsOf
  cases registry.get? name with
  | none => exact .refl _
  | some found =>
    cases found with
    | enumeration _ | struct _ => exact .refl _
    | entity e =>
      intro d drawn h
      -- the sample is created from the numbers in the same way, and then is deeper
      have hcreate : create registry latest count depth' d =
          ((create registry latest count depth d).1.atDepth depth',
            (create registry latest count depth d).2) := rfl
      have hrecords : ((create registry latest count depth' d).1.records e)
          (create registry latest count depth' d).2 = .ok drawn := by
        rw [hcreate]
        exact extendedBy_records hle e _ drawn h
      exact hrecords

end Sample

end SchemaCatalog
