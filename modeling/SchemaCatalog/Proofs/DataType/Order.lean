import Mathlib.Order.Bounds.Basic
import SchemaCatalog.DataType.Widening
import SchemaCatalog.Proofs.Result

/-!
# The order of data types

A data type stands below another when the common type of the two is the other one. This is a partial
order: `Widens` lists its pairs, one rule for each way in which the values of a data type fit
another one. Two data types with an upper bound have a least one, which `join?` finds
(`isLUB_of_join?`), and without an upper bound it finds nothing (`exists_join?_of_widens`). So it
is, by induction along the fold, with the types of a list (`foldlM_join?_eq_some_iff`). The common
type of a list is therefore its least upper bound, and neither the order of the list, nor
repetitions, nor common types of parts of it that are formed before make a difference
(`common?_leastUpperBound`).
-/

namespace SchemaCatalog.DataType

variable {a b d u t : DataType} {ts : List DataType}

/-! ### Widths and limits -/

theorem width_le_max_left (l r : UInt8) : l ≤ max l r := by
  rw [UInt8.max_def]
  split
  · assumption
  · exact UInt8.le_refl l

theorem width_le_max_right (l r : UInt8) : r ≤ max l r := by
  rw [UInt8.max_def]
  split
  · exact UInt8.le_refl r
  · exact UInt8.le_of_lt (UInt8.not_le.mp ‹_›)

/-- The greater one of two widths is the least width that is as great as both. -/
theorem max_width_le {l r n : UInt8} (hl : l ≤ n) (hr : r ≤ n) : max l r ≤ n := by
  rw [UInt8.max_def]
  split
  · exact hr
  · exact hl

/-- A limit is **at most** another one when the other is no limit or is not smaller. -/
def LimitLe : Option UInt32 → Option UInt32 → Prop
  | _, none => True
  | some a, some b => a ≤ b
  | none, some _ => False

namespace LimitLe

variable {l m n : Option UInt32}

/-- A limit is within itself. -/
theorem refl (l : Option UInt32) : LimitLe l l := by
  cases l with
  | none => trivial
  | some a => exact UInt32.le_refl a

theorem trans (h : LimitLe l m) (h' : LimitLe m n) : LimitLe l n := by
  cases n with
  | none => cases l <;> trivial
  | some c =>
    match l, m, h, h' with
    | some _, some _, h, h' => exact UInt32.le_trans h h'

theorem antisymm (h : LimitLe l m) (h' : LimitLe m l) : l = m := by
  match l, m, h, h' with
  | none, none, _, _ => rfl
  | some _, some _, h, h' => exact congrArg some (UInt32.le_antisymm h h')

end LimitLe

/-- The greater one of two limits is as great as the first. -/
theorem left_limitLe (l r : Option UInt32) : LimitLe l (maxLimit l r) := by
  cases l <;> cases r <;> simp [maxLimit, LimitLe]
  grind [UInt32.max_def]

theorem right_limitLe (l r : Option UInt32) : LimitLe r (maxLimit l r) := by
  cases l <;> cases r <;> simp [maxLimit, LimitLe]
  grind [UInt32.max_def]

/-- The greater one of two limits is the least limit that is as great as both. -/
theorem maxLimit_le {l r n : Option UInt32} (hl : LimitLe l n) (hr : LimitLe r n) :
    LimitLe (maxLimit l r) n := by
  cases n with
  | none => cases l <;> cases r <;> trivial
  | some c =>
    match l, r, hl, hr with
    | some _, some _, hl, hr =>
      simp only [maxLimit, LimitLe] at hl hr ⊢
      grind [UInt32.max_def]

/-! ### The order -/

/-- A data type **widens** to another when that one holds its values. -/
inductive Widens : DataType → DataType → Prop
  /-- Every data type holds its own values. -/
  | refl (d : DataType) : Widens d d
  /-- Wider integers hold narrower ones. -/
  | integer {l r : UInt8} : l ≤ r → Widens (integer l) (integer r)
  /-- Double precision holds single precision. -/
  | real : Widens real double
  /-- Longer strings of a fixed length hold shorter ones. -/
  | fixedCharacter {l r : Option UInt32} : LimitLe l r →
    Widens (fixedCharacter l) (fixedCharacter r)
  /-- Strings of a variable length hold those of a fixed length. -/
  | varyingCharacter {l r : Option UInt32} : LimitLe l r →
    Widens (fixedCharacter l) (variableCharacter r)
  /-- A larger limit holds the strings of a smaller one. -/
  | variableCharacter {l r : Option UInt32} : LimitLe l r →
    Widens (variableCharacter l) (variableCharacter r)
  /-- Longer byte strings of a fixed length hold shorter ones. -/
  | fixedBinary {l r : Option UInt32} : LimitLe l r → Widens (fixedBinary l) (fixedBinary r)
  /-- Byte strings of a variable length hold those of a fixed length. -/
  | varyingBinary {l r : Option UInt32} : LimitLe l r → Widens (fixedBinary l) (variableBinary r)
  /-- A larger limit holds the byte strings of a smaller one. -/
  | variableBinary {l r : Option UInt32} : LimitLe l r →
    Widens (variableBinary l) (variableBinary r)

namespace Widens

/-- **Widening is transitive**: what fits a data type fits all that are wider. -/
theorem trans (h : Widens a b) (h' : Widens b d) : Widens a d := by
  cases h with
  | refl => exact h'
  | integer h =>
    cases h' with
    | refl => exact .integer h
    | integer h' => exact .integer (UInt8.le_trans h h')
  | real =>
    cases h' with
    | refl => exact .real
  | fixedCharacter h =>
    cases h' with
    | refl => exact .fixedCharacter h
    | fixedCharacter h' => exact .fixedCharacter (h.trans h')
    | varyingCharacter h' => exact .varyingCharacter (h.trans h')
  | varyingCharacter h =>
    cases h' with
    | refl => exact .varyingCharacter h
    | variableCharacter h' => exact .varyingCharacter (h.trans h')
  | variableCharacter h =>
    cases h' with
    | refl => exact .variableCharacter h
    | variableCharacter h' => exact .variableCharacter (h.trans h')
  | fixedBinary h =>
    cases h' with
    | refl => exact .fixedBinary h
    | fixedBinary h' => exact .fixedBinary (h.trans h')
    | varyingBinary h' => exact .varyingBinary (h.trans h')
  | varyingBinary h =>
    cases h' with
    | refl => exact .varyingBinary h
    | variableBinary h' => exact .varyingBinary (h.trans h')
  | variableBinary h =>
    cases h' with
    | refl => exact .variableBinary h
    | variableBinary h' => exact .variableBinary (h.trans h')

/-- Data types that widen each other are equal. -/
theorem antisymm (h : Widens a b) (h' : Widens b a) : a = b := by
  cases h with
  | refl => rfl
  | real => cases h'
  | varyingCharacter | varyingBinary => cases h'
  | integer h =>
    cases h' with
    | refl => rfl
    | integer h' => rw [UInt8.le_antisymm h h']
  | fixedCharacter h =>
    cases h' with
    | refl => rfl
    | fixedCharacter h' => rw [h.antisymm h']
  | variableCharacter h =>
    cases h' with
    | refl => rfl
    | variableCharacter h' => rw [h.antisymm h']
  | fixedBinary h =>
    cases h' with
    | refl => rfl
    | fixedBinary h' => rw [h.antisymm h']
  | variableBinary h =>
    cases h' with
    | refl => rfl
    | variableBinary h' => rw [h.antisymm h']

end Widens

/-! ### The common type of two data types -/

/-- The data type that two different ones are joined to is wider than both. -/
theorem widens_of_joinDistinct? (h : joinDistinct? a b = some d) : Widens a d ∧ Widens b d := by
  cases a <;> cases b <;> cases h
  · exact ⟨.integer (width_le_max_left _ _), .integer (width_le_max_right _ _)⟩
  · exact ⟨.real, .refl _⟩
  · exact ⟨.refl _, .real⟩
  · exact ⟨.fixedBinary (left_limitLe _ _), .fixedBinary (right_limitLe _ _)⟩
  · exact ⟨.varyingBinary (left_limitLe _ _), .variableBinary (right_limitLe _ _)⟩
  · exact ⟨.variableBinary (left_limitLe _ _), .varyingBinary (right_limitLe _ _)⟩
  · exact ⟨.variableBinary (left_limitLe _ _), .variableBinary (right_limitLe _ _)⟩
  · exact ⟨.fixedCharacter (left_limitLe _ _), .fixedCharacter (right_limitLe _ _)⟩
  · exact ⟨.varyingCharacter (left_limitLe _ _), .variableCharacter (right_limitLe _ _)⟩
  · exact ⟨.variableCharacter (left_limitLe _ _), .varyingCharacter (right_limitLe _ _)⟩
  · exact ⟨.variableCharacter (left_limitLe _ _), .variableCharacter (right_limitLe _ _)⟩

/-- The common type of two data types holds the values of both. -/
theorem widens_of_join? (h : join? a b = some d) : Widens a d ∧ Widens b d := by
  unfold join? at h
  split at h
  · rename_i hab
    cases h
    exact ⟨.refl a, hab ▸ .refl a⟩
  · exact widens_of_joinDistinct? h

/-- Two data types have a common type no larger than any that holds the values of both. -/
theorem exists_joinDistinct?_of_widens (hne : a ≠ b) (ha : Widens a u) (hb : Widens b u) :
    ∃ d, joinDistinct? a b = some d ∧ Widens d u := by
  cases ha with
  | refl =>
    cases hb with
    | refl => exact absurd rfl hne
    | real => exact ⟨_, rfl, .refl _⟩
    | integer hr => exact ⟨_, rfl, .integer (max_width_le (UInt8.le_refl _) hr)⟩
    | fixedCharacter hr => exact ⟨_, rfl, .fixedCharacter (maxLimit_le (.refl _) hr)⟩
    | varyingCharacter hr | variableCharacter hr =>
      exact ⟨_, rfl, .variableCharacter (maxLimit_le (.refl _) hr)⟩
    | fixedBinary hr => exact ⟨_, rfl, .fixedBinary (maxLimit_le (.refl _) hr)⟩
    | varyingBinary hr | variableBinary hr =>
      exact ⟨_, rfl, .variableBinary (maxLimit_le (.refl _) hr)⟩
  | real =>
    cases hb with
    | refl => exact ⟨_, rfl, .refl _⟩
    | real => exact absurd rfl hne
  | integer hl =>
    cases hb with
    | refl => exact ⟨_, rfl, .integer (max_width_le hl (UInt8.le_refl _))⟩
    | integer hr => exact ⟨_, rfl, .integer (max_width_le hl hr)⟩
  | fixedCharacter hl =>
    cases hb with
    | refl => exact ⟨_, rfl, .fixedCharacter (maxLimit_le hl (.refl _))⟩
    | fixedCharacter hr => exact ⟨_, rfl, .fixedCharacter (maxLimit_le hl hr)⟩
  | varyingCharacter hl =>
    cases hb with
    | refl => exact ⟨_, rfl, .variableCharacter (maxLimit_le hl (.refl _))⟩
    | varyingCharacter hr => exact ⟨_, rfl, .varyingCharacter (maxLimit_le hl hr)⟩
    | variableCharacter hr => exact ⟨_, rfl, .variableCharacter (maxLimit_le hl hr)⟩
  | variableCharacter hl =>
    cases hb with
    | refl => exact ⟨_, rfl, .variableCharacter (maxLimit_le hl (.refl _))⟩
    | varyingCharacter hr | variableCharacter hr =>
      exact ⟨_, rfl, .variableCharacter (maxLimit_le hl hr)⟩
  | fixedBinary hl =>
    cases hb with
    | refl => exact ⟨_, rfl, .fixedBinary (maxLimit_le hl (.refl _))⟩
    | fixedBinary hr => exact ⟨_, rfl, .fixedBinary (maxLimit_le hl hr)⟩
  | varyingBinary hl =>
    cases hb with
    | refl => exact ⟨_, rfl, .variableBinary (maxLimit_le hl (.refl _))⟩
    | varyingBinary hr => exact ⟨_, rfl, .varyingBinary (maxLimit_le hl hr)⟩
    | variableBinary hr => exact ⟨_, rfl, .variableBinary (maxLimit_le hl hr)⟩
  | variableBinary hl =>
    cases hb with
    | refl => exact ⟨_, rfl, .variableBinary (maxLimit_le hl (.refl _))⟩
    | varyingBinary hr | variableBinary hr =>
      exact ⟨_, rfl, .variableBinary (maxLimit_le hl hr)⟩

/-- Two data types have a common type no larger than any that holds the values of both. -/
theorem exists_join?_of_widens (ha : Widens a u) (hb : Widens b u) :
    ∃ d, join? a b = some d ∧ Widens d u := by
  unfold join?
  split
  · exact ⟨a, rfl, ha⟩
  · exact exists_joinDistinct?_of_widens ‹_› ha hb

/-- A data type widens to another when the common type of the two is the other one. -/
theorem join?_eq_right_iff : join? a b = some b ↔ Widens a b := by
  refine ⟨fun h => (widens_of_join? h).1, fun h => ?_⟩
  obtain ⟨d, hd, hdb⟩ := exists_join?_of_widens h (.refl b)
  rw [hd, hdb.antisymm (widens_of_join? hd).2]

/-! ### The common type of a list -/

/-- A common type is what the fold along a list finds. -/
theorem common?_eq_ok_iff : common? (t :: ts) = .ok u ↔ ts.foldlM join? t = some u := by
  unfold common?
  dsimp only
  split <;> simp_all

theorem common?_pair_eq_ok_iff : common? [a, b] = .ok d ↔ join? a b = some d := by
  rw [common?_eq_ok_iff, List.foldlM_cons]
  cases join? a b <;> rfl

/-- A data type stands **below** another when the other one is the common type of the two. -/
instance : PartialOrder DataType where
  le a b := common? [a, b] = .ok b
  le_refl a := common?_pair_eq_ok_iff.mpr (join?_eq_right_iff.mpr (.refl a))
  le_trans a b d h h' := by
    rw [common?_pair_eq_ok_iff, join?_eq_right_iff] at h h' ⊢
    exact h.trans h'
  le_antisymm a b h h' := by
    rw [common?_pair_eq_ok_iff, join?_eq_right_iff] at h h'
    exact h.antisymm h'

theorem le_iff_common? : a ≤ b ↔ common? [a, b] = .ok b := Iff.rfl

/-- The order is widening. -/
theorem le_iff_widens : a ≤ b ↔ Widens a b := by
  rw [le_iff_common?, common?_pair_eq_ok_iff, join?_eq_right_iff]

/-- **What two data types are joined to is their least upper bound.** -/
theorem isLUB_of_join? (h : join? a b = some d) : IsLUB {a, b} d := by
  obtain ⟨ha, hb⟩ := widens_of_join? h
  refine isLUB_iff_le_iff.mpr fun u => ⟨fun hd => ?_, fun hu => ?_⟩
  · rintro x (rfl | rfl)
    · exact (le_iff_widens.mpr ha).trans hd
    · exact (le_iff_widens.mpr hb).trans hd
  -- the common type that is found for an upper bound is this one
  · obtain ⟨d', hd', hle⟩ := exists_join?_of_widens (le_iff_widens.mp (hu (Or.inl rfl)))
      (le_iff_widens.mp (hu (Or.inr rfl)))
    rw [h] at hd'
    cases hd'
    exact le_iff_widens.mpr hle

theorem isLUB_pair_iff : IsLUB {a, b} d ↔ ∀ u, d ≤ u ↔ a ≤ u ∧ b ≤ u := by
  simp [isLUB_iff_le_iff, upperBounds]

theorem mem_upperBounds_cons :
    u ∈ upperBounds {x | x ∈ t :: ts} ↔ t ≤ u ∧ u ∈ upperBounds {x | x ∈ ts} := by
  simp [upperBounds]

/-- **The fold** finds the least upper bound of a list, if the list has an upper bound. -/
theorem foldlM_join?_eq_some_iff :
    ts.foldlM join? t = some u ↔ IsLUB {x | x ∈ t :: ts} u := by
  induction ts generalizing t with
  | nil =>
    have hsingle : {x | x ∈ [t]} = {t} := by simp
    rw [hsingle]
    constructor
    · exact fun h => Option.some.inj h ▸ isLUB_singleton
    · exact fun h => congrArg some (isLUB_singleton.unique h)
  | cons x ts ih =>
    rw [List.foldlM_cons]
    cases hd : join? t x with
    | some d =>
      have hpair := isLUB_pair_iff.mp (isLUB_of_join? hd)
      refine ih.trans (isLUB_congr (Set.ext fun v => ?_))
      rw [mem_upperBounds_cons, mem_upperBounds_cons, mem_upperBounds_cons, hpair, and_assoc]
    | none =>
      refine iff_of_false nofun fun h => ?_
      obtain ⟨ht, hrest⟩ := mem_upperBounds_cons.mp h.1
      obtain ⟨hx, -⟩ := mem_upperBounds_cons.mp hrest
      obtain ⟨d, hd', -⟩ := exists_join?_of_widens (le_iff_widens.mp ht) (le_iff_widens.mp hx)
      rw [hd] at hd'
      cases hd'

/-- The common type of a list that is not empty is its least upper bound. -/
theorem common?_eq_ok_iff_isLUB (hne : ts ≠ []) :
    common? ts = .ok u ↔ IsLUB {t | t ∈ ts} u := by
  obtain ⟨t, ts, rfl⟩ := List.exists_cons_of_ne_nil hne
  rw [common?_eq_ok_iff, foldlM_join?_eq_some_iff]

/-- Data types with an upper bound have a common type. -/
theorem exists_common?_of_mem_upperBounds (hne : ts ≠ []) (hu : u ∈ upperBounds {t | t ∈ ts}) :
    ∃ d, common? ts = .ok d := by
  obtain ⟨t, ts, rfl⟩ := List.exists_cons_of_ne_nil hne
  simp only [common?_eq_ok_iff]
  clear hne
  induction ts generalizing t with
  | nil => exact ⟨t, rfl⟩
  | cons x ts ih =>
    obtain ⟨ht, hrest⟩ := mem_upperBounds_cons.mp hu
    obtain ⟨hx, hrest⟩ := mem_upperBounds_cons.mp hrest
    obtain ⟨d, hd, hdu⟩ := exists_join?_of_widens (le_iff_widens.mp ht) (le_iff_widens.mp hx)
    rw [List.foldlM_cons, hd]
    exact ih d (mem_upperBounds_cons.mpr ⟨le_iff_widens.mpr hdu, hrest⟩)

/-- Where there is no common type, the error says so. -/
theorem exists_text_of_common?_eq_error {e : FormationError} (h : common? ts = .error e) :
    ∃ text, e = .incompatible text := by
  unfold common? at h
  split at h
  · exact ⟨_, (Except.error.inj h).symm⟩
  · split at h
    · cases h
    · exact ⟨_, (Except.error.inj h).symm⟩

/-- The common type depends only on which data types are listed. -/
theorem toOption_common?_congr {ts' : List DataType} (h : ∀ t, t ∈ ts' ↔ t ∈ ts) :
    (common? ts').toOption = (common? ts).toOption := by
  by_cases hne : ts = []
  · rw [hne] at h ⊢
    rw [List.eq_nil_iff_forall_not_mem.mpr fun t ht => List.not_mem_nil ((h t).mp ht)]
  · obtain ⟨t, ht⟩ := List.exists_mem_of_ne_nil ts hne
    have hne' : ts' ≠ [] := List.ne_nil_of_mem ((h t).mpr ht)
    refine toOption_eq_toOption_iff.mpr fun u => ?_
    rw [common?_eq_ok_iff_isLUB hne, common?_eq_ok_iff_isLUB hne']
    exact isLUB_congr (Set.ext fun v => by simp [upperBounds, h])

section Groups

variable {groups : List (List DataType)} {types : List DataType}

/-- The common types of groups have the upper bounds that the groups have. -/
theorem upperBounds_of_groups (hne : [] ∉ groups)
    (h : List.Forall₂ (fun group d => common? group = .ok d) groups types) :
    upperBounds {t | t ∈ types} = upperBounds {t | t ∈ groups.flatten} := by
  ext v
  induction h with
  | nil => simp
  | @cons group d groups types hd _ ih =>
    obtain ⟨hgroup, hgroups⟩ := not_or.mp (mt List.mem_cons.mpr hne)
    have hlub := isLUB_iff_le_iff.mp ((common?_eq_ok_iff_isLUB (Ne.symm hgroup)).mp hd) v
    rw [mem_upperBounds_cons, ih hgroups, hlub]
    simp only [upperBounds, Set.mem_ofPred_eq, List.flatten_cons, List.mem_append, or_imp,
      forall_and]

/-- **Grouping**: the common type of the common types of groups is that of all of them. -/
theorem toOption_common?_groups (hne : [] ∉ groups) :
    (groups.mapM common? >>= common?).toOption = (common? groups.flatten).toOption := by
  by_cases hnil : groups = []
  · rw [hnil]
    rfl
  obtain ⟨group, hgroup⟩ := List.exists_mem_of_ne_nil groups hnil
  have hflat : groups.flatten ≠ [] := by
    obtain ⟨t, ht⟩ := List.exists_mem_of_ne_nil group fun h => hne (h ▸ hgroup)
    exact List.ne_nil_of_mem (List.mem_flatten.mpr ⟨group, hgroup, ht⟩)
  have htypes : ∀ {types}, List.Forall₂ (fun group d => common? group = .ok d) groups types →
      types ≠ [] := by
    intro types h
    obtain ⟨d, hd, -⟩ := exists_of_mem_left h hgroup
    exact List.ne_nil_of_mem hd
  refine toOption_eq_toOption_iff.mpr fun u => ?_
  simp only [bind_eq_ok_iff, mapM_eq_ok_iff]
  rw [common?_eq_ok_iff_isLUB hflat]
  constructor
  · rintro ⟨types, h, hu⟩
    rw [common?_eq_ok_iff_isLUB (htypes h)] at hu
    exact (isLUB_congr (upperBounds_of_groups hne h)).mp hu
  · intro hu
    have hgroups : ∀ group ∈ groups, ∃ d, common? group = .ok d := fun group hmem =>
      exists_common?_of_mem_upperBounds (fun h => hne (h ▸ hmem)) fun t ht =>
        hu.1 (List.mem_flatten.mpr ⟨group, hmem, ht⟩)
    obtain ⟨types, h⟩ := exists_mapM_eq_ok hgroups
    have h := mapM_eq_ok_iff.mp h
    refine ⟨types, h, (common?_eq_ok_iff_isLUB (htypes h)).mpr ?_⟩
    exact (isLUB_congr (upperBounds_of_groups hne h)).mpr hu

end Groups

/-- **The common type is the least upper bound** of a list that is not empty: there is one exactly
when the list has an upper bound, else the error is that the data types are incompatible. So order
and repetitions do not matter, nor do common types of parts that are formed before. -/
theorem common?_leastUpperBound :
    (IsPartialOrder DataType fun a b => common? [a, b] = .ok b) ∧
      (∀ a b : DataType, a ≤ b ↔ common? [a, b] = .ok b) ∧
      ∀ ts : List DataType, ts ≠ [] →
        (∀ u, common? ts = .ok u ↔ IsLUB {t | t ∈ ts} u) ∧
        ((∃ u, common? ts = .ok u) ↔ BddAbove {t | t ∈ ts}) ∧
        (¬ BddAbove {t | t ∈ ts} → ∃ text, common? ts = .error (.incompatible text)) ∧
        (∀ ts' : List DataType, (∀ t, t ∈ ts' ↔ t ∈ ts) →
          (common? ts').toOption = (common? ts).toOption) ∧
        ∀ groups : List (List DataType), [] ∉ groups → groups.flatten = ts →
          (groups.mapM common? >>= common?).toOption = (common? ts).toOption := by
  have hbounded : ∀ {ts : List DataType}, ts ≠ [] →
      ((∃ u, common? ts = .ok u) ↔ BddAbove {t | t ∈ ts}) := by
    intro ts hne
    constructor
    · rintro ⟨u, hu⟩
      exact ((common?_eq_ok_iff_isLUB hne).mp hu).bddAbove
    · rintro ⟨v, hv⟩
      exact exists_common?_of_mem_upperBounds hne hv
  refine ⟨instIsPartialOrderLe (α := DataType), fun _ _ => le_iff_common?, fun ts hne =>
    ⟨fun _ => common?_eq_ok_iff_isLUB hne, hbounded hne, fun hnone => ?_,
      fun _ => toOption_common?_congr, ?_⟩⟩
  · cases h : common? ts with
    | ok u => exact absurd ((hbounded hne).mp ⟨u, h⟩) hnone
    | error e =>
      obtain ⟨text, rfl⟩ := exists_text_of_common?_eq_error h
      exact ⟨text, rfl⟩
  · rintro groups hgroups rfl
    exact toOption_common?_groups hgroups

/-- Strings of three and of seven characters fit strings of at most seven, in whatever order and
grouping they are listed with strings of at most two, and nothing smaller holds them all. -/
theorem common?_leastUpperBound_characters :
    common? [fixedChar 3, varchar 2, fixedChar 7] = .ok (varchar 7) ∧
      IsLUB {t | t ∈ [fixedChar 3, varchar 2, fixedChar 7]} (varchar 7) ∧
      (common? [varchar 2, fixedChar 7, fixedChar 3, varchar 2]).toOption = some (varchar 7) ∧
      ([[fixedChar 3, varchar 2], [fixedChar 7]].mapM common? >>= common?).toOption =
        some (varchar 7) ∧
      ¬ BddAbove {t | t ∈ [fixedChar 3, uuid]} := by
  obtain ⟨-, -, hlist⟩ := common?_leastUpperBound
  have hcommon : common? [fixedChar 3, varchar 2, fixedChar 7] = .ok (varchar 7) := by decide
  obtain ⟨hlub, -, -, hmembers, hgroups⟩ :=
    hlist [fixedChar 3, varchar 2, fixedChar 7] (by decide)
  obtain ⟨-, hbounded, -⟩ := hlist [fixedChar 3, uuid] (by decide)
  refine ⟨hcommon, (hlub _).mp hcommon, ?_, ?_, fun h => ?_⟩
  · rw [hmembers _ (by simp; tauto), hcommon]
    rfl
  · rw [hgroups _ (by decide) rfl, hcommon]
    rfl
  · obtain ⟨u, hu⟩ := hbounded.mpr h
    have hnone : (common? [fixedChar 3, uuid]).toOption = none := by decide
    rw [hu] at hnone
    cases hnone

end SchemaCatalog.DataType
