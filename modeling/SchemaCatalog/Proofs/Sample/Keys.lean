import Mathlib.Algebra.Order.Ring.Int
import Mathlib.Data.List.Nodup
import SchemaCatalog.Proofs.Registry.Lookup
import SchemaCatalog.Proofs.Sample.Outcome

/-!
# Keys of drawn records

The integer keys of a sample are fixed before any record is drawn: a shuffled list of numbers, which
is a permutation of them whatever the source of randomness yields (`Draw.perm_shuffle`). The record
at a position has the key at that position (`exists_key_of_canDraw_record`), so that the keys of all
records are the keys of the sample in order, whatever is drawn for other fields
(`map_primaryKey_of_canDraw_records`). The records of a sample thus have the numbers below its size
as keys, each once, as long as this size is a signed word; a larger sample has no records
(`perm_range_of_canDraw_records`).
-/

namespace SchemaCatalog

/-- The built-in types of keys that are **numbered**. -/
def Primitive.numbered : List Primitive := [.int, .int32, .int64, .uint32, .uint64]

namespace Draw

theorem below_lt {bound : Nat} (h : 0 < bound) (d : Draws) : (below bound d).1 < bound :=
  Nat.mod_lt _ h

theorem between_le {low high : Nat} (h : low ≤ high) (d : Draws) :
    (between low high d).1 ≤ high := by
  have hlt : d.word d.next % (high - low + 1) < high - low + 1 := Nat.mod_lt _ (Nat.succ_pos _)
  have hbetween : (between low high d).1 = low + d.word d.next % (high - low + 1) := rfl
  omega

/-- **Shuffling permutes**, whatever places are drawn. -/
theorem perm_shuffle {α : Type} (as : List α) (d : Draws) : (shuffle as d).1.Perm as := by
  induction as with
  | nil => exact .nil
  | cons a as ih =>
    have hplace : (below ((shuffle as d).1.length + 1) (shuffle as d).2).1 ≤
        (shuffle as d).1.length :=
      Nat.le_of_lt_succ (below_lt (Nat.succ_pos _) _)
    exact (List.perm_insertIdx a _ hplace).trans (ih.cons a)

end Draw

open Sampler

namespace Sample

variable {s : Sample} {e : Entity} {key : Field} {p : Primitive} {index : Nat}

/-! ### The keys of a sample -/

/-- The number of keys is the size of the sample, as long as this is a signed word. -/
theorem keyCount_of_lt {count : Nat} (h : count < 2 ^ 63) : keyCount count = count := by
  rw [keyCount, Int64.toInt_ofNat_of_lt h, Int.toNat_natCast]

/-- Beyond the signed words the size of the sample counts as negative, and there are no keys. -/
theorem keyCount_of_le {count : Nat} (h : 2 ^ 63 ≤ count) (h' : count < 2 ^ 64) :
    keyCount count = 0 := by
  have hnegative : (Int64.ofNat count).toInt = (count : Int) - 2 ^ 64 := by
    rw [Int64.toInt_ofNat', Int.bmod_def]
    simp only [Int64.size]
    omega
  rw [keyCount, hnegative]
  omega

/-- The keys of a new sample are a permutation of the numbers below their number. -/
theorem perm_keys_create (registry : Registry) (latest : Timestamp) (count depth : Nat)
    (d : Draws) :
    (create registry latest count depth d).1.keys.Perm (List.range (keyCount count)) :=
  Draw.perm_shuffle _ d

theorem intValue_injOn {m n : Nat} (hm : m < 2 ^ 63) (hn : n < 2 ^ 63)
    (h : intValue m = intValue n) : m = n := by
  have hword : (Int64.ofNat m).toInt = (Int64.ofNat n).toInt :=
    congrArg Int64.toInt (Value.int.inj h)
  rw [Int64.toInt_ofNat_of_lt hm, Int64.toInt_ofNat_of_lt hn] at hword
  exact Int.ofNat_inj.mp hword

/-! ### The keys of records -/

/-- A numbered key is the key of the sample at the position of the record. -/
theorem exists_key_of_canDraw_key (hp : key.type.unadorned = .primitive p)
    (hnumbered : p ∈ Primitive.numbered) {v : Value} (h : (s.key key index).CanDraw v) :
    ∃ k, s.keys[index]? = some k ∧ v = intValue k := by
  have hnumber : s.key key index = (s.keys[index]?).elim
      (Sampler.fail (.unsupported key.type.display (.beyondSample index s.count)))
      fun k => return intValue k := by
    unfold Sample.key
    rw [hp]
    simp only [Primitive.numbered, List.mem_cons, List.not_mem_nil, or_false] at hnumbered
    rcases hnumbered with rfl | rfl | rfl | rfl | rfl <;> cases s.keys[index]? <;> rfl
  rw [hnumber] at h
  cases hk : s.keys[index]? with
  | some k =>
    rw [hk] at h
    exact ⟨k, rfl, canDraw_pure_iff.mp h⟩
  | none =>
    rw [hk] at h
    exact absurd h not_canDraw_fail

section Keys

variable (hn : (e.fields.map Field.name).Nodup) (hkey : e.keyField? = some key)
  (hp : key.type.unadorned = .primitive p) (hnumbered : p ∈ Primitive.numbered)
include hn hkey hp hnumbered

/-- The record at a position has the key at that position. -/
theorem exists_key_of_canDraw_record {r : Record} (h : (s.record e index).CanDraw r) :
    ∃ k, s.keys[index]? = some k ∧ r.get? e.primaryKey = some (intValue k) := by
  obtain ⟨hmem, hname⟩ := Registry.mem_of_keyField (Registry.keyField_eq_ok_iff.mpr hkey)
  obtain ⟨v, hv, hdrawn⟩ := (exists_of_canDraw_fill hn h).2 key hmem
  rw [fieldValue, canDraw_nameOwner_iff, if_pos hname] at hdrawn
  obtain ⟨k, hk, rfl⟩ := exists_key_of_canDraw_key hp hnumbered hdrawn
  exact ⟨k, hk, hname ▸ hv⟩

/-- **The keys of all records** are the keys of the sample in order. -/
theorem map_primaryKey_of_canDraw_records {rs : List Record} (h : (s.records e).CanDraw rs) :
    (rs.map fun r => r.get? e.primaryKey) = s.keys.map fun k => some (intValue k) := by
  have hrecords : List.Forall₂ (fun index r => (s.record e index).CanDraw r)
      (List.range s.keys.length) rs := forall₂_of_canDraw_mapM h
  have hkeys : ((List.range s.keys.length).map fun index => s.keys[index]?.map intValue) =
      rs.map fun r => r.get? e.primaryKey := by
    refine map_eq_map_of_forall₂ hrecords fun index r hr => ?_
    obtain ⟨k, hk, hr⟩ := exists_key_of_canDraw_record hn hkey hp hnumbered hr
    rw [hk, hr, Option.map_some]
  rw [← hkeys]
  refine List.ext_getElem (by simp) fun i hi _ => ?_
  have hi : i < s.keys.length := by simpa using hi
  simp [List.getElem?_eq_getElem hi]

/-- **The keys of a sample are a permutation** of the numbers below the number of its records, so
that no two records have the same key, when this number is a signed word. A sample of more records
has no keys, and thus no records. -/
theorem perm_range_of_canDraw_records {registry : Registry} {latest : Timestamp} {count depth : Nat}
    {rs : List Record}
    (h : (Sampler.lift (create registry latest count depth) >>= fun s => s.records e).CanDraw rs) :
    (count < 2 ^ 63 → rs.length = count ∧
      (rs.map fun r => r.get? e.primaryKey).Perm
        ((List.range count).map fun k => some (intValue k)) ∧
      (rs.map fun r => r.get? e.primaryKey).Nodup) ∧
    (2 ^ 63 ≤ count → count < 2 ^ 64 → rs = []) := by
  obtain ⟨s, hs, h⟩ := h.exists_of_bind
  obtain ⟨d, rfl⟩ := canDraw_lift_iff.mp hs
  have hkeys := map_primaryKey_of_canDraw_records hn hkey hp hnumbered h
  have hperm := (perm_keys_create registry latest count depth d).map fun k => some (intValue k)
  rw [← hkeys] at hperm
  have hlength : rs.length = keyCount count := by simpa using hperm.length_eq
  constructor
  · intro hcount
    rw [keyCount_of_lt hcount] at hperm hlength
    refine ⟨hlength, hperm, hperm.nodup_iff.mpr ?_⟩
    have hword : ∀ k ∈ List.range count, k < 2 ^ 63 :=
      fun k hk => Nat.lt_trans (List.mem_range.mp hk) hcount
    refine List.Nodup.map_on (fun m hm k hk hsame => ?_) List.nodup_range
    exact intValue_injOn (hword m hm) (hword k hk) (Option.some.inj hsame)
  · intro hle hlt
    rw [keyCount_of_le hle hlt] at hlength
    exact List.length_eq_zero_iff.mp hlength

end Keys

/-! ### Tickets of a lottery -/

/-- The number of a ticket. -/
def ticketNumber : Field :=
  { name := "number", type := .annotated (.primitive .uint32) [.other "unit" "tickets"] }

/-- A ticket of a lottery, with a number and perhaps a note. -/
def ticket : Entity where
  name := "Ticket"
  moduleName := "lottery"
  primaryKey := "number"
  fields := [{ name := "note", type := .primitive .string, nullable := true }, ticketNumber]

/-- A number of new tickets. -/
def tickets (count : Nat) : Sampler (List Record) :=
  Sampler.lift (create .empty earliest count) >>= fun s => s.records ticket

/-- Three tickets have the numbers below three, here in the order that a stream of ones draws. -/
theorem perm_range_of_canDraw_records_tickets :
    ∃ rs, (tickets 3).CanDraw rs ∧ rs.length = 3 ∧
      (rs.map fun r => r.get? "number") =
        [some (intValue 2), some (intValue 0), some (intValue 1)] ∧
      (rs.map fun r => r.get? "number").Perm
        ((List.range 3).map fun k => some (intValue k)) ∧
      (rs.map fun r => r.get? "number").Nodup := by
  have hnumbers : ((tickets 3 ⟨fun _ => 1, 0⟩).toOption.map fun drawn =>
      drawn.1.map fun r => r.get? "number") =
        some [some (intValue 2), some (intValue 0), some (intValue 1)] := rfl
  obtain ⟨⟨rs, d⟩, hrs, hnumbers⟩ := exists_eq_ok_of_toOption hnumbers
  have hdrawn : (tickets 3).CanDraw rs := ⟨_, d, hrs⟩
  have hkey : ticket.keyField? = some ticketNumber := rfl
  have hp : ticketNumber.type.unadorned = .primitive .uint32 := rfl
  obtain ⟨hlength, hperm, hnodup⟩ :=
    (perm_range_of_canDraw_records (by decide) hkey hp (by decide) hdrawn).1 (by decide)
  exact ⟨rs, hdrawn, hlength, hnumbers, hperm, hnodup⟩

/-- More tickets than there are signed words are no tickets at all. -/
theorem not_length_of_canDraw_records_tickets :
    ¬ ∀ rs, (tickets (2 ^ 63)).CanDraw rs → rs.length = 2 ^ 63 := by
  intro h
  have hnone : (tickets (2 ^ 63)).CanDraw [] := ⟨Draws.ofSeed 0, Draws.ofSeed 0, rfl⟩
  exact absurd (h [] hnone) (by decide)

end Sample

end SchemaCatalog
