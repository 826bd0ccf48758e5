import SchemaCatalog.Json.Reader
import SchemaCatalog.Proofs.Json.Text
import SchemaCatalog.Proofs.Result

/-!
# Reading documents by their shape

`Reads r levels j a` says that a reader, given at least some number of levels, reads a document
as a value. There is one lemma for each way to build a reader: what reads the parts reads the
whole, with one level more for each array or object that is entered.
-/

namespace SchemaCatalog.Json

/-- A list is written by writing its items. -/
theorem writtenItems_eq_map (items : List Json) : writtenItems items = items.map written := by
  induction items with
  | nil => rfl
  | cons v vs ih => rw [writtenItems, ih, List.map_cons]

theorem writtenMembers_eq_map (members : List (String × Json)) :
    writtenMembers members = members.map fun m => (some m.1, m.2.written) := by
  induction members with
  | nil => rfl
  | cons m ms ih =>
    obtain ⟨k, v⟩ := m
    rw [writtenMembers, ih, List.map_cons]

/-- A list is exact when all its items are. -/
theorem allExact_iff {items : List Json} :
    allExact items = true ↔ ∀ v ∈ items, v.isExact = true := by
  induction items with
  | nil => simp [allExact]
  | cons v vs ih => simp [allExact, ih]

theorem allExactMembers_iff {members : List (String × Json)} :
    allExactMembers members = true ↔ ∀ m ∈ members, m.2.isExact = true := by
  induction members with
  | nil => simp [allExactMembers]
  | cons m ms ih =>
    obtain ⟨k, v⟩ := m
    simp [allExactMembers, ih]

/-- Decimal digits have the value of the number that they are the digits of. -/
theorem Numeral.natValue_toDigits (n : Nat) : natValue (Nat.toDigits 10 n) = n := by
  have h : natValue (Nat.toDigits 10 n) = Nat.ofDigitChars 10 (Nat.toDigits 10 n) 0 := by
    rw [Nat.ofDigitChars_eq_foldl, natValue]
    simp only [digitValue, Nat.mul_comm]
  rw [h, Nat.ofDigitChars_ten_toDigits]

/-- A number below the bound of words is read as it is written. -/
theorem Numeral.toInt?_ofInt {n : Nat} (hn : n < wordBound) :
    (ofInt n).toInt? = some (n : Int) := by
  have hnonneg : ¬ (n : Int) < 0 := by omega
  simp [toInt?, ofInt, natValue_toDigits, hn, hnonneg]

namespace Reader

variable {α : Type} {r : Reader α} {levels : Nat} {a : α} {j : Json}

/-- A reader **reads** a document as a value when it gives that value for the document as it is
written, provided that it may enter at least the given number of levels. -/
def Reads (r : Reader α) (levels : Nat) (j : Json) (a : α) : Prop :=
  ∀ n, levels ≤ n → r n j.written = some a

/-- What is read within some levels is read within more of them. -/
theorem Reads.mono {more : Nat} (h : Reads r levels j a) (hle : levels ≤ more) :
    Reads r more j a := fun n hn => h n (Nat.le_trans hle hn)

/-! ### Simple values -/

theorem reads_text (s : String) : Reads text 0 (.str s) s := fun _ _ => rfl

theorem reads_bool (b : Bool) : Reads bool 0 (.bool b) b := fun _ _ => rfl

/-- A number below a bound is read as it is written. -/
theorem reads_natBelow {bound n : Nat} (hn : n < bound) (hbound : bound ≤ Numeral.wordBound) :
    Reads (natBelow bound) 0 (.int n) n := by
  intro m _
  rw [written, natBelow, Numeral.toInt?_ofInt (Nat.lt_of_lt_of_le hn hbound)]
  simp [hn]

theorem reads_byte (b : UInt8) : Reads byte 0 (.int b.toNat) b := by
  intro n hn
  rw [byte, reads_natBelow b.toNat_lt (by decide) n hn]
  simp

theorem reads_word (w : UInt32) : Reads word 0 (.int w.toNat) w := by
  intro n hn
  rw [word, reads_natBelow w.toNat_lt (by decide) n hn]
  simp

/-- Null is read as the absence of a value. -/
theorem reads_null : Reads r.optional levels .null none := fun _ _ => rfl

/-- A value that is not written as null is read where null is allowed. -/
theorem reads_some (h : Reads r levels j a) (hj : j.written ≠ .null) :
    Reads r.optional levels j (some a) := by
  intro n hn
  unfold Reader.optional
  split
  · exact absurd ‹_› hj
  · exact congrArg (Option.map Option.some) (h _ hn)

theorem reads_optional : ∀ s : Option String, Reads text.optional 0 (.optional s) s
  | none => reads_null
  | some s => reads_some (reads_text s) nofun

/-! ### Arrays and objects -/

/-- A list is read when its items are, one level below. -/
theorem reads_list {f : α → Json} {as : List α} (h : ∀ a ∈ as, Reads r levels (f a) a) :
    Reads r.list (levels + 1) (.arr (as.map f)) as := by
  intro n hn
  obtain ⟨n, rfl⟩ : ∃ m, n = m + 1 := ⟨n - 1, by omega⟩
  rw [written, writtenItems_eq_map, list, mapM_eq_some_iff, List.map_map,
    List.forall₂_map_left_iff, List.forall₂_same]
  exact fun a ha => h a ha n (by omega)

theorem reads_texts (ss : List String) : Reads text.list 1 (.arr (ss.map .str)) ss :=
  reads_list fun s _ => reads_text s

/-- The members of an object are read in order, with their names. -/
theorem reads_entries {f : α → Json} {es : List (String × α)}
    (h : ∀ e ∈ es, Reads r levels (f e.2) e.2) :
    Reads r.entries (levels + 1) (.obj (es.map fun e => (e.1, f e.2))) es := by
  intro n hn
  obtain ⟨n, rfl⟩ : ∃ m, n = m + 1 := ⟨n - 1, by omega⟩
  rw [written, writtenMembers_eq_map, entries, mapM_eq_some_iff, List.map_map,
    List.forall₂_map_left_iff, List.forall₂_same]
  intro e he
  have hvalue : r n (f e.2).written = some e.2 := h e he n (by omega)
  simp [hvalue]

/-! ### Alternatives -/

/-- An alternative without parameters is read from its name. -/
theorem reads_unitAlternative {f : String → Option α} {name : String} (h : f name = some a) :
    Reads (unitAlternative f) 0 (.str name) a := fun _ _ => h

/-- An alternative with parameters is read from an object with its name as the only member. -/
theorem reads_alternative {f : String → Reader α} {name : String} (h : Reads (f name) levels j a) :
    Reads (alternative f) (levels + 1) (.obj [(name, j)]) a := by
  intro n hn
  obtain ⟨n, rfl⟩ : ∃ m, n = m + 1 := ⟨n - 1, by omega⟩
  exact h n (by omega)

/-! ### Records -/

namespace Members

variable {n : Nat} {values : List (String × Option Raw)} {name : String}

/-- A member that is required is read from the value that the object has for its name. -/
theorem required_eq (hlookup : values.lookup name = some (some j.written))
    (h : Reads r levels j a) (hlevels : levels ≤ n) :
    (Members.mk n values).required name r = some a := by
  rw [required, hlookup]
  exact h _ hlevels

theorem optional_eq {o : Option α} (hlookup : values.lookup name = some (some j.written))
    (h : Reads r.optional levels j o) (hlevels : levels ≤ n) :
    (Members.mk n values).optional name r = some o := by
  rw [optional, hlookup]
  exact h _ hlevels

end Members

/-- Of members with different names, one bears the name of each. -/
theorem filter_eq_singleton {members : List (String × Json)}
    (h : (members.map Prod.fst).Nodup) {m : String × Json} (hm : m ∈ members) :
    (members.filter fun m' => m'.1 == m.1) = [m] := by
  induction members with
  | nil => cases hm
  | cons m' ms ih =>
    obtain ⟨hnew, hnodup⟩ := List.nodup_cons.mp h
    rcases List.mem_cons.mp hm with rfl | hm
    · have hrest : (ms.filter fun m' => m'.1 == m.1) = [] := by
        rw [List.filter_eq_nil_iff]
        intro m' hm' hname
        exact hnew (beq_iff_eq.mp hname ▸ List.mem_map_of_mem hm')
      rw [List.filter_cons_of_pos (by simp), hrest]
    · have hne : m'.1 ≠ m.1 := fun hname => hnew (hname ▸ List.mem_map_of_mem hm)
      rw [List.filter_cons_of_neg (by simpa using hne), ih hnodup hm]

/-- The members of an object with different names are known by these names. -/
theorem known?_written {members : List (String × Json)} (h : (members.map Prod.fst).Nodup) :
    known? (members.map Prod.fst) (writtenMembers members) =
      some (members.map fun m => (m.1, some m.2.written)) := by
  have hnamed : ((writtenMembers members).all fun m => m.1.isSome) = true := by
    simp [writtenMembers_eq_map]
  rw [known?, if_pos hnamed, mapM_eq_some_iff, List.forall₂_map_left_iff,
    List.forall₂_map_right_iff, List.forall₂_same]
  intro m hm
  have hfilter : ((writtenMembers members).filter fun m' => m'.1 == some m.1) =
      [(some m.1, m.2.written)] := by
    rw [writtenMembers_eq_map, List.filter_map]
    exact congrArg (List.map _) (filter_eq_singleton h hm)
  rw [hfilter]

/-- **Records**: an object with the members of a record in order is read as what these build. -/
theorem reads_record {names : List String} {members : List (String × Json)}
    {build : Members → Option α} (hnames : members.map Prod.fst = names) (hnodup : names.Nodup)
    (h : ∀ n, levels ≤ n →
      build ⟨n, members.map fun m => (m.1, some m.2.written)⟩ = some a) :
    Reads (record names build) (levels + 1) (.obj members) a := by
  intro n hn
  obtain ⟨n, rfl⟩ : ∃ m, n = m + 1 := ⟨n - 1, by omega⟩
  subst hnames
  rw [written, Reader.record, known?_written hnodup]
  exact h n (by omega)

end Reader

end SchemaCatalog.Json
