import SchemaCatalog.Converter.Table
import SchemaCatalog.Proofs.Text.Digits

/-!
# Reading lists of constants

The values of an enumeration are written as a list of SQL constants in parentheses. This module
reads such a list from left to right, as a database does: a string ends at the first quote that is
not doubled (`string?`), and behind each constant there is a comma with a blank or the closing
parenthesis (`list?`). Whatever the characters of a string are, they are read as written
(`string?_doubleQuotes`), and so is every constant that is followed by what cannot continue it
(`literal?_toSql`). So a list of constants is read as the values it was made of
(`list?_intercalate`).
-/

namespace SchemaCatalog.Constant

open Converter (literalConstant)

/-! ### Reading constants -/

/-- Reads the rest of a string behind its opening quote: a quote that is doubled belongs to the
string, and the first one that is not ends it. -/
def string? : List Char → Option (List Char × List Char)
  | [] => none
  | '\'' :: '\'' :: cs => (string? cs).map (Prod.map ('\'' :: ·) id)
  | '\'' :: cs => some ([], cs)
  | c :: cs => (string? cs).map (Prod.map (c :: ·) id)

/-- Reads the digits of a natural number. -/
def natural? (cs : List Char) : Option (Nat × List Char) :=
  match cs.span Char.isDigit with
  | ([], _) => none
  | (ds, rest) => some (Nat.ofDigitChars 10 ds 0, rest)

/-- Reads an integer of any size, with a minus sign if it is negative. -/
def signed? : List Char → Option (Int × List Char)
  | '-' :: cs => (natural? cs).map fun (n, rest) => (-n, rest)
  | cs => (natural? cs).map fun (n, rest) => (n, rest)

/-- Reads an integer of 64 bits. -/
def integer? (cs : List Char) : Option (Int64 × List Char) := do
  let (i, rest) ← signed? cs
  if (Int64.ofInt i).toInt = i then some (Int64.ofInt i, rest) else none

/-- Reads a constant other than a floating point number. -/
def literal? : List Char → Option (Literal × List Char)
  | '\'' :: cs => (string? cs).map (Prod.map (fun s => .str (String.ofList s)) id)
  | 'T' :: 'R' :: 'U' :: 'E' :: cs => some (.bool true, cs)
  | 'F' :: 'A' :: 'L' :: 'S' :: 'E' :: cs => some (.bool false, cs)
  | cs => (integer? cs).map (Prod.map .int id)

/-! ### Reading lists -/

/-- Reading a string leaves an end of the text. -/
theorem suffix_of_string? {cs s rest : List Char} (h : string? cs = some (s, rest)) :
    rest <:+ cs := by
  induction cs using string?.induct generalizing s with
  | case1 => cases h
  | case2 cs ih =>
    rw [string?, Option.map_eq_some_iff] at h
    obtain ⟨⟨s', _⟩, hcs, h⟩ := h
    cases h
    exact ((ih hcs).trans (List.suffix_cons _ _)).trans (List.suffix_cons _ _)
  | case3 cs hdoubled =>
    rw [string?.eq_3 _ hdoubled] at h
    cases h
    exact List.suffix_cons _ _
  | case4 c cs hdoubled hquote ih =>
    rw [string?.eq_4 _ _ hdoubled hquote, Option.map_eq_some_iff] at h
    obtain ⟨⟨s', _⟩, hcs, h⟩ := h
    cases h
    exact (ih hcs).trans (List.suffix_cons _ _)

theorem suffix_of_natural? {cs rest : List Char} {n : Nat} (h : natural? cs = some (n, rest)) :
    rest <:+ cs := by
  rw [natural?, List.span_eq_takeWhile_dropWhile] at h
  split at h <;> cases h
  rename_i hspan
  rw [← (Prod.mk.inj hspan).2]
  exact List.dropWhile_suffix _

theorem suffix_of_signed? {cs rest : List Char} {i : Int} (h : signed? cs = some (i, rest)) :
    rest <:+ cs := by
  unfold signed? at h
  split at h <;> obtain ⟨⟨n, _⟩, hn, h⟩ := Option.map_eq_some_iff.mp h <;> cases h
  · exact (suffix_of_natural? hn).trans (List.suffix_cons _ _)
  · exact suffix_of_natural? hn

/-- Reading a value leaves an end of the text. -/
theorem suffix_of_literal? {cs rest : List Char} {v : Literal}
    (h : literal? cs = some (v, rest)) : rest <:+ cs := by
  unfold literal? at h
  split at h
  · obtain ⟨⟨s, _⟩, hs, h⟩ := Option.map_eq_some_iff.mp h
    cases h
    exact (suffix_of_string? hs).trans (List.suffix_cons _ _)
  · cases h
    exact List.suffix_append ['T', 'R', 'U', 'E'] _
  · cases h
    exact List.suffix_append ['F', 'A', 'L', 'S', 'E'] _
  · obtain ⟨⟨i, _⟩, hi, h⟩ := Option.map_eq_some_iff.mp h
    cases h
    obtain ⟨⟨j, _⟩, hj, hi⟩ := Option.bind_eq_some_iff.mp hi
    dsimp only at hi
    split at hi <;> cases hi
    exact suffix_of_signed? hj

/-- Reading a value and a comma leaves less of the text. -/
theorem length_lt_of_literal? {cs rest : List Char} {v : Literal}
    (h : literal? cs = some (v, ',' :: ' ' :: rest)) : rest.length < cs.length := by
  have hlength := (suffix_of_literal? h).length_le
  simp only [List.length_cons] at hlength
  omega

/-- Reads the constants of a list behind its opening parenthesis, up to the closing one. -/
def list? (cs : List Char) : Option (List Literal × List Char) :=
  match h : literal? cs with
  | some (v, ')' :: rest) => some ([v], rest)
  | some (v, ',' :: ' ' :: rest) =>
    have := length_lt_of_literal? h
    (list? rest).map (Prod.map (v :: ·) id)
  | _ => none
termination_by cs.length

/-- The last value of a list is followed by its bracket. -/
theorem list?_last {cs rest : List Char} {v : Literal} (h : literal? cs = some (v, ')' :: rest)) :
    list? cs = some ([v], rest) := by
  rw [list?]
  split <;> simp_all

theorem list?_more {cs rest : List Char} {v : Literal}
    (h : literal? cs = some (v, ',' :: ' ' :: rest)) :
    list? cs = (list? rest).map (Prod.map (v :: ·) id) := by
  rw [list?]
  split <;> simp_all

/-! ### Reading back -/

/-- A text **follows an item** of a list when it starts with a comma or a closing parenthesis. -/
def FollowsItem (rest : List Char) : Prop :=
  ∃ c tail, rest = c :: tail ∧ (c = ',' ∨ c = ')')

/-- **Strings are read as written**, whatever their characters are. -/
theorem string?_doubleQuotes (cs : List Char) {rest : List Char} (hrest : FollowsItem rest) :
    string? (Text.doubleQuotes cs ++ '\'' :: rest) = some (cs, rest) := by
  induction cs with
  | nil =>
    obtain ⟨c, tail, rfl, rfl | rfl⟩ := hrest <;> rfl
  | cons c cs ih =>
    by_cases hc : c = '\''
    · subst hc
      simp [Text.doubleQuotes, string?, ih]
    · simp [Text.doubleQuotes, string?, hc, ih]

theorem natural?_toDigits (n : Nat) {rest : List Char} (hrest : FollowsItem rest) :
    natural? (Nat.toDigits 10 n ++ rest) = some (n, rest) := by
  have hstop : ∀ c ∈ rest.head?, c.isDigit = false := by
    obtain ⟨c, tail, rfl, rfl | rfl⟩ := hrest <;> simp
  obtain ⟨d, ds, hds, -⟩ := Text.exists_toDigits_eq n
  rw [natural?, Text.span_isDigit_append Text.isDigit_of_mem_toDigits hstop, hds]
  simp only
  rw [← hds, Nat.ofDigitChars_ten_toDigits]

/-- A signed number is read back from its digits, and what follows is left. -/
theorem signed?_toString (i : Int) {rest : List Char} (hrest : FollowsItem rest) :
    signed? ((toString i).toList ++ rest) = some (i, rest) := by
  rw [Text.toList_toString]
  by_cases hi : i < 0
  · rw [if_pos hi]
    have hnatAbs : -(i.natAbs : Int) = i := by omega
    rw [List.append_assoc, List.singleton_append, signed?, natural?_toDigits _ hrest]
    exact congrArg (fun j => some (j, rest)) hnatAbs
  · have hnatAbs : (i.natAbs : Int) = i := by omega
    obtain ⟨d, ds, hds, hd⟩ := Text.exists_toDigits_eq i.natAbs
    have hminus : d ≠ '-' := Text.ne_of_isDigit hd (by decide)
    have hread := natural?_toDigits i.natAbs hrest
    rw [hds, List.cons_append] at hread
    rw [if_neg hi, hds, List.nil_append, List.cons_append, signed?, hread]
    · exact congrArg (fun j => some (j, rest)) hnatAbs
    · simpa using hminus

theorem integer?_toString (i : Int64) {rest : List Char} (hrest : FollowsItem rest) :
    integer? ((toString i.toInt).toList ++ rest) = some (i, rest) := by
  rw [integer?, signed?_toString _ hrest]
  simp

/-- **Constants are read as written.** -/
theorem literal?_toSql (v : Literal) {rest : List Char} (hrest : FollowsItem rest) :
    literal? ((literalConstant v).toSql.toList ++ rest) = some (v, rest) := by
  cases v with
  | str s =>
    have hread := string?_doubleQuotes s.toList hrest
    simp [literalConstant, toSql, Text.quote, literal?, hread]
  | bool b => cases b <;> rfl
  | int i =>
    obtain ⟨c, cs, hcs, hc⟩ := Text.exists_toList_toString i.toInt
    have hne : c ≠ '\'' ∧ c ≠ 'T' ∧ c ≠ 'F' := by
      rcases hc with rfl | hc
      · decide
      · exact ⟨Text.ne_of_isDigit hc rfl, Text.ne_of_isDigit hc rfl, Text.ne_of_isDigit hc rfl⟩
    have hread := integer?_toString i hrest
    rw [hcs, List.cons_append] at hread
    rw [literalConstant, toSql, hcs, List.cons_append, literal?, hread]
    · rfl
    all_goals simp [hne]

/-- **Lists of constants are read as written.** -/
theorem list?_intercalate {vs : List Literal} (hvs : vs ≠ []) (rest : List Char) :
    list? ((", ".intercalate (vs.map fun v => (literalConstant v).toSql)).toList ++ ')' :: rest) =
      some (vs, rest) := by
  have hseparator : ", ".toList = [',', ' '] := rfl
  rw [String.toList_intercalate, hseparator]
  induction vs with
  | nil => exact absurd rfl hvs
  | cons v vs ih =>
    by_cases hlast : vs = []
    · subst hlast
      have hfollows : FollowsItem (')' :: rest) := ⟨_, _, rfl, Or.inr rfl⟩
      simp only [List.map_cons, List.map_nil, List.intercalate_singleton]
      exact list?_last (literal?_toSql v hfollows)
    · have hfollows : ∀ tail, FollowsItem (',' :: tail) := fun tail => ⟨_, tail, rfl, Or.inl rfl⟩
      rw [List.map_cons, List.map_cons, List.intercalate_cons_of_ne_nil (by simpa using hlast),
        List.append_assoc, List.append_assoc, List.cons_append, List.singleton_append,
        list?_more (literal?_toSql v (hfollows _)), ih hlast]
      rfl

end SchemaCatalog.Constant
