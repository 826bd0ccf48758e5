import Mathlib.Data.List.Basic
import Mathlib.Data.List.TakeDrop
import SchemaCatalog.Json.Printer
import SchemaCatalog.Json.Raw
import SchemaCatalog.Proofs.Text.Digits

/-!
# Reading back printed documents

`written j` is what the text of a document holds once it is read: integers as their digits,
strings unescaped, members in their order. Reading undoes printing piece by piece, the text of
each piece being followed by a text that cannot continue it: escaped characters
(`elements?_escapeChar`), strings (`string?_quoted`), numbers (`numeral?_append`) and values
(`value?_print`). So every document without floating point numbers is read as it was written
(`parse?_print`).
-/

namespace SchemaCatalog.Json

/-! ### What a printed document holds -/

/-- The number of an integer: its decimal digits, with a minus sign if it is negative. -/
def Numeral.ofInt (i : Int) : Numeral := ⟨i < 0, Nat.toDigits 10 i.natAbs, [], none⟩

mutual

/-- A document as it is written. A floating point number has many written forms and is left
out. -/
def written : Json → Raw
  | null | float _ => .null
  | bool b => .bool b
  | int i => .number (Numeral.ofInt i)
  | str s => .str (some s)
  | arr items => .arr (writtenItems items)
  | obj members => .obj (writtenMembers members)

/-- The items of an array as they are written. -/
def writtenItems : List Json → List Raw
  | [] => []
  | v :: vs => written v :: writtenItems vs

/-- The members of an object as they are written. -/
def writtenMembers : List (String × Json) → List (Option String × Raw)
  | [] => []
  | (k, v) :: ms => (some k, written v) :: writtenMembers ms

end

mutual

/-- Whether a document holds no floating point number. -/
def isExact : Json → Bool
  | float _ => false
  | arr items => allExact items
  | obj members => allExactMembers members
  | null | bool _ | int _ | str _ => true

/-- Whether the items of an array hold no floating point number. -/
def allExact : List Json → Bool
  | [] => true
  | v :: vs => isExact v && allExact vs

/-- Whether the members of an object hold no floating point number. -/
def allExactMembers : List (String × Json) → Bool
  | [] => true
  | (_, v) :: ms => isExact v && allExactMembers ms

end

namespace Raw

/-! ### Strings -/

/-- The element that an escaped character is read as. -/
def elementOf (c : Char) : Element :=
  if c.toNat < 32 ∧ c ≠ '\x08' ∧ c ≠ '\x0c' ∧ c ≠ '\n' ∧ c ≠ '\r' ∧ c ≠ '\t' then .unit c.toNat
  else .char c

theorem hexValue?_hexDigit : ∀ n, n < 16 → Text.hexValue? (Text.hexDigit n) = some n := by decide

/-- A code unit below 256 is read from its last two digits. -/
theorem codeUnit?_hexDigits {n : Nat} (hn : n < 256) :
    codeUnit? '0' '0' (Text.hexDigit (n / 16)) (Text.hexDigit (n % 16)) = some n := by
  have hhigh := hexValue?_hexDigit (n / 16) (by omega)
  have hlow := hexValue?_hexDigit (n % 16) (by omega)
  have hzero : Text.hexValue? '0' = some 0 := by decide
  simp only [codeUnit?, hzero, hhigh, hlow, Option.bind_eq_bind, Option.bind_some, Option.pure_def,
    Option.some.injEq]
  omega

section Elements

variable {c e : Char} {rest : List Char}

/-- A short escape is read as the character that it stands for. -/
theorem elements?_shortEscape (hu : e ≠ 'u') (he : shortEscape? e = some c)
    (hc : elementOf c = .char c) :
    elements? ('\\' :: e :: rest) = (elements? rest).map fun p => (elementOf c :: p.1, p.2) := by
  have h : elements? ('\\' :: e :: rest) =
      (elements? rest).bind fun p => some (.char c :: p.1, p.2) := by simp [elements?, hu, he]
  rw [h, hc]
  cases elements? rest <;> rfl

/-- A character without an escape is read as itself. -/
theorem elements?_plain (hquote : c ≠ '"') (hslash : c ≠ '\\') (hlow : ¬ c.toNat < 32) :
    elements? (c :: rest) = (elements? rest).map fun p => (elementOf c :: p.1, p.2) := by
  have hc : elementOf c = .char c := if_neg fun h => hlow h.1
  have h : elements? (c :: rest) = (elements? rest).bind fun p => some (.char c :: p.1, p.2) := by
    rw [elements?.eq_def]
    simp [hslash, hlow]
  rw [h, hc]
  cases elements? rest <;> rfl

/-- An escaped character is read as one element. -/
theorem elements?_escapeChar :
    elements? (escapeChar c ++ rest) =
      (elements? rest).map fun p => (elementOf c :: p.1, p.2) := by
  unfold escapeChar
  iterate 7
    split
    · subst c
      exact elements?_shortEscape (by decide) rfl rfl
  split
  · have h := codeUnit?_hexDigits (n := c.toNat) (by omega)
    have hc : elementOf c = .unit c.toNat := if_pos ⟨‹_›, ‹_›, ‹_›, ‹_›, ‹_›, ‹_›⟩
    simp only [List.cons_append, List.nil_append, elements?, h, hc]
    cases elements? rest <;> rfl
  · exact elements?_plain ‹_› ‹_› ‹_›

/-- The elements of a string whose characters are escaped. -/
theorem elements?_flatMap (cs : List Char) :
    elements? (cs.flatMap escapeChar ++ '"' :: rest) = some (cs.map elementOf, rest) := by
  induction cs with
  | nil => simp [elements?]
  | cons c cs ih =>
    rw [List.flatMap_cons, List.append_assoc, elements?_escapeChar, ih]
    rfl

end Elements

/-- The element of a character stands for it: it is no surrogate. -/
theorem characters?_elementOf_cons (c : Char) (es : List Element) :
    characters? (elementOf c :: es) = (characters? es).map (c :: ·) := by
  unfold elementOf
  split
  · rename_i h
    have hhigh : isHighSurrogate c.toNat = false := by simp [isHighSurrogate]; omega
    have hlow : isLowSurrogate c.toNat = false := by simp [isLowSurrogate]; omega
    match es with
    | [] | .char _ :: _ | .unit _ :: _ => simp [characters?, hhigh, hlow, Char.ofNat_toNat]
  · rw [characters?]

/-- The characters of a string are read back from how they are written. -/
theorem characters?_map_elementOf (cs : List Char) :
    characters? (cs.map elementOf) = some cs := by
  induction cs with
  | nil => rfl
  | cons c cs ih => rw [List.map_cons, characters?_elementOf_cons, ih, Option.map_some]

/-- **A string is read back** from its quoted form, and what follows is left. -/
theorem string?_quoted (s : String) (rest : List Char) :
    string? (s.toList.flatMap escapeChar ++ '"' :: rest) = some (some s, rest) := by
  rw [string?, elements?_flatMap, Option.map_some, characters?_map_elementOf, Option.map_some,
    String.ofList_toList]

/-! ### Numbers -/

/-- A text that **does not continue** a number: the end, or one that starts with a comma or a
closing bracket. -/
def Ends (rest : List Char) : Prop :=
  rest = [] ∨ ∃ c tail, rest = c :: tail ∧ (c = ',' ∨ c = ']' ∨ c = '\x7d')

/-- Digits are taken as long as there are any. -/
theorem digits_append {ds rest : List Char} (hds : ∀ c ∈ ds, c.isDigit = true)
    (hrest : Ends rest) : digits (ds ++ rest) = (ds, rest) := by
  refine Text.span_isDigit_append hds ?_
  rcases hrest with rfl | ⟨c, tail, rfl, rfl | rfl | rfl⟩ <;> simp

/-- A decimal number other than zero does not start with the digit zero. -/
theorem head?_toDigits_ne {n : Nat} (hn : n ≠ 0) : (Nat.toDigits 10 n).head? ≠ some '0' := by
  have digit : ∀ d < 10, d ≠ 0 → [Nat.digitChar d].head? ≠ some '0' := by decide
  induction n using Nat.strongRecOn with
  | ind n ih =>
    rw [Nat.toDigits_eq_if (by decide)]
    split
    · exact digit n ‹_› hn
    · rw [List.head?_append_of_ne_nil _ Nat.toDigits_ne_nil]
      exact ih (n / 10) (by omega) (by omega)

/-- The digits of a natural number are read as its digits. -/
theorem whole?_toDigits {n : Nat} {rest : List Char} (hrest : Ends rest) :
    whole? (Nat.toDigits 10 n ++ rest) = some (Nat.toDigits 10 n, rest) := by
  have hzero : ∀ more, Nat.toDigits 10 n = '0' :: more → more = [] := by
    intro more h
    by_cases hn : n = 0
    · subst hn
      exact (List.cons.inj h).2.symm
    · exact absurd (by rw [h]; rfl) (head?_toDigits_ne hn)
  rw [whole?, digits_append Text.isDigit_of_mem_toDigits hrest]
  cases h : Nat.toDigits 10 n with
  | nil => exact absurd h Nat.toDigits_ne_nil
  | cons d more =>
    by_cases hd : d = '0'
    · subst hd
      simp [hzero more h]
    · simp [hd]

/-- Behind the digits of an integer there is neither a point nor an exponent. -/
theorem fraction?_of_ends {rest : List Char} (hrest : Ends rest) :
    fraction? rest = some ([], rest) ∧ exponent? rest = some (none, rest) := by
  rcases hrest with rfl | ⟨c, tail, rfl, rfl | rfl | rfl⟩ <;> exact ⟨rfl, rfl⟩

/-- The text of an integer is read as its number. -/
theorem numeral?_append (i : Int) {rest : List Char} (hrest : Ends rest) :
    numeral? ((toString i).toList ++ rest) = some (Numeral.ofInt i, rest) := by
  obtain ⟨hfraction, hexponent⟩ := fraction?_of_ends hrest
  have hwhole := whole?_toDigits (n := i.natAbs) hrest
  rw [Text.toList_toString, numeral?]
  by_cases hi : i < 0
  · simp [hi, hwhole, hfraction, hexponent, Numeral.ofInt]
  · obtain ⟨d, ds, hds, hd⟩ := Text.exists_toDigits_eq i.natAbs
    have hminus : d ≠ '-' := Text.ne_of_isDigit hd (by decide)
    rw [hds, List.cons_append] at hwhole
    simp [hi, hds, hminus, hwhole, hfraction, hexponent, Numeral.ofInt]

/-! ### Values -/

/-- What is no blank is not skipped. -/
theorem skipBlanks_cons {c : Char} {cs : List Char} (h : isBlank c = false) :
    skipBlanks (c :: cs) = c :: cs := by
  rw [skipBlanks, List.dropWhile_cons_of_neg (by simp [h])]

/-- What starts with a minus sign or a digit is read as a number. -/
theorem value?_of_number {c : Char} {cs : List Char} (hc : c = '-' ∨ c.isDigit = true)
    (steps : Nat) :
    value? (steps + 1) (c :: cs) = (numeral? (c :: cs)).map fun p => (.number p.1, p.2) := by
  have hne : ∀ a : Char, a ≠ '-' → a.isDigit = false → c ≠ a := by
    rintro a hminus hdigit rfl
    simp [hminus, hdigit] at hc
  have hblank : isBlank c = false := by
    simp [isBlank, hne ' ' (by decide) rfl, hne '\n' (by decide) rfl, hne '\t' (by decide) rfl,
      hne '\r' (by decide) rfl]
  rw [value?, skipBlanks_cons hblank]
  split <;> rename_i h <;> simp_all

/-- Behind an opening bracket that is not closed at once stand the items of an array. -/
theorem value?_bracket {c : Char} {cs : List Char} (hblank : isBlank c = false) (hc : c ≠ ']')
    (steps : Nat) :
    value? (steps + 1) ('[' :: c :: cs) =
      (items? steps (c :: cs)).map fun p => (.arr p.1, p.2) := by
  rw [value?, skipBlanks_cons rfl]
  simp [skipBlanks_cons hblank, hc]

/-- Behind an opening brace and a quotation mark stand the members of an object. -/
theorem value?_brace (cs : List Char) (steps : Nat) :
    value? (steps + 1) ('\x7b' :: '"' :: cs) =
      (members? steps ('"' :: cs)).map fun p => (.obj p.1, p.2) := by
  rw [value?, skipBlanks_cons rfl]
  simp [skipBlanks_cons (c := '"') rfl]

section Parts

variable {steps : Nat} {k : String} {v : Raw} {cs rest : List Char}

/-- The last item of an array is followed by its bracket. -/
theorem items?_last (h : value? steps cs = some (v, ']' :: rest)) :
    items? (steps + 1) cs = some ([v], rest) := by
  rw [items?, h]
  simp only [skipBlanks_cons (c := ']') rfl]

/-- Any other item is followed by a comma, and more items. -/
theorem items?_more (h : value? steps cs = some (v, ',' :: rest)) :
    items? (steps + 1) cs = (items? steps rest).map fun p => (v :: p.1, p.2) := by
  rw [items?, h]
  simp only [skipBlanks_cons (c := ',') rfl]

/-- The text of a member whose value has the given text. -/
def memberText (k : String) (cs : List Char) : List Char :=
  '"' :: (k.toList.flatMap escapeChar ++ '"' :: ':' :: cs)

theorem members?_last (h : value? steps cs = some (v, '\x7d' :: rest)) :
    members? (steps + 1) (memberText k cs) = some ([(some k, v)], rest) := by
  rw [memberText, members?, skipBlanks_cons (c := '"') rfl]
  simp only [string?_quoted, skipBlanks_cons (c := ':') rfl, h, skipBlanks_cons (c := '\x7d') rfl]

theorem members?_more (h : value? steps cs = some (v, ',' :: rest)) :
    members? (steps + 1) (memberText k cs) =
      (members? steps rest).map fun p => ((some k, v) :: p.1, p.2) := by
  rw [memberText, members?, skipBlanks_cons (c := '"') rfl]
  simp only [string?_quoted, skipBlanks_cons (c := ':') rfl, h, skipBlanks_cons (c := ',') rfl]

end Parts

/-- The text of the items of an array, or of the members of an object. -/
def separated (texts : List String) : List Char := [','].intercalate (texts.map String.toList)

theorem toList_print_arr (items : List Json) :
    (print (.arr items)).toList = '[' :: (separated (printItems items) ++ [']']) := by
  rw [print, String.toList_append, String.toList_append, String.toList_intercalate]
  rfl

theorem toList_print_obj (members : List (String × Json)) :
    (print (.obj members)).toList = '\x7b' :: (separated (printMembers members) ++ ['\x7d']) := by
  rw [print, String.toList_append, String.toList_append, String.toList_intercalate]
  rfl

/-- The text of a document starts with a character that is neither a blank nor a closing
bracket. -/
theorem exists_toList_print {j : Json} (hj : j.isExact = true) :
    ∃ c cs, j.print.toList = c :: cs ∧ isBlank c = false ∧ c ≠ ']' := by
  cases j with
  | float x => cases hj
  | int i =>
    obtain ⟨c, cs, hcs, hc⟩ := Text.exists_toList_toString i
    refine ⟨c, cs, hcs, ?_⟩
    rcases hc with rfl | hc
    · exact ⟨rfl, by decide⟩
    · have hne := fun a => Text.ne_of_isDigit (c := a) hc
      simp [isBlank, hne ' ' rfl, hne '\n' rfl, hne '\t' rfl, hne '\r' rfl, hne ']' rfl]
  | null => exact ⟨_, _, rfl, rfl, by decide⟩
  | bool b => cases b <;> exact ⟨_, _, rfl, rfl, by decide⟩
  | str s => exact ⟨'"', _, by rw [print, quoted, String.toList_ofList], rfl, by decide⟩
  | arr items => exact ⟨'[', _, toList_print_arr items, rfl, by decide⟩
  | obj members => exact ⟨'\x7b', _, toList_print_obj members, rfl, by decide⟩

theorem separated_singleton (text : String) : separated [text] = text.toList := by
  rw [separated, List.map_singleton, List.intercalate_singleton]

/-- Texts are separated by commas. -/
theorem separated_cons {texts : List String} (h : texts ≠ []) (text : String) :
    separated (text :: texts) = text.toList ++ ',' :: separated texts := by
  rw [separated, List.map_cons, List.intercalate_cons_of_ne_nil (by simpa using h),
    List.append_assoc]
  rfl

theorem printItems_ne_nil {items : List Json} (h : items ≠ []) : printItems items ≠ [] := by
  cases items with
  | nil => exact absurd rfl h
  | cons v vs => exact List.cons_ne_nil _ _

theorem printMembers_ne_nil {ms : List (String × Json)} (h : ms ≠ []) : printMembers ms ≠ [] := by
  cases ms with
  | nil => exact absurd rfl h
  | cons m ms => exact List.cons_ne_nil _ _

/-- The text of several parts starts as the first of them does. -/
theorem exists_separated_cons {text : String} {c : Char} {cs : List Char}
    (h : text.toList = c :: cs) (texts : List String) :
    ∃ tail, separated (text :: texts) = c :: tail := by
  cases texts with
  | nil => exact ⟨cs, by rw [separated_singleton, h]⟩
  | cons next texts => exact ⟨_, by rw [separated_cons (by simp), h, List.cons_append]⟩

/-- A member is written as its name, a colon and its value. -/
theorem toList_member (k : String) (v : Json) (rest : List Char) :
    (quoted k ++ ":" ++ v.print).toList ++ rest = memberText k (v.print.toList ++ rest) := by
  rw [String.toList_append, String.toList_append, quoted, String.toList_ofList, memberText]
  simp

mutual

/-- **Values**: the text of a document is read as the document, within as many steps as it has
characters. -/
theorem value?_print : ∀ {j : Json}, j.isExact = true → ∀ {steps : Nat} {rest : List Char},
    Ends rest → j.print.toList.length ≤ steps →
      value? steps (j.print.toList ++ rest) = some (written j, rest) := by
  intro j hj steps rest hrest hsteps
  obtain ⟨steps, rfl⟩ : ∃ n, steps = n + 1 := by
    obtain ⟨c, cs, hcs, -⟩ := exists_toList_print hj
    rw [hcs, List.length_cons] at hsteps
    exact ⟨steps - 1, by omega⟩
  match j with
  | .null => rfl
  | .bool true => rfl
  | .bool false => rfl
  | .int i =>
    obtain ⟨c, cs, hcs, hc⟩ := Text.exists_toList_toString i
    have hnumeral := numeral?_append i hrest
    rw [hcs] at hnumeral
    rw [print, hcs, List.cons_append, value?_of_number hc, ← List.cons_append, hnumeral]
    rfl
  | .str s =>
    rw [print, quoted, String.toList_ofList, List.cons_append, value?, skipBlanks_cons rfl]
    simp only [List.append_assoc, List.cons_append, List.nil_append, string?_quoted]
    rfl
  | .arr [] => rfl
  | .arr (v :: vs) =>
    rw [toList_print_arr, List.length_cons, List.length_append, List.length_singleton] at hsteps
    have hitems : items? steps (separated (printItems (v :: vs)) ++ ']' :: rest) =
        some (writtenItems (v :: vs), rest) :=
      items?_print (List.cons_ne_nil v vs) hj (by omega)
    obtain ⟨c, cs, hcs, hblank, hc⟩ := exists_toList_print (Bool.and_eq_true_iff.mp hj).1
    obtain ⟨tail, htail⟩ := exists_separated_cons hcs (printItems vs)
    rw [printItems, htail] at hitems
    rw [toList_print_arr, List.cons_append, List.append_assoc, printItems, htail, List.cons_append,
      value?_bracket hblank hc]
    exact congrArg (Option.map _) hitems
  | .obj [] => rfl
  | .obj ((k, v) :: ms) =>
    rw [toList_print_obj, List.length_cons, List.length_append, List.length_singleton] at hsteps
    have hmembers : members? steps (separated (printMembers ((k, v) :: ms)) ++ '\x7d' :: rest) =
        some (writtenMembers ((k, v) :: ms), rest) :=
      members?_print (List.cons_ne_nil (k, v) ms) hj (by omega)
    have hquote := toList_member k v []
    rw [List.append_nil, memberText] at hquote
    obtain ⟨tail, htail⟩ := exists_separated_cons hquote (printMembers ms)
    rw [printMembers, htail] at hmembers
    rw [toList_print_obj, List.cons_append, List.append_assoc, printMembers, htail,
      List.cons_append, value?_brace]
    exact congrArg (Option.map _) hmembers

/-- **Items**: the text of the items of an array is read up to the closing bracket. -/
theorem items?_print : ∀ {items : List Json}, items ≠ [] → allExact items = true →
    ∀ {steps : Nat} {rest : List Char}, (separated (printItems items)).length < steps →
      items? steps (separated (printItems items) ++ ']' :: rest) =
        some (writtenItems items, rest)
  | [], hne, _, _, _, _ => absurd rfl hne
  | v :: vs, _, hexact, steps, rest, hsteps => by
    obtain ⟨hv, hvs⟩ := Bool.and_eq_true_iff.mp hexact
    obtain ⟨steps, rfl⟩ : ∃ n, steps = n + 1 := ⟨steps - 1, by omega⟩
    rw [printItems] at hsteps ⊢
    by_cases hne : vs = []
    · subst hne
      rw [printItems, separated_singleton] at hsteps ⊢
      exact items?_last (value?_print hv (Or.inr ⟨']', rest, rfl, by simp⟩) (by omega))
    · rw [separated_cons (printItems_ne_nil hne)] at hsteps ⊢
      rw [List.length_append, List.length_cons] at hsteps
      rw [List.append_assoc, List.cons_append,
        items?_more (value?_print hv (Or.inr ⟨',', _, rfl, by simp⟩) (by omega)),
        items?_print hne hvs (by omega)]
      rfl

/-- **Members**: the text of the members of an object is read up to the closing brace. -/
theorem members?_print : ∀ {ms : List (String × Json)}, ms ≠ [] → allExactMembers ms = true →
    ∀ {steps : Nat} {rest : List Char}, (separated (printMembers ms)).length < steps →
      members? steps (separated (printMembers ms) ++ '\x7d' :: rest) =
        some (writtenMembers ms, rest)
  | [], hne, _, _, _, _ => absurd rfl hne
  | (k, v) :: ms, _, hexact, steps, rest, hsteps => by
    obtain ⟨hv, hms⟩ := Bool.and_eq_true_iff.mp hexact
    obtain ⟨steps, rfl⟩ : ∃ n, steps = n + 1 := ⟨steps - 1, by omega⟩
    rw [printMembers] at hsteps ⊢
    by_cases hne : ms = []
    · subst hne
      rw [printMembers, separated_singleton] at hsteps ⊢
      rw [String.toList_append, List.length_append] at hsteps
      rw [toList_member]
      exact members?_last (value?_print hv (Or.inr ⟨'\x7d', rest, rfl, by simp⟩) (by omega))
    · rw [separated_cons (printMembers_ne_nil hne)] at hsteps ⊢
      rw [List.length_append, List.length_cons, String.toList_append, List.length_append] at hsteps
      rw [List.append_assoc, List.cons_append, toList_member,
        members?_more (value?_print hv (Or.inr ⟨',', _, rfl, by simp⟩) (by omega)),
        members?_print hne hms (by omega)]
      rfl

end

/-- **Texts**: a document without floating point numbers is read as it was written. -/
theorem parse?_print {j : Json} (hj : j.isExact = true) : parse? j.print = some (written j) := by
  have h : value? _ (j.print.toList ++ []) = some (written j, []) :=
    value?_print hj (Or.inl rfl) (Nat.le_succ j.print.toList.length)
  rw [List.append_nil] at h
  rw [parse?]
  simp only [h]
  rfl

end Raw

end SchemaCatalog.Json
