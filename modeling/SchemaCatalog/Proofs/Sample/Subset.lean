import Mathlib.Data.List.Duplicate
import Mathlib.Data.List.Perm.Subperm
import SchemaCatalog.Proofs.Sample.Keys
import SchemaCatalog.Proofs.Sample.Kind

/-!
# Drawn subsets of an enumeration

A draw yields a value from the numbers that it takes from the stream (`Draw.Yields`), and what a
sequence of draws yields from some numbers is put together from what its steps yield from parts of
them. So a shuffle yields every permutation of a list (`exists_yields_shuffle`), and the subsets
that can be drawn of an enumeration are just the lists, no longer than the bound, in which no value
stands more often than members have it (`canDraw_enumSubset_iff`). A value thus stands twice in some
subset as soon as two members have it and the bound admits two values; only where the values of the
members differ are drawn subsets, and lists of values of the enumeration, without repetitions
(`nodup_enumSubset_iff`). The items of a list of an extensible enumeration are drawn one by one
instead, so that any list of values is drawn (`canDraw_list_iff_of_extensible?`).
-/

namespace SchemaCatalog

variable {α β : Type}

/-! ### What a draw yields from some numbers -/

namespace Draws

/-- A stream **goes on with** some numbers when these are its numbers from its position on. -/
def GoesOnWith (d : Draws) (ws : List Nat) : Prop :=
  ∀ i w, ws[i]? = some w → d.word (d.next + i) = w

/-- The stream behind so many numbers. -/
def skip (d : Draws) (n : Nat) : Draws := { d with next := d.next + n }

/-- The stream of some numbers, and zeros after them. -/
def ofList (ws : List Nat) : Draws := ⟨fun i => ws.getD i 0, 0⟩

theorem goesOnWith_ofList (ws : List Nat) : (ofList ws).GoesOnWith ws := by
  intro i w hw
  simp [ofList, List.getD_eq_getElem?_getD, hw]

variable {d : Draws} {ws ws' : List Nat}

theorem GoesOnWith.left (h : d.GoesOnWith (ws ++ ws')) : d.GoesOnWith ws := by
  intro i w hw
  obtain ⟨hi, -⟩ := List.getElem?_eq_some_iff.mp hw
  exact h i w (by rw [List.getElem?_append_left hi, hw])

theorem GoesOnWith.right (h : d.GoesOnWith (ws ++ ws')) :
    (d.skip ws.length).GoesOnWith ws' := by
  intro i w hw
  have hplace : (ws ++ ws')[ws.length + i]? = some w := by
    rw [List.getElem?_append_right (Nat.le_add_right _ _), Nat.add_sub_cancel_left, hw]
  have hword := h (ws.length + i) w hplace
  rwa [← Nat.add_assoc] at hword

end Draws

namespace Draw

section Yields

variable {m : Type → Type} [Monad m]

/-- A draw **yields** a value from some numbers when it takes just these numbers, and gives the
value, from every stream that goes on with them. -/
def Yields (x : StateT Draws m α) (ws : List Nat) (a : α) : Prop :=
  ∀ d : Draws, d.GoesOnWith ws → x d = pure (a, d.skip ws.length)

variable [LawfulMonad m] {x : StateT Draws m α} {f : α → StateT Draws m β} {a : α} {b : β}
  {ws ws' : List Nat}

omit [LawfulMonad m] in
/-- What is not drawn takes no numbers. -/
theorem yields_pure (a : α) : Yields (pure a : StateT Draws m α) [] a := fun _ _ => rfl

/-- What follows in a sequence of draws takes the numbers that follow. -/
theorem Yields.bind (hx : Yields x ws a) (hf : Yields (f a) ws' b) :
    Yields (x >>= f) (ws ++ ws') b := by
  intro d hd
  have hbind : (x >>= f) d = x d >>= fun p => f p.1 p.2 := rfl
  rw [hbind, hx d hd.left, pure_bind, hf _ hd.right]
  simp [Draws.skip, Nat.add_assoc]

/-- A draw that is put into a form takes the same numbers. -/
theorem Yields.map {g : α → β} (hx : Yields x ws a) :
    Yields (do let a ← x; return g a) ws (g a) := by
  have hform := hx.bind (f := fun a => pure (g a)) (yields_pure (g a))
  rwa [List.append_nil] at hform

end Yields

section Streams

variable {ws : List Nat}

/-- What is yielded from some numbers is drawn from some stream. -/
theorem Yields.canDraw {x : Sampler α} {a : α} (hx : Yields x ws a) : x.CanDraw a :=
  ⟨.ofList ws, _, hx _ (Draws.goesOnWith_ofList ws)⟩

/-- A draw that cannot fail takes the same numbers. -/
theorem Yields.lift {x : Draw α} {a : α} (hx : Yields x ws a) : Yields (Sampler.lift x) ws a :=
  fun d hd => congrArg Except.ok (hx d hd)

/-- A draw that yields each of some values yields them again and again. -/
theorem exists_yields_replicate {x : Sampler α} :
    ∀ {as : List α}, (∀ a ∈ as, ∃ ws, Yields x ws a) →
      ∃ ws, Yields (Sampler.replicate as.length x) ws as
  | [], _ => ⟨[], yields_pure []⟩
  | a :: as, h => by
    obtain ⟨ws, hws⟩ := h a List.mem_cons_self
    obtain ⟨ws', hws'⟩ := exists_yields_replicate fun b hb => h b (List.mem_cons_of_mem _ hb)
    exact ⟨ws ++ ws', hws.bind hws'.map⟩

/-- A number below a bound is drawn as it is. -/
theorem yields_below {n bound : Nat} (h : n < bound) : Yields (below bound) [n] n := by
  intro d hd
  have hword : d.word d.next = n := hd 0 n rfl
  have hbelow : below bound d = (d.word d.next % bound, d.skip 1) := rfl
  rw [hbelow, hword, Nat.mod_eq_of_lt h]
  rfl

theorem yields_between {n greatest : Nat} (h : n ≤ greatest) :
    Yields (between 0 greatest) [n] n := by
  have hbelow : n < greatest - 0 + 1 := Nat.lt_succ_of_le h
  have hbetween := (yields_below hbelow).map (g := fun n => 0 + n)
  rwa [Nat.zero_add] at hbetween

/-- A choice yields every element. -/
theorem exists_yields_choose? {as : List α} {a : α} (ha : a ∈ as) :
    ∃ ws, Yields (choose? as) ws (some a) := by
  obtain ⟨i, hi, rfl⟩ := List.getElem_of_mem ha
  have hchoose : choose? as = do let i ← below as.length; return as[i]? := by
    rw [choose?, if_neg (by simpa using List.ne_nil_of_mem ha)]
  have hplace := (yields_below hi).map (g := fun i => as[i]?)
  rw [← hchoose, List.getElem?_eq_getElem hi] at hplace
  exact ⟨[i], hplace⟩

/-- **A shuffle yields every permutation.** -/
theorem exists_yields_shuffle {as bs : List α} (h : bs.Perm as) :
    ∃ ws, Yields (shuffle as) ws bs := by
  induction as generalizing bs with
  | nil =>
    rw [h.eq_nil]
    exact ⟨[], yields_pure []⟩
  | cons a as ih =>
    -- the other elements are shuffled first, and then the first one is put in its place
    obtain ⟨i, hi, rfl⟩ := List.getElem_of_mem (h.mem_iff.mpr List.mem_cons_self)
    have hrest : (bs.eraseIdx i).Perm as :=
      ((List.getElem_cons_eraseIdx_perm hi).trans h).cons_inv
    obtain ⟨ws, hws⟩ := ih hrest
    have hplace : i < (bs.eraseIdx i).length + 1 := by
      rw [List.length_eraseIdx_of_lt hi]
      omega
    have hput : Yields (shuffle (bs[i] :: as)) (ws ++ [i])
        ((bs.eraseIdx i).insertIdx i bs[i]) := hws.bind (yields_below hplace).map
    rw [List.insertIdx_eraseIdx_getElem hi] at hput
    exact ⟨ws ++ [i], hput⟩

end Streams

end Draw

open Sampler

/-! ### Subsets -/

variable {e : Enumeration} {greatest : Nat} {vs : List Literal}

/-- **The subsets that can be drawn** are the lists of values that are not too long, and in which no
value stands more often than members have it. -/
theorem canDraw_enumSubset_iff :
    (lift (Draw.enumSubset e greatest)).CanDraw vs ↔
      vs.length ≤ greatest ∧ vs.Subperm e.values := by
  constructor
  · intro h
    obtain ⟨d, rfl⟩ := canDraw_lift_iff.mp h
    have hshuffle := Draw.perm_shuffle e.values d
    have htake : (Draw.enumSubset e greatest d).1 = (Draw.shuffle e.values d).1.take
        (Draw.between 0 greatest (Draw.shuffle e.values d).2).1 := rfl
    rw [htake]
    refine ⟨(List.length_take_le _ _).trans (Draw.between_le (Nat.zero_le _) _), ?_⟩
    exact (List.take_sublist _ _).subperm.trans hshuffle.subperm
  · rintro ⟨hlength, vs', hperm, hsub⟩
    obtain ⟨rest, hrest⟩ := hsub.exists_perm_append
    have hvalues : (vs ++ rest).Perm e.values := (hperm.symm.append_right rest).trans hrest.symm
    obtain ⟨ws, hws⟩ := Draw.exists_yields_shuffle hvalues
    have hsubset : Draw.Yields (Draw.enumSubset e greatest) (ws ++ [vs.length])
        ((vs ++ rest).take vs.length) := hws.bind (Draw.yields_between hlength).map
    rw [List.take_left] at hsubset
    exact hsubset.lift.canDraw

/-- All lists of a bounded number of elements of a list are without repetitions when the list is, or
there is no room for two elements. -/
theorem forall_nodup_iff {as : List α} :
    (∀ bs : List α, bs.length ≤ greatest → bs.Subperm as → bs.Nodup) ↔
      as.Nodup ∨ greatest ≤ 1 := by
  constructor
  · intro h
    by_contra hnot
    obtain ⟨hdup, hgreatest⟩ := not_or.mp hnot
    obtain ⟨a, ha⟩ := List.exists_duplicate_iff_not_nodup.mpr hdup
    have hpair : [a, a].Nodup :=
      h [a, a] (by simp; omega) (List.duplicate_iff_sublist.mp ha).subperm
    simp at hpair
  · rintro (hnodup | hgreatest) bs hlength ⟨bs', hperm, hsub⟩
    · exact hperm.nodup_iff.mp (hnodup.sublist hsub)
    · match bs with
      | [] => exact List.nodup_nil
      | [a] => exact List.nodup_singleton a
      | _ :: _ :: _ =>
        simp only [List.length_cons] at hlength
        omega

/-! ### Lists of values -/

namespace Sample

variable {s : Sample} {ofType : NativeType → Sampler Value} {item : NativeType}

/-- The lists that can be drawn for a list of an enumeration are its subsets. -/
theorem canDraw_list_iff (he : s.registry.enumeration? item.unadorned = some e) {v : Value} :
    (s.valueWith ofType (.list item)).CanDraw v ↔
      ∃ vs : List Literal, v = .list (vs.map .member) ∧ vs.length ≤ itemLimit ∧
        vs.Subperm e.values := by
  have hlist : s.valueWith ofType (.list item) = lift (do
      let vs ← Draw.enumSubset e itemLimit
      return .list (vs.map .member)) := by
    rw [valueWith, he]
  rw [hlist, canDraw_lift_map_iff]
  simp only [canDraw_enumSubset_iff, and_comm]

/-- Lists of an enumeration are without repetitions when its subsets are. -/
theorem forall_nodup_list_iff (he : s.registry.enumeration? item.unadorned = some e) :
    (∀ vs, (s.valueWith ofType (.list item)).CanDraw (.list vs) → vs.Nodup) ↔ e.values.Nodup := by
  have hroom : ¬ itemLimit ≤ 1 := by decide
  rw [← or_iff_left (a := e.values.Nodup) hroom, ← forall_nodup_iff]
  constructor
  · intro h vs hlength hsub
    have hmembers : (vs.map Value.member).Nodup :=
      h _ ((canDraw_list_iff he).mpr ⟨vs, rfl, hlength, hsub⟩)
    exact hmembers.of_map
  · intro h values hvalues
    obtain ⟨vs, hvs, hlength, hsub⟩ := (canDraw_list_iff he).mp hvalues
    rw [Value.list.inj hvs]
    exact (h vs hlength hsub).map fun _ _ => Value.member.inj

/-! ### Lists of an extensible enumeration -/

/-- A type that is an extensible enumeration, with or without annotations, is drawn as one of its
values. -/
theorem exists_valueWith_eq_enumMember (he : s.registry.extensible? item.unadorned = some e) :
    s.registry.enumeration? item.unadorned = none ∧
      ∃ t, s.valueWith ofType item = enumMember t e := by
  obtain ⟨ms, hunion, -⟩ := Registry.extensible?_eq_some he
  have hne : item.unadorned ≠ .primitive .string := by
    rw [hunion]
    nofun
  rw [hunion] at he ⊢
  refine ⟨rfl, .union ms, ?_⟩
  rw [valueWith_unadorned hne, hunion, valueWith, he]

/-- The lists that can be drawn for a list of an extensible enumeration are all lists of its values
that are not too long: each item is drawn by itself. -/
theorem canDraw_list_iff_of_extensible? (he : s.registry.extensible? item.unadorned = some e)
    {v : Value} :
    (s.valueWith ofType (.list item)).CanDraw v ↔
      ∃ vs, v = .list vs ∧ vs.length ≤ itemLimit ∧ vs ⊆ e.values.map .member := by
  obtain ⟨hnone, t, hitem⟩ := exists_valueWith_eq_enumMember he
  have hlist : s.valueWith ofType (.list item) = do
      let n ← lift (Draw.between 0 itemLimit)
      let vs ← replicate n (enumMember t e)
      return .list vs := by
    rw [valueWith, hnone, hitem]
  rw [hlist]
  constructor
  · intro h
    obtain ⟨n, hn, h⟩ := h.exists_of_bind
    obtain ⟨vs, hvs, rfl⟩ := h.exists_of_map
    obtain ⟨d, rfl⟩ := canDraw_lift_iff.mp hn
    obtain ⟨hlength, hvalues⟩ := forall_of_canDraw_replicate hvs
    refine ⟨vs, rfl, hlength.trans_le (Draw.between_le (Nat.zero_le _) d), fun v hv => ?_⟩
    obtain ⟨l, hl, rfl⟩ := exists_value_of_canDraw_enumMember (hvalues v hv)
    exact List.mem_map_of_mem hl
  · rintro ⟨vs, rfl, hlength, hsub⟩
    have hitems : ∀ v ∈ vs, ∃ ws, Draw.Yields (enumMember t e) ws v := by
      intro v hv
      obtain ⟨l, hl, rfl⟩ := List.mem_map.mp (hsub hv)
      obtain ⟨ws, hws⟩ := Draw.exists_yields_choose? hl
      exact ⟨ws ++ [], hws.lift.bind (Draw.yields_pure (Value.member l))⟩
    obtain ⟨ws, hws⟩ := Draw.exists_yields_replicate hitems
    exact ((Draw.yields_between hlength).lift.bind hws.map).canDraw

/-- Lists of an extensible enumeration are without repetitions only where it has no values. -/
theorem forall_nodup_list_iff_of_extensible?
    (he : s.registry.extensible? item.unadorned = some e) :
    (∀ vs, (s.valueWith ofType (.list item)).CanDraw (.list vs) → vs.Nodup) ↔ e.values = [] := by
  constructor
  · intro h
    by_contra hne
    obtain ⟨l, hl⟩ := List.exists_mem_of_ne_nil _ hne
    have hroom : 2 ≤ itemLimit := by decide
    have hpair : [Value.member l, .member l].Nodup := by
      refine h _ ((canDraw_list_iff_of_extensible? he).mpr ⟨_, rfl, hroom, ?_⟩)
      exact List.cons_subset.mpr ⟨List.mem_map_of_mem hl,
        List.cons_subset.mpr ⟨List.mem_map_of_mem hl, List.nil_subset _⟩⟩
    simp at hpair
  · intro hvalues vs h
    obtain ⟨vs', hvs, -, hsub⟩ := (canDraw_list_iff_of_extensible? he).mp h
    rw [hvalues, List.map_nil, List.subset_nil] at hsub
    rw [Value.list.inj hvs, hsub]
    exact List.nodup_nil

end Sample

/-- **Subsets of an enumeration.** What can be drawn are all lists of values that are no longer than
the bound, and in which no value stands more often than members have it. They are all without
repetitions when no two members have the same value, or the bound admits one value only. The same
goes for the lists that are drawn for a type of lists of the enumeration. Lists of an extensible
enumeration are no subsets: any of their items can have any value, so that they are without
repetitions only where there are no values. -/
theorem nodup_enumSubset_iff (e : Enumeration) (greatest : Nat) :
    (∀ vs, (lift (Draw.enumSubset e greatest)).CanDraw vs ↔
      vs.length ≤ greatest ∧ vs.Subperm e.values) ∧
    ((∀ vs, (lift (Draw.enumSubset e greatest)).CanDraw vs → vs.Nodup) ↔
      e.values.Nodup ∨ greatest ≤ 1) ∧
    (∀ (s : Sample) (ofType : NativeType → Sampler Value) (item : NativeType),
      s.registry.enumeration? item.unadorned = some e →
        (∀ v, (s.valueWith ofType (.list item)).CanDraw v ↔
          ∃ vs : List Literal, v = .list (vs.map .member) ∧ vs.length ≤ Sample.itemLimit ∧
            vs.Subperm e.values) ∧
        ((∀ vs, (s.valueWith ofType (.list item)).CanDraw (.list vs) → vs.Nodup) ↔
          e.values.Nodup)) ∧
    ∀ (s : Sample) (ofType : NativeType → Sampler Value) (item : NativeType),
      s.registry.extensible? item.unadorned = some e →
        (∀ v, (s.valueWith ofType (.list item)).CanDraw v ↔
          ∃ vs, v = .list vs ∧ vs.length ≤ Sample.itemLimit ∧ vs ⊆ e.values.map .member) ∧
        ((∀ vs, (s.valueWith ofType (.list item)).CanDraw (.list vs) → vs.Nodup) ↔
          e.values = []) := by
  refine ⟨fun vs => canDraw_enumSubset_iff, ?_, fun s ofType item he => ?_,
    fun s ofType item he => ?_⟩
  · simp only [canDraw_enumSubset_iff, and_imp, forall_nodup_iff]
  · exact ⟨fun v => Sample.canDraw_list_iff he, Sample.forall_nodup_list_iff he⟩
  · exact ⟨fun v => Sample.canDraw_list_iff_of_extensible? he,
      Sample.forall_nodup_list_iff_of_extensible? he⟩

/-! ### A paint box -/

/-- Paints, of which two are called red. -/
def paint : Enumeration where
  name := "Paint"
  moduleName := "studio"
  members := [("red", .str "red"), ("green", .str "green"), ("scarlet", .str "red")]

/-- What is drawn for paints. -/
def paintBox : Sample where
  registry :=
    { types := [.enumeration paint]
      nodup_names := by decide }
  latest := Sample.earliest
  keys := []
  depth := 1

theorem duplicate_paint : [Literal.str "red", .str "red"].Subperm paint.values :=
  ((((List.Sublist.refl _).cons _).cons_cons _)).subperm

/-- A paint of the box, or any other one by its name. -/
def anyPaint : NativeType := .union [.ref "Paint", .boundedString 20]

/-- A box can hold the same red twice, and a box of any paints the same green three times. -/
theorem nodup_enumSubset_iff_paintBox :
    paintBox.registry.enumeration? (.ref "Paint") = some paint ∧
      (paintBox.valueWith paintBox.value (.list (.annotated (.ref "Paint") []))).CanDraw
        (.list [.member (.str "red"), .member (.str "red")]) ∧
      ¬ paint.values.Nodup ∧
      paintBox.registry.extensible? anyPaint = some paint ∧
      (paintBox.valueWith paintBox.value (.list anyPaint)).CanDraw
        (.list (List.replicate 3 (.member (.str "green")))) := by
  have he : paintBox.registry.enumeration? (.ref "Paint") = some paint := rfl
  have he' : paintBox.registry.extensible? anyPaint = some paint := rfl
  obtain ⟨-, -, hlists, hothers⟩ := nodup_enumSubset_iff paint 2
  obtain ⟨hlist, hnodup⟩ := hlists paintBox paintBox.value (.annotated (.ref "Paint") []) he
  have hdrawn := (hlist _).mpr ⟨_, rfl, by decide, duplicate_paint⟩
  have hgreen := ((hothers paintBox paintBox.value anyPaint he').1 _).mpr
    ⟨List.replicate 3 (.member (.str "green")), rfl, by decide, by simp [paint, Enumeration.values]⟩
  exact ⟨he, hdrawn, fun hvalues => absurd (hnodup.mpr hvalues _ hdrawn) (by simp), he', hgreen⟩

/-- Of two paints that are drawn both can be red. -/
theorem not_nodup_enumSubset_paint :
    ¬ ∀ vs, (lift (Draw.enumSubset paint 2)).CanDraw vs → vs.Nodup := by
  intro h
  have hdrawn : (lift (Draw.enumSubset paint 2)).CanDraw [.str "red", .str "red"] :=
    canDraw_enumSubset_iff.mpr ⟨by decide, duplicate_paint⟩
  exact absurd (h _ hdrawn) (by simp)

end SchemaCatalog
