import Mathlib.Data.List.Forall2

/-!
# Results of fallible steps

Conversions are sequences of steps that may fail. `bind_eq_ok_iff` takes a successful sequence
apart into its steps, and `mapM_eq_ok_iff` does so for a step that is taken for every element
of a list; `mem_iff_of_mapM` reads the second off as membership. `bind_eq_error_iff` finds the step
at which a sequence fails, and what its steps fail with only, the sequence does (`FailsOnly`).
Forgetting the errors commutes with taking steps in sequence (`toOption_bind`, `toOption_mapM`); so
do steps that follow others, which give the same up to a function (`Follows`).
-/

namespace SchemaCatalog

universe u v w

variable {ε : Type u} {α β γ : Type v}

/-- A sequence succeeds when its first step does and the rest does with the value of it. -/
theorem bind_eq_ok_iff {x : Except ε α} {f : α → Except ε β} {b : β} :
    x >>= f = .ok b ↔ ∃ a, x = .ok a ∧ f a = .ok b := by
  cases x with
  | error e => exact ⟨nofun, fun ⟨_, h, _⟩ => nomatch h⟩
  | ok a =>
    constructor
    · exact fun h => ⟨a, rfl, h⟩
    · rintro ⟨_, ha, h⟩
      cases ha
      exact h

/-- A sequence fails when its first step does, or the rest does with the value of it. -/
theorem bind_eq_error_iff {x : Except ε α} {f : α → Except ε β} {e : ε} :
    x >>= f = .error e ↔ x = .error e ∨ ∃ a, x = .ok a ∧ f a = .error e := by
  cases x with
  | error e' =>
    constructor
    · exact fun h => .inl (by cases h; rfl)
    · rintro (h | ⟨_, h, _⟩) <;> cases h
      rfl
  | ok a =>
    constructor
    · exact fun h => .inr ⟨a, rfl, h⟩
    · rintro (h | ⟨_, ha, h⟩)
      · cases h
      · cases ha
        exact h

/-- Sequences with one first step agree when they agree on the value of it. -/
theorem bind_congr_of_ok {x : Except ε α} {f g : α → Except ε β}
    (h : ∀ a, x = .ok a → f a = g a) : x >>= f = x >>= g := by
  cases x with
  | error e => rfl
  | ok a => exact h a rfl

theorem pure_eq_ok_iff {a b : α} : (pure a : Except ε α) = .ok b ↔ a = b :=
  Except.ok.injEq a b ▸ Iff.rfl

/-- Renaming the errors of a step does not change when it succeeds. -/
theorem mapError_eq_ok_iff {ε' : Type u} {x : Except ε α} {f : ε → ε'} {a : α} :
    x.mapError f = .ok a ↔ x = .ok a := by
  cases x <;> simp [Except.mapError]

/-- A renamed error comes of an error. -/
theorem mapError_eq_error_iff {ε' : Type u} {x : Except ε α} {f : ε → ε'} {e' : ε'} :
    x.mapError f = .error e' ↔ ∃ e, x = .error e ∧ f e = e' := by
  cases x <;> simp [Except.mapError]

theorem map_eq_ok_iff {x : Except ε α} {f : α → β} {b : β} :
    x.map f = .ok b ↔ ∃ a, x = .ok a ∧ f a = b := by
  cases x <;> simp [Except.map]

theorem map_eq_error_iff {x : Except ε α} {f : α → β} {e : ε} :
    x.map f = .error e ↔ x = .error e := by
  cases x <;> simp [Except.map]

theorem toOption_eq_some_iff {x : Except ε α} {a : α} : x.toOption = some a ↔ x = .ok a := by
  cases x <;> simp [Except.toOption]

/-- A step with a result of some shape succeeds with such a result. -/
theorem exists_eq_ok_of_toOption {x : Except ε α} {f : α → β} {b : β}
    (h : x.toOption.map f = some b) : ∃ a, x = .ok a ∧ f a = b := by
  obtain ⟨a, ha, hb⟩ := Option.map_eq_some_iff.mp h
  exact ⟨a, toOption_eq_some_iff.mp ha, hb⟩

/-- A step without a result has an error. -/
theorem exists_eq_error_of_toOption {x : Except ε α} (h : x.toOption = none) :
    ∃ e, x = .error e := by
  cases x with
  | error e => exact ⟨e, rfl⟩
  | ok a => cases h

/-! ### A step for every element of a list -/

/-- A step taken for every element succeeds exactly with pointwise results. -/
theorem mapM_eq_ok_iff {f : α → Except ε β} {as : List α} {bs : List β} :
    as.mapM f = .ok bs ↔ List.Forall₂ (fun a b => f a = .ok b) as bs := by
  induction as generalizing bs with
  | nil => rw [List.mapM_nil, pure_eq_ok_iff, List.forall₂_nil_left_iff, eq_comm]
  | cons a as ih =>
    rw [List.mapM_cons, bind_eq_ok_iff, List.forall₂_cons_left_iff]
    simp only [bind_eq_ok_iff, pure_eq_ok_iff, ih]
    constructor
    · rintro ⟨b, hb, bs', hbs, rfl⟩
      exact ⟨b, bs', hb, hbs, rfl⟩
    · rintro ⟨b, bs', hb, hbs, rfl⟩
      exact ⟨b, hb, bs', hbs, rfl⟩

/-- Steps that may give nothing give a list exactly when each of them gives its element. -/
theorem mapM_eq_some_iff {f : α → Option β} {as : List α} {bs : List β} :
    as.mapM f = some bs ↔ List.Forall₂ (fun a b => f a = some b) as bs := by
  induction as generalizing bs with
  | nil => simp [eq_comm]
  | cons a as ih =>
    rw [List.mapM_cons, List.forall₂_cons_left_iff]
    simp only [Option.bind_eq_bind, Option.bind_eq_some_iff, Option.pure_def, Option.some.injEq, ih]
    constructor
    · rintro ⟨b, hb, bs', hbs, rfl⟩
      exact ⟨b, bs', hb, hbs, rfl⟩
    · rintro ⟨b, bs', hb, hbs, rfl⟩
      exact ⟨b, hb, bs', hbs, rfl⟩

/-- Steps that agree on the elements of a list give the same results, or the same error. -/
theorem mapM_congr {m : Type v → Type w} [Monad m] [LawfulMonad m] {f g : α → m β} {as : List α}
    (h : ∀ a ∈ as, f a = g a) : as.mapM f = as.mapM g := by
  induction as with
  | nil => rfl
  | cons a as ih =>
    rw [List.mapM_cons, List.mapM_cons, h a List.mem_cons_self,
      ih fun b hb => h b (List.mem_cons_of_mem _ hb)]

/-- A step that succeeds for every element has results for all of them. -/
theorem exists_mapM_eq_ok {f : α → Except ε β} {as : List α} (h : ∀ a ∈ as, ∃ b, f a = .ok b) :
    ∃ bs, as.mapM f = .ok bs := by
  induction as with
  | nil => exact ⟨[], rfl⟩
  | cons a as ih =>
    obtain ⟨b, hb⟩ := h a List.mem_cons_self
    obtain ⟨bs, hbs⟩ := ih fun a' ha' => h a' (List.mem_cons_of_mem _ ha')
    exact ⟨b :: bs, mapM_eq_ok_iff.mpr (.cons hb (mapM_eq_ok_iff.mp hbs))⟩

/-- Changing the results of a step changes the results for the elements of a list. -/
theorem map_mapM {m : Type v → Type w} [Monad m] [LawfulMonad m] {f : α → m β} {g : β → γ}
    {as : List α} : List.map g <$> as.mapM f = as.mapM fun a => g <$> f a := by
  induction as with
  | nil => simp
  | cons a as ih => simp [← ih]

/-- What holds at the start and is kept by every step holds at the end; it may speak of the
elements that remain. -/
theorem foldlM_induction {f : β → α → Except ε β} {I : List α → β → Prop}
    (step : ∀ a as b b', I (a :: as) b → f b a = .ok b' → I as b') :
    ∀ {as : List α} {b b' : β}, I as b → as.foldlM f b = .ok b' → I [] b'
  | [], _, _, hb, h => pure_eq_ok_iff.mp h ▸ hb
  | a :: as, b, _, hb, h => by
    rw [List.foldlM_cons] at h
    obtain ⟨next, hnext, h⟩ := bind_eq_ok_iff.mp h
    exact foldlM_induction step (step a as b next hb hnext) h

/-- Steps that agree on the elements of a list, whatever the state, end in the same state. -/
theorem foldlM_congr {f g : β → α → Except ε β} {as : List α}
    (h : ∀ a ∈ as, ∀ b, f b a = g b a) (b : β) : as.foldlM f b = as.foldlM g b := by
  induction as generalizing b with
  | nil => rfl
  | cons a as ih =>
    rw [List.foldlM_cons, List.foldlM_cons, h a List.mem_cons_self]
    exact bind_congr_of_ok fun b' _ => ih (fun a' ha' => h a' (List.mem_cons_of_mem _ ha')) b'

/-- A sequence of steps that fails fails at the step of some element. -/
theorem exists_of_foldlM_eq_error {f : β → α → Except ε β} {as : List α} {b : β} {e : ε}
    (h : as.foldlM f b = .error e) : ∃ a ∈ as, ∃ b', f b' a = .error e := by
  induction as generalizing b with
  | nil => cases h
  | cons a as ih =>
    rw [List.foldlM_cons] at h
    rcases bind_eq_error_iff.mp h with h | ⟨b', -, h⟩
    · exact ⟨a, List.mem_cons_self, b, h⟩
    · obtain ⟨a', ha', b', h⟩ := ih h
      exact ⟨a', List.mem_cons_of_mem _ ha', b', h⟩

/-- A sequence of steps commutes with a change of states that every step commutes with. -/
theorem foldlM_hom {f : β → α → Except ε β} {f' : γ → α → Except ε γ} {g : β → γ}
    (h : ∀ b a, f' (g b) a = (f b a).map g) (as : List α) (b : β) :
    as.foldlM f' (g b) = (as.foldlM f b).map g := by
  induction as generalizing b with
  | nil => rfl
  | cons a as ih =>
    rw [List.foldlM_cons, List.foldlM_cons, h]
    cases f b a with
    | error e => rfl
    | ok b' => exact ih b'

section Forall

variable {R : α → β → Prop} {as : List α} {bs : List β}

/-- Each element of the first list has a partner in the second one. -/
theorem exists_of_mem_left (h : List.Forall₂ R as bs) {a : α} (ha : a ∈ as) :
    ∃ b ∈ bs, R a b := by
  induction h with
  | nil => cases ha
  | cons hab _ ih =>
    rcases List.mem_cons.mp ha with rfl | ha
    · exact ⟨_, List.mem_cons_self, hab⟩
    · obtain ⟨b, hb, hr⟩ := ih ha
      exact ⟨b, List.mem_cons_of_mem _ hb, hr⟩

/-- Each element of the second list has a partner in the first one. -/
theorem exists_of_mem_right (h : List.Forall₂ R as bs) {b : β} (hb : b ∈ bs) :
    ∃ a ∈ as, R a b :=
  exists_of_mem_left h.flip hb

/-- What corresponds to a list of two parts has two parts. -/
theorem exists_of_forall₂_append {as' : List α} {cs : List β} (h : List.Forall₂ R (as ++ as') cs) :
    ∃ bs bs', cs = bs ++ bs' ∧ List.Forall₂ R as bs ∧ List.Forall₂ R as' bs' := by
  refine ⟨cs.take as.length, cs.drop as.length, (List.take_append_drop ..).symm, ?_, ?_⟩
  · exact (List.forall₂_take_append _ _ _ h.flip).flip
  · exact (List.forall₂_drop_append _ _ _ h.flip).flip

/-- A relation between earlier and later elements passes to the lists that correspond. -/
theorem pairwise_of_forall₂ {S : α → α → Prop} (h : List.Forall₂ R as bs) (hS : as.Pairwise S) :
    bs.Pairwise fun b b' => ∃ a ∈ as, ∃ a' ∈ as, R a b ∧ R a' b' ∧ S a a' := by
  induction h with
  | nil => exact .nil
  | @cons a b as bs hab h ih =>
    obtain ⟨ha, hS⟩ := List.pairwise_cons.mp hS
    refine List.pairwise_cons.mpr ⟨fun b' hb' => ?_, (ih hS).imp ?_⟩
    · obtain ⟨a', ha', hab'⟩ := exists_of_mem_right h hb'
      exact ⟨a, List.mem_cons_self, a', List.mem_cons_of_mem _ ha', hab, hab', ha a' ha'⟩
    · rintro b b' ⟨a, ha, a', ha', hR⟩
      exact ⟨a, List.mem_cons_of_mem _ ha, a', List.mem_cons_of_mem _ ha', hR⟩

/-- Lists whose elements agree pairwise in a key have the same keys in the same order. -/
theorem map_eq_map_of_forall₂ {f : α → γ} {g : β → γ} (h : List.Forall₂ R as bs)
    (hfg : ∀ a b, R a b → f a = g b) : as.map f = bs.map g := by
  induction h with
  | nil => rfl
  | cons hab _ ih => rw [List.map_cons, List.map_cons, hfg _ _ hab, ih]

/-- A step from related elements to a third one that is related to both can be taken throughout. -/
theorem exists_forall₂_of_forall₂ {S : β → γ → Prop} {T : α → γ → Prop}
    (h : List.Forall₂ R as bs) (step : ∀ a ∈ as, ∀ b, R a b → ∃ c, S b c ∧ T a c) :
    ∃ cs, List.Forall₂ S bs cs ∧ List.Forall₂ T as cs := by
  induction h with
  | nil => exact ⟨[], .nil, .nil⟩
  | cons hab _ ih =>
    obtain ⟨c, hS, hT⟩ := step _ List.mem_cons_self _ hab
    obtain ⟨cs, hSs, hTs⟩ := ih fun a ha => step a (List.mem_cons_of_mem _ ha)
    exact ⟨c :: cs, .cons hS hSs, .cons hT hTs⟩

end Forall

/-- The results of a step for every element are the results of the elements. -/
theorem mem_iff_of_mapM {f : α → Except ε β} {as : List α} {bs : List β}
    (h : as.mapM f = .ok bs) {b : β} : b ∈ bs ↔ ∃ a ∈ as, f a = .ok b := by
  have hall := mapM_eq_ok_iff.mp h
  constructor
  · exact exists_of_mem_right hall
  · rintro ⟨a, ha, hab⟩
    obtain ⟨b', hb', hab'⟩ := exists_of_mem_left hall ha
    rw [hab] at hab'
    cases hab'
    exact hb'

/-- The elements that a step gives something for, one by one. -/
theorem filterMap_id_of_mapM {f : α → Except ε (Option β)} {as : List α} {bs : List (Option β)}
    (h : as.mapM f = .ok bs) : bs.filterMap id = as.filterMap fun a => (f a).toOption.join := by
  induction mapM_eq_ok_iff.mp h with
  | nil => rfl
  | cons hab hall ih =>
    rw [List.filterMap_cons, List.filterMap_cons, ih (mapM_eq_ok_iff.mpr hall), hab]
    rfl

/-! ### Errors that meet a condition -/

/-- A step **fails only** with errors that meet a condition. -/
def FailsOnly (P : ε → Prop) (x : Except ε α) : Prop := ∀ e, x = .error e → P e

namespace FailsOnly

variable {P : ε → Prop} {x : Except ε α}

/-- A success fails with nothing. -/
theorem ok (a : α) : FailsOnly P (.ok a) := nofun

theorem error {e : ε} (he : P e) : FailsOnly P (.error e : Except ε α) := by
  rintro _ ⟨⟩
  exact he

/-- A weaker condition is met as well. -/
theorem mono {Q : ε → Prop} (hx : FailsOnly P x) (hPQ : ∀ e, P e → Q e) : FailsOnly Q x :=
  fun e he => hPQ e (hx e he)

/-- A sequence fails only with what its steps fail with, where a step after a success may use what
this gave. -/
theorem bind_of_ok {f : α → Except ε β} (hx : FailsOnly P x)
    (hf : ∀ a, x = .ok a → FailsOnly P (f a)) : FailsOnly P (x >>= f) := by
  intro e h
  obtain h | ⟨a, ha, h⟩ := bind_eq_error_iff.mp h
  · exact hx e h
  · exact hf a ha e h

theorem bind {f : α → Except ε β} (hx : FailsOnly P x) (hf : ∀ a, FailsOnly P (f a)) :
    FailsOnly P (x >>= f) :=
  hx.bind_of_ok fun a _ => hf a

theorem map (hx : FailsOnly P x) (f : α → β) : FailsOnly P (x.map f) :=
  fun e h => hx e (map_eq_error_iff.mp h)

theorem mapError {ε' : Type u} {Q : ε' → Prop} {f : ε → ε'} (hx : FailsOnly P x)
    (hf : ∀ e, P e → Q (f e)) : FailsOnly Q (x.mapError f) := by
  intro e' h
  obtain ⟨e, he, rfl⟩ := mapError_eq_error_iff.mp h
  exact hf e (hx e he)

/-- Renamed errors meet a condition that all of the new ones meet. -/
theorem of_mapError {ε' : Type u} {Q : ε' → Prop} {f : ε → ε'} (hf : ∀ e, Q (f e)) :
    FailsOnly Q (x.mapError f) :=
  mapError (fun _ _ => trivial : FailsOnly (fun _ => True) x) fun e _ => hf e

/-- Steps along a list fail only with what one of them fails with. -/
theorem mapM {f : α → Except ε β} {as : List α} (hf : ∀ a ∈ as, FailsOnly P (f a)) :
    FailsOnly P (as.mapM f) := by
  induction as with
  | nil => exact .ok []
  | cons a as ih =>
    rw [List.mapM_cons]
    exact (hf a List.mem_cons_self).bind fun b =>
      (ih fun a' ha' => hf a' (List.mem_cons_of_mem _ ha')).bind fun bs => .ok (b :: bs)

/-- A fold fails only with what one of its steps fails with, whatever it is applied to. -/
theorem foldlM {f : β → α → Except ε β} {as : List α} (hf : ∀ b a, FailsOnly P (f b a)) (b : β) :
    FailsOnly P (as.foldlM f b) := by
  intro e h
  obtain ⟨a, -, b', h⟩ := exists_of_foldlM_eq_error h
  exact hf b' a e h

end FailsOnly

/-! ### Results without their errors -/

section ToOption

variable {x : Except ε α}

/-- Steps have the same result, errors aside, when they succeed alike. -/
theorem toOption_eq_toOption_iff {y : Except ε α} :
    x.toOption = y.toOption ↔ ∀ a, x = .ok a ↔ y = .ok a := by
  rw [Option.ext_iff]
  simp only [toOption_eq_some_iff]

/-- Without errors, steps follow each other as partial functions do. -/
theorem toOption_bind {f : α → Except ε β} :
    (x >>= f).toOption = x.toOption.bind fun a => (f a).toOption := by
  cases x <;> rfl

theorem toOption_map {f : α → β} : (x.map f).toOption = x.toOption.map f := by
  cases x <;> rfl

/-- Renaming errors changes no result. -/
theorem toOption_mapError {ε' : Type u} {f : ε → ε'} : (x.mapError f).toOption = x.toOption := by
  cases x <;> rfl

/-- Without errors, steps along a list are partial functions along it. -/
theorem toOption_mapM {f : α → Except ε β} {as : List α} :
    (as.mapM f).toOption = as.mapM fun a => (f a).toOption := by
  induction as with
  | nil => rfl
  | cons a as ih =>
    rw [List.mapM_cons, List.mapM_cons, toOption_bind, ← ih]
    refine Option.bind_congr fun b _ => ?_
    rw [toOption_bind]
    rfl

end ToOption

/-! ### Steps that follow others -/

/-- A step **follows** another one along a function when it gives the image of what the other one
gives, and fails when the other one fails, with whatever error. -/
def Follows {α β : Type v} (g : α → β) (x : Except ε α) (y : Except ε β) : Prop :=
  y.toOption = x.toOption.map g

namespace Follows

variable {δ : Type v} {x : Except ε α} {y : Except ε β} {g : α → β}

theorem ok (a : α) : Follows g (.ok a : Except ε α) (.ok (g a)) := rfl

/-- Any failure follows any other one. -/
theorem error (e e' : ε) : Follows g (.error e) (.error e') := rfl

/-- A step follows itself. -/
theorem refl (x : Except ε α) : Follows id x x := by
  cases x <;> rfl

/-- A step follows itself along a function that keeps its result. -/
theorem of_eq {g : α → α} (h : ∀ a, x = .ok a → g a = a) : Follows g x x := by
  cases x with
  | error e => rfl
  | ok a => exact congrArg some (h a rfl).symm

/-- What a success gives is the image of what the other one gave. -/
theorem eq_ok (h : Follows g x y) {a : α} (hx : x = .ok a) : y = .ok (g a) := by
  subst hx
  exact toOption_eq_some_iff.mp h

/-- A sequence follows another one when its steps do, one after the other. -/
theorem bind_of_ok {f : α → Except ε γ} {f' : β → Except ε δ} {k : γ → δ} (h : Follows g x y)
    (hf : ∀ a, x = .ok a → Follows k (f a) (f' (g a))) : Follows k (x >>= f) (y >>= f') := by
  cases x with
  | error e =>
    cases y with
    | error e' => rfl
    | ok b => cases h
  | ok a =>
    rw [h.eq_ok rfl]
    exact hf a rfl

theorem bind {f : α → Except ε γ} {f' : β → Except ε δ} {k : γ → δ} (h : Follows g x y)
    (hf : ∀ a, Follows k (f a) (f' (g a))) : Follows k (x >>= f) (y >>= f') :=
  h.bind_of_ok fun a _ => hf a

/-- Putting results into a form keeps one step behind the other, when the form does. -/
theorem map {f : α → γ} {f' : β → δ} {k : γ → δ} (h : Follows g x y)
    (hf : ∀ a, f' (g a) = k (f a)) : Follows k (x.map f) (y.map f') := by
  cases x with
  | error e =>
    cases y with
    | error e' => rfl
    | ok b => cases h
  | ok a =>
    rw [h.eq_ok rfl]
    exact congrArg some (hf a)

/-- Errors may be renamed on both sides. -/
theorem mapError {ε' : Type u} {f f' : ε → ε'} (h : Follows g x y) :
    Follows g (x.mapError f) (y.mapError f') := by
  rw [Follows, toOption_mapError, toOption_mapError, h]

/-- Steps along a list follow each other when they do so for each element. -/
theorem mapM {f : α → Except ε β} {f' : α → Except ε γ} {k : β → γ} {as : List α}
    (h : ∀ a ∈ as, Follows k (f a) (f' a)) : Follows (List.map k) (as.mapM f) (as.mapM f') := by
  induction as with
  | nil => rfl
  | cons a as ih =>
    rw [List.mapM_cons, List.mapM_cons]
    refine (h a List.mem_cons_self).bind fun b => ?_
    exact (ih fun a' ha' => h a' (List.mem_cons_of_mem _ ha')).bind fun bs => rfl

/-- Steps that may give nothing follow each other when what they give does. -/
theorem mapM_filterMap {f : α → Except ε (Option β)} {f' : α → Except ε (Option γ)} {k : β → γ}
    {as : List α} (h : ∀ a ∈ as, Follows (Option.map k) (f a) (f' a)) :
    Follows (List.map k) (as.mapM f >>= fun bs => pure (bs.filterMap id))
      (as.mapM f' >>= fun bs => pure (bs.filterMap id)) := by
  refine (mapM h).bind fun bs => ?_
  have hbs : (bs.map (Option.map k)).filterMap id = (bs.filterMap id).map k := by
    rw [List.filterMap_map, List.map_filterMap]
    rfl
  rw [hbs]
  exact .ok (bs.filterMap id)

end Follows

end SchemaCatalog
