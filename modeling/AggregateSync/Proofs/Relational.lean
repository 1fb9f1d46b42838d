import AggregateSync.Proofs.Result
import Mathlib.Data.List.Perm.Basic

/-!
# Two runs side by side

Where one definition is run on two inputs that are alike, its results are alike, or both runs
fail alike.  The rules here follow the ways in which definitions are put together: chains of
results, lists that are worked through, and what is looked up in them.
-/

namespace AggregateSync

/-- Both results are there and related, or both are errors and related. -/
inductive Result.Related {ε α β : Type} (E : ε → ε → Prop) (R : α → β → Prop) :
    Except ε α → Except ε β → Prop
  | ok {a : α} {b : β} (hresults : R a b) : Related E R (.ok a) (.ok b)
  | error {e e' : ε} (herrors : E e e') : Related E R (.error e) (.error e')

namespace Result

theorem Related.eq {α : Type} {result result' : Result α}
    (hrelated : Related Eq Eq result result') : result = result' := by
  cases hrelated with
  | ok hresults => rw [hresults]
  | error herrors => rw [herrors]

variable {ε α β γ δ : Type} {E : ε → ε → Prop} {R : α → β → Prop} {S : γ → δ → Prop}

theorem Related.bind {first : Except ε α} {first' : Except ε β} {next : α → Except ε γ}
    {next' : β → Except ε δ} (hfirst : Related E R first first')
    (hnext : ∀ a b, R a b → Related E S (next a) (next' b)) :
    Related E S (first >>= next) (first' >>= next') := by
  cases hfirst with
  | ok hresults => exact hnext _ _ hresults
  | error herrors => exact .error herrors

/-- What is like a success is one. -/
theorem Related.exists_ok {result : Except ε α} {b : β} (hrelated : Related E R result (.ok b)) :
    ∃ a, result = .ok a ∧ R a b := by
  cases hrelated with
  | ok hresults => exact ⟨_, rfl, hresults⟩

theorem Related.mono {S : α → β → Prop} {result : Except ε α} {result' : Except ε β}
    (hrelated : Related E R result result') (hmore : ∀ a b, R a b → S a b) :
    Related E S result result' := by
  cases hrelated with
  | ok hresults => exact .ok (hmore _ _ hresults)
  | error herrors => exact .error herrors

/-- A result is like itself where errors and values are. -/
theorem Related.refl {R : α → α → Prop} (herror : ∀ e, E e e) (hvalue : ∀ a, R a a)
    (result : Except ε α) : Related E R result result := by
  cases result with
  | ok a => exact .ok (hvalue a)
  | error e => exact .error (herror e)

/-- What follows one and the same result is related if it is after success. -/
theorem Related.self_bind (herror : ∀ e, E e e) (result : Except ε α) {next : α → Except ε γ}
    {next' : α → Except ε δ} (hnext : ∀ a, Related E S (next a) (next' a)) :
    Related E S (result >>= next) (result >>= next') := by
  cases result with
  | ok a => exact hnext a
  | error e => exact .error (herror e)

/-- Related items are worked through with related results. -/
theorem Related.mapM {f : α → Except ε γ} {f' : β → Except ε δ} {items : List α} {items' : List β}
    (hitems : List.Forall₂ R items items')
    (hf : ∀ item item', R item item' → Related E S (f item) (f' item')) :
    Related E (List.Forall₂ S) (items.mapM f) (items'.mapM f') := by
  induction hitems with
  | nil => exact .ok .nil
  | cons hitem _ ih =>
      rw [List.mapM_cons, List.mapM_cons]
      exact (hf _ _ hitem).bind fun result result' hresult =>
        ih.bind fun others others' hothers => .ok (.cons hresult hothers)

theorem Related.trans {a : Except ε α} {b : Except ε β} {c : Except ε γ} {T : β → γ → Prop}
    {U : α → γ → Prop} (hleft : Related E R a b) (hright : Related E T b c)
    (herrors : ∀ e e' e'', E e e' → E e' e'' → E e e'')
    (hvalues : ∀ x y z, R x y → T y z → U x z) : Related E U a c := by
  cases hleft with
  | ok hresults =>
      cases hright with
      | ok hresults' => exact .ok (hvalues _ _ _ hresults hresults')
  | error hfailed =>
      cases hright with
      | error hfailed' => exact .error (herrors _ _ _ hfailed hfailed')

/-- In whatever order items are worked through, the results are the same in some order, or
some item fails. -/
theorem Related.mapM_perm {f : α → Except ε γ} {items items' : List α}
    (hperm : items.Perm items') :
    Related (fun _ _ => True) List.Perm (items.mapM f) (items'.mapM f) := by
  induction hperm with
  | nil => exact .ok .nil
  | cons item _ ih =>
      rw [List.mapM_cons, List.mapM_cons]
      refine .self_bind (fun _ => trivial) _ fun result => ?_
      exact ih.bind fun results results' hresults => .ok (hresults.cons result)
  | swap item other rest =>
      rw [List.mapM_cons, List.mapM_cons, List.mapM_cons, List.mapM_cons]
      cases f item with
      | error fault => cases f other <;> exact .error trivial
      | ok result =>
          cases f other with
          | error fault => exact .error trivial
          | ok result' =>
              cases rest.mapM f with
              | error fault => exact .error trivial
              | ok results => exact .ok (.swap _ _ _)
  | trans _ _ ihleft ihright =>
      exact ihleft.trans ihright (fun _ _ _ _ _ => trivial) fun _ _ _ => .trans

/-- Related states are carried through related items. -/
theorem Related.foldlM {step : γ → α → Except ε γ} {step' : δ → β → Except ε δ}
    {items : List α} {items' : List β} (hitems : List.Forall₂ R items items')
    (hstep : ∀ state state' item item', S state state' → R item item' →
      Related E S (step state item) (step' state' item'))
    {state : γ} {state' : δ} (hstate : S state state') :
    Related E S (items.foldlM step state) (items'.foldlM step' state') := by
  induction hitems generalizing state state' with
  | nil => exact .ok hstate
  | cons hitem _ ih =>
      rw [List.foldlM_cons, List.foldlM_cons]
      exact (hstep _ _ _ _ hstate hitem).bind fun after after' hafter => ih hafter

end Result

/-! ## Lists of related items -/

section Lists

variable {α β : Type} {R : α → β → Prop} {items : List α} {items' : List β}

theorem isEmpty_eq_of_forall₂ (hitems : List.Forall₂ R items items') :
    items.isEmpty = items'.isEmpty := by
  cases hitems <;> rfl

/-- At one place of related lists stand related items, or nothing. -/
theorem rel_getElem?_of_forall₂ (hitems : List.Forall₂ R items items') (index : Nat) :
    Option.Rel R items[index]? items'[index]? := by
  induction hitems generalizing index with
  | nil => exact .none
  | cons hitem _ ih =>
      cases index with
      | zero => exact .some hitem
      | succ index => exact ih index

theorem forall₂_set (hitems : List.Forall₂ R items items') (index : Nat) {a : α} {b : β}
    (hab : R a b) : List.Forall₂ R (items.set index a) (items'.set index b) := by
  induction hitems generalizing index with
  | nil => exact .nil
  | cons hitem hrest ih =>
      cases index with
      | zero => exact .cons hab hrest
      | succ index => exact .cons hitem (ih index)

/-- The first items that pass are related, where related items pass alike. -/
theorem rel_find?_of_forall₂ {p : α → Bool} {q : β → Bool}
    (hitems : List.Forall₂ R items items') (hpq : ∀ a b, R a b → p a = q b) :
    Option.Rel R (items.find? p) (items'.find? q) := by
  induction hitems with
  | nil => exact .none
  | @cons a b _ _ hitem _ ih =>
      rw [List.find?_cons, List.find?_cons, hpq a b hitem]
      cases q b with
      | true => exact .some hitem
      | false => exact ih

theorem isNone_eq_of_rel {a : Option α} {b : Option β} (hrel : Option.Rel R a b) :
    a.isNone = b.isNone := by
  cases hrel <;> rfl

theorem rel_of_isSome_eq {a : Option α} {b : Option β} (hsame : a.isSome = b.isSome) :
    Option.Rel (fun _ _ => True) a b := by
  cases a with
  | none =>
      cases b with
      | none => exact .none
      | some _ => cases hsame
  | some _ =>
      cases b with
      | none => cases hsame
      | some _ => exact .some trivial

/-- Related items are counted alike, where they pass alike. -/
theorem any_eq_of_forall₂ {p : α → Bool} {q : β → Bool} (hitems : List.Forall₂ R items items')
    (hpq : ∀ a b, R a b → p a = q b) : items.any p = items'.any q := by
  induction hitems with
  | nil => rfl
  | cons hitem _ ih => rw [List.any_cons, List.any_cons, hpq _ _ hitem, ih]

/-- Related items that are mapped to one value give one list. -/
theorem map_eq_of_forall₂ {γ : Type} {f : α → γ} {g : β → γ}
    (hitems : List.Forall₂ R items items') (hfg : ∀ a b, R a b → f a = g b) :
    items.map f = items'.map g := by
  induction hitems with
  | nil => rfl
  | cons hitem _ ih => rw [List.map_cons, List.map_cons, hfg _ _ hitem, ih]

/-- Where items are the same in another order as far as one reading goes, so they are for every
reading that it decides. -/
theorem map_perm_of_map_perm {γ δ : Type} {f : α → γ} {f' : β → γ} {g : α → δ} {g' : β → δ}
    (hperm : (items.map f).Perm (items'.map f')) (hdecides : ∀ a b, f a = f' b → g a = g' b) :
    (items.map g).Perm (items'.map g') := by
  have hread : List.Forall₂ (fun c b => c = f' b) (items'.map f') items' := by
    rw [List.forall₂_map_left_iff, List.forall₂_same]
    exact fun _ _ => rfl
  obtain ⟨ordered, hitems, hordered⟩ := List.perm_comp_forall₂ hperm hread
  rw [List.forall₂_map_left_iff] at hitems
  rw [map_eq_of_forall₂ hitems hdecides]
  exact hordered.map g'

/-- What is found does not depend on the order if at most one item passes. -/
theorem find?_perm {p : α → Bool} {items items' : List α} (hperm : items.Perm items')
    (hunique : items.Pairwise fun a b => ¬ (p a = true ∧ p b = true)) :
    items.find? p = items'.find? p := by
  induction hperm with
  | nil => rfl
  | cons item _ ih =>
      rw [List.find?_cons, List.find?_cons, ih hunique.of_cons]
  | swap item other rest =>
      rw [List.find?_cons, List.find?_cons, List.find?_cons, List.find?_cons]
      have hapart := List.rel_of_pairwise_cons hunique List.mem_cons_self
      cases hitem : p item <;> cases hother : p other <;> simp_all
  | trans hleft _ ihleft ihright =>
      have hsymm : ∀ {a b : α}, ¬ (p a = true ∧ p b = true) → ¬ (p b = true ∧ p a = true) :=
        fun hapart hboth => hapart hboth.symm
      rw [ihleft hunique, ihright ((hleft.pairwise_iff hsymm).1 hunique)]

/-- Pairs are related by their parts exactly if the lists of the parts are. -/
theorem forall₂_pairs_iff {γ : Type} {pairs : List (γ × α)} {pairs' : List (γ × β)} :
    List.Forall₂ (fun pair pair' => pair.1 = pair'.1 ∧ R pair.2 pair'.2) pairs pairs' ↔
      pairs.map Prod.fst = pairs'.map Prod.fst ∧
        List.Forall₂ R (pairs.map Prod.snd) (pairs'.map Prod.snd) := by
  induction pairs generalizing pairs' with
  | nil => cases pairs' <;> simp
  | cons pair rest ih =>
      cases pairs' with
      | nil => simp
      | cons pair' rest' =>
          simp only [List.forall₂_cons, ih, List.map_cons, List.cons.injEq, and_and_and_comm]

end Lists

end AggregateSync
