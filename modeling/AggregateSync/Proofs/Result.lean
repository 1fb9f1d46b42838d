import AggregateSync.Error
import Mathlib.Data.List.Forall2

/-!
# Chains of results

A chain of steps succeeds exactly if each step does, and a list is worked through
successfully exactly if every item is.  These two facts take a definition written
with `do` apart into what each of its lines found.  In the same way a chain fails with
errors of one kind if each of its steps does.
-/

namespace AggregateSync.Result

variable {ε α β : Type}

theorem ok_bind (a : α) (next : α → Except ε β) : (Except.ok a >>= next) = next a := rfl

theorem bind_eq_ok {first : Except ε α} {next : α → Except ε β} {b : β} :
    (first >>= next) = .ok b ↔ ∃ a, first = .ok a ∧ next a = .ok b := by
  cases first <;> simp [bind, Except.bind]

theorem map_eq_ok {first : Except ε α} {f : α → β} {b : β} :
    first.map f = .ok b ↔ ∃ a, first = .ok a ∧ f a = b := by
  cases first <;> simp [Except.map]

theorem pure_eq_ok {a b : α} : (pure a : Except ε α) = .ok b ↔ a = b := by
  simp [pure, Except.pure]

/-- Items are worked through one by one. -/
theorem mapM_eq_ok {f : α → Except ε β} {items : List α} {results : List β} :
    items.mapM f = .ok results ↔
      List.Forall₂ (fun item result => f item = .ok result) items results := by
  induction items generalizing results with
  | nil =>
      rw [List.mapM_nil, pure_eq_ok, List.forall₂_nil_left_iff, eq_comm]
  | cons item rest ih =>
      rw [List.mapM_cons, bind_eq_ok]
      constructor
      · rintro ⟨result, hitem, hrest⟩
        obtain ⟨others, hothers, hresults⟩ := bind_eq_ok.1 hrest
        rw [← pure_eq_ok.1 hresults]
        exact .cons hitem (ih.1 hothers)
      · rintro (_ | ⟨hitem, hrest⟩)
        exact ⟨_, hitem, bind_eq_ok.2 ⟨_, ih.2 hrest, rfl⟩⟩

/-- Where every item succeeds, so does the list. -/
theorem mapM_eq_map {f : α → Except ε β} {g : α → β} {items : List α}
    (hitems : ∀ item ∈ items, f item = .ok (g item)) :
    items.mapM f = .ok (items.map g) := by
  rw [mapM_eq_ok, List.forall₂_map_right_iff, List.forall₂_same]
  exact hitems

/-- The result fails with allowed errors only. -/
def FailsWithin (allowed : ε → Prop) (result : Except ε α) : Prop :=
  ∀ e, result = .error e → allowed e

section Failures

variable {allowed permitted : ε → Prop}

theorem failsWithin_ok (a : α) : FailsWithin allowed (.ok a : Except ε α) := by
  rintro e ⟨⟩

theorem failsWithin_error {e : ε} (he : allowed e) :
    FailsWithin allowed (.error e : Except ε α) := by
  rintro _ ⟨⟩
  exact he

/-- A chain fails only where one of its steps does. -/
theorem FailsWithin.bind {first : Except ε α} {next : α → Except ε β}
    (hfirst : FailsWithin allowed first)
    (hnext : ∀ a, first = .ok a → FailsWithin allowed (next a)) :
    FailsWithin allowed (first >>= next) := by
  cases first with
  | ok a => exact hnext a rfl
  | error e =>
      rintro _ ⟨⟩
      exact hfirst e rfl

theorem FailsWithin.mapM {f : α → Except ε β} {items : List α}
    (hitems : ∀ item ∈ items, FailsWithin allowed (f item)) :
    FailsWithin allowed (items.mapM f) := by
  induction items with
  | nil => exact failsWithin_ok _
  | cons item rest ih =>
      rw [List.forall_mem_cons] at hitems
      rw [List.mapM_cons]
      exact hitems.1.bind fun b _ => (ih hitems.2).bind fun others _ => failsWithin_ok _

theorem FailsWithin.mono {result : Except ε α} (hresult : FailsWithin allowed result)
    (hmore : ∀ e, allowed e → permitted e) : FailsWithin permitted result :=
  fun e he => hmore e (hresult e he)

/-- What fails with no error succeeds. -/
theorem FailsWithin.exists_ok {result : Except ε α}
    (hresult : FailsWithin (fun _ => False) result) : ∃ a, result = .ok a := by
  cases result with
  | ok a => exact ⟨a, rfl⟩
  | error e => exact (hresult e rfl).elim

end Failures

end AggregateSync.Result

namespace AggregateSync

variable {α β : Type} {related : α → β → Prop} {items : List α} {results : List β}

/-- In two lists that correspond, every result comes from an item. -/
theorem exists_item_of_forall₂ (hrelated : List.Forall₂ related items results) {result : β}
    (hresult : result ∈ results) : ∃ item ∈ items, related item result := by
  induction hrelated with
  | nil => simp at hresult
  | cons hfirst hrest ih =>
      rcases List.mem_cons.1 hresult with rfl | hresult
      · exact ⟨_, List.mem_cons_self, hfirst⟩
      · obtain ⟨item, hitem, hboth⟩ := ih hresult
        exact ⟨item, List.mem_cons_of_mem _ hitem, hboth⟩

/-- In two lists that correspond, every item has a result. -/
theorem exists_result_of_forall₂ (hrelated : List.Forall₂ related items results) {item : α}
    (hitem : item ∈ items) : ∃ result ∈ results, related item result :=
  exists_item_of_forall₂ hrelated.flip hitem

end AggregateSync
