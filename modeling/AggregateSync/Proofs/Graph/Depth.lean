import AggregateSync.Graph.Traversal
import Mathlib.Data.List.Flatten
import Mathlib.Data.List.Nodup

/-!
# Lists by depth

Sorting by depth loses nothing and doubles nothing, in either direction, and the
result is sorted.
-/

namespace AggregateSync

variable {α : Type} {depth : α → Nat} {items : List α}

theorem lt_depthBound {item : α} (hitem : item ∈ items) :
    depth item < depthBound depth items := by
  induction items with
  | nil => simp at hitem
  | cons first rest ih =>
      simp only [depthBound, List.foldr_cons]
      rcases List.mem_cons.1 hitem with rfl | hrest
      · omega
      · exact Nat.lt_of_lt_of_le (ih hrest) (Nat.le_max_right _ _)

/-- The items of all levels below a bound. -/
theorem perm_flatMap_levels (bound : Nat) :
    ((List.range bound).flatMap fun level => items.filter fun item => depth item == level).Perm
      (items.filter fun item => decide (depth item < bound)) := by
  induction bound with
  | zero => simp
  | succ bound ih =>
      rw [List.range_succ, List.flatMap_append, List.flatMap_singleton]
      have hlow : (items.filter fun item => decide (depth item < bound)) =
          (items.filter fun item => decide (depth item < bound + 1)).filter
            fun item => decide (depth item < bound) := by
        rw [List.filter_filter]
        refine List.filter_congr fun item _ => ?_
        rw [Bool.eq_iff_iff]
        simp only [decide_eq_true_eq, Bool.and_eq_true]
        omega
      have hlast : (items.filter fun item => depth item == bound) =
          (items.filter fun item => decide (depth item < bound + 1)).filter
            fun item => !decide (depth item < bound) := by
        rw [List.filter_filter]
        refine List.filter_congr fun item _ => ?_
        rw [Bool.eq_iff_iff]
        simp only [beq_iff_eq, Bool.and_eq_true, decide_eq_true_eq, Bool.not_eq_true',
          decide_eq_false_iff_not]
        omega
      rw [hlast]
      exact ((ih.trans (.of_eq hlow)).append_right _).trans (List.filter_append_perm _ _)

/-- Sorting by depth keeps every item as often as it occurs. -/
theorem byDepth_perm : (byDepth depth items).Perm items := by
  refine (perm_flatMap_levels _).trans (.of_eq ?_)
  exact List.filter_eq_self.2 fun item hitem => decide_eq_true (lt_depthBound hitem)

theorem byDepthDescending_perm : (byDepthDescending depth items).Perm items :=
  (List.Perm.flatMap_right _ (List.reverse_perm _)).trans byDepth_perm

/-- The items of several levels stand in the order of the levels, and on each level in the
order that they had before. -/
theorem pairwise_flatMap_levels {precedes : α → α → Prop} {before : Nat → Nat → Prop}
    {levels : List Nat} (hordered : items.Pairwise precedes) (hlevels : levels.Pairwise before) :
    (levels.flatMap fun level => items.filter fun item => depth item == level).Pairwise
      fun item other => before (depth item) (depth other) ∨
        depth item = depth other ∧ precedes item other := by
  have hlevel : ∀ {level : Nat} {item : α},
      item ∈ items.filter (fun item => depth item == level) → depth item = level :=
    fun hitem => beq_iff_eq.1 (List.mem_filter.1 hitem).2
  rw [List.pairwise_flatMap]
  refine ⟨fun level _ => ?_, ?_⟩
  · exact (hordered.filter _).imp_of_mem fun hitem hother hprecedes =>
      .inr ⟨(hlevel hitem).trans (hlevel hother).symm, hprecedes⟩
  · refine hlevels.imp fun hbefore item hitem other hother => .inl ?_
    rwa [hlevel hitem, hlevel hother]

/-- Sorting by depth keeps the order on every level, whatever the items were ordered by. -/
theorem byDepth_pairwise {precedes : α → α → Prop} (hordered : items.Pairwise precedes) :
    (byDepth depth items).Pairwise fun item other =>
      depth item < depth other ∨ depth item = depth other ∧ precedes item other :=
  pairwise_flatMap_levels hordered List.pairwise_lt_range

/-- Items of several levels are sorted if the levels are. -/
theorem sorted_flatMap_levels (before : Nat → Nat → Prop) {levels : List Nat}
    (hrefl : ∀ level, before level level) (hlevels : levels.Pairwise before) :
    (levels.flatMap fun level => items.filter fun item => depth item == level).Pairwise
      fun item other => before (depth item) (depth other) := by
  have hany : items.Pairwise fun _ _ => True := List.pairwise_of_forall fun _ _ => trivial
  refine (pairwise_flatMap_levels hany hlevels).imp ?_
  rintro item other (hbefore | ⟨hsame, _⟩)
  · exact hbefore
  · rw [hsame]
    exact hrefl _

theorem byDepth_sorted :
    (byDepth depth items).Pairwise fun item other => depth item ≤ depth other :=
  sorted_flatMap_levels (· ≤ ·) Nat.le_refl List.pairwise_le_range

theorem byDepthDescending_sorted :
    (byDepthDescending depth items).Pairwise fun item other => depth other ≤ depth item :=
  sorted_flatMap_levels (· ≥ ·) Nat.le_refl (List.pairwise_reverse.2 List.pairwise_le_range)

/-- Sorting commutes with any renaming of the items that keeps their depth. -/
theorem byDepth_map {β : Type} (f : β → α) (items : List β) :
    byDepth depth (items.map f) = (byDepth (fun item => depth (f item)) items).map f := by
  have hbound : depthBound depth (items.map f) =
      depthBound (fun item => depth (f item)) items := by
    rw [depthBound, depthBound, List.foldr_map]
  rw [byDepth, byDepth, hbound, List.map_flatMap]
  refine List.flatMap_congr fun level _ => ?_
  rw [List.filter_map]
  rfl

/-- The numbers of a list, put in the order in which sorting by depth lists the items. -/
theorem byDepth_numbers (depth : α → Nat) (items : List α) :
    ∃ order : List Nat, order.Perm (List.range items.length) ∧
      (byDepth depth items).map some = order.map (fun i => items[i]?) ∧
      order.Pairwise fun i j => ∀ item other, items[i]? = some item → items[j]? = some other →
        depth item < depth other ∨ depth item = depth other ∧ i < j := by
  let level : Option α → Nat := fun item => (item.map depth).getD 0
  have hitems : items.map some = (List.range items.length).map (fun i => items[i]?) := by
    refine List.ext_getElem (by simp) fun i hi _ => ?_
    rw [List.length_map] at hi
    simp [hi]
  refine ⟨byDepth (fun i => level items[i]?) (List.range items.length), byDepth_perm, ?_, ?_⟩
  · have hsorted : byDepth level (items.map some) = _ := byDepth_map some items
    rw [hitems, byDepth_map] at hsorted
    exact hsorted.symm
  · refine (byDepth_pairwise List.pairwise_lt_range).imp fun {i j} hordered item other hi hj => ?_
    simpa [level, hi, hj] using hordered

/-- In an ordered list, an item that may not stand before another one stands behind it. -/
theorem lt_of_not_precedes {precedes : α → α → Prop} (hordered : items.Pairwise precedes)
    {i j : Nat} {item other : α} (hi : items[i]? = some item) (hj : items[j]? = some other)
    (hdiffer : item ≠ other) (hnot : ¬ precedes item other) : j < i := by
  by_contra hlate
  obtain ⟨hilength, hi⟩ := List.getElem?_eq_some_iff.1 hi
  obtain ⟨hjlength, hj⟩ := List.getElem?_eq_some_iff.1 hj
  rcases Nat.lt_or_eq_of_le (Nat.le_of_not_lt hlate) with hlt | rfl
  · have hprecedes := List.pairwise_iff_getElem.1 hordered i j hilength hjlength hlt
    rw [hi, hj] at hprecedes
    exact hnot hprecedes
  · exact hdiffer (hi.symm.trans hj)

/-- Where no two items are related, an item is related to none but itself. -/
theorem position_eq_of_related {related : α → α → Prop} [Std.Symm related]
    (hapart : items.Pairwise fun item other => ¬ related item other) {i j : Nat}
    {item other : α} (hi : items[i]? = some item) (hj : items[j]? = some other)
    (hrelated : related item other) : i = j := by
  obtain ⟨hilength, rfl⟩ := List.getElem?_eq_some_iff.1 hi
  obtain ⟨hjlength, rfl⟩ := List.getElem?_eq_some_iff.1 hj
  rw [List.pairwise_iff_getElem] at hapart
  rcases Nat.lt_trichotomy i j with hlt | heq | hgt
  · exact absurd hrelated (hapart i j hilength hjlength hlt)
  · exact heq
  · exact absurd (Std.Symm.symm _ _ hrelated) (hapart j i hjlength hilength hgt)

/-- The first item that meets a condition is the only one that does. -/
theorem findIdx?_eq_of_unique {meets : α → Bool} {i : Nat} {item : α}
    (hi : items[i]? = some item) (hmeets : meets item = true)
    (hunique : ∀ (j : Nat) other, items[j]? = some other → meets other = true → j = i) :
    items.findIdx? meets = some i := by
  obtain ⟨hlength, rfl⟩ := List.getElem?_eq_some_iff.1 hi
  refine List.findIdx?_eq_some_iff_getElem.2 ⟨hlength, hmeets, ?_⟩
  intro j hj hother
  have hlt : j < items.length := Nat.lt_trans hj hlength
  exact Nat.ne_of_lt hj (hunique j _ (List.getElem?_eq_getElem hlt) hother)

/-! ## Ties -/

/-- Items sorted by their level in a direction.  On every level the items are the same as
before, in the same order. -/
structure IsStablySorted (precedes : Nat → Nat → Prop) (level : α → Nat)
    (items sorted : List α) : Prop where
  ordered : sorted.Pairwise fun item other => precedes (level item) (level other)
  stable : ∀ n, (sorted.filter fun item => level item == n) =
    items.filter fun item => level item == n

/-- In the items of several levels, those of one level stand as before. -/
theorem filter_flatMap_levels {levels : List Nat} (hnodup : levels.Nodup) (n : Nat) :
    (levels.flatMap fun level => items.filter fun item => depth item == level).filter
        (fun item => depth item == n) =
      if n ∈ levels then items.filter fun item => depth item == n else [] := by
  induction levels with
  | nil => rfl
  | cons level rest ih =>
      rw [List.nodup_cons] at hnodup
      rw [List.flatMap_cons, List.filter_append, ih hnodup.2, List.filter_filter]
      by_cases hsame : n = level
      · subst hsame
        simp [hnodup.1]
      · have hnone : (items.filter fun item => (depth item == n) && (depth item == level)) =
            [] := by
          rw [List.filter_eq_nil_iff]
          intro item _ hboth
          rw [Bool.and_eq_true, beq_iff_eq, beq_iff_eq] at hboth
          exact hsame (hboth.1.symm.trans hboth.2)
        simp [hnone, hsame]

/-- Levels that cover all items, each once, keep every item in its place on its level. -/
theorem filter_allLevels {levels : List Nat} (hnodup : levels.Nodup)
    (hlevels : ∀ n, n ∈ levels ↔ n < depthBound depth items) (n : Nat) :
    (levels.flatMap fun level => items.filter fun item => depth item == level).filter
        (fun item => depth item == n) = items.filter fun item => depth item == n := by
  rw [filter_flatMap_levels hnodup]
  split
  case isTrue => rfl
  case isFalse hhigh =>
    symm
    rw [List.filter_eq_nil_iff]
    intro item hitem hlevel
    rw [hlevels, ← beq_iff_eq.1 hlevel] at hhigh
    exact hhigh (lt_depthBound hitem)

theorem byDepth_isStablySorted :
    IsStablySorted (· ≤ ·) depth items (byDepth depth items) :=
  ⟨byDepth_sorted, filter_allLevels List.nodup_range fun _ => List.mem_range⟩

theorem byDepthDescending_isStablySorted :
    IsStablySorted (· ≥ ·) depth items (byDepthDescending depth items) :=
  ⟨byDepthDescending_sorted, filter_allLevels (List.nodup_reverse.2 List.nodup_range)
    fun _ => by rw [List.mem_reverse, List.mem_range]⟩

@[simp]
theorem mem_byDepth {item : α} : item ∈ byDepth depth items ↔ item ∈ items :=
  byDepth_perm.mem_iff

@[simp]
theorem mem_byDepthDescending {item : α} :
    item ∈ byDepthDescending depth items ↔ item ∈ items :=
  byDepthDescending_perm.mem_iff

end AggregateSync
