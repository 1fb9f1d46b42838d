import AggregateSync.Session.Load
import Mathlib.Data.List.Induction
import Mathlib.Data.List.Perm.Basic

/-!
# Groups of equal keys

Grouping keeps every item, and what stands under a key is what was entered under keys
equal to it, in the order of entering.  Equality need only be symmetric and transitive:
a key that differs from itself gets a group of its own, in which nothing finds it.  The
groups stand under the first of all keys that are equal, in the order of these.
-/

namespace AggregateSync

variable {κ α : Type} {same : κ → κ → Bool}

/-- What stands under a key. -/
def entered (same : κ → κ → Bool) (groups : List (κ × List α)) (key : κ) : List α :=
  (groups.find? fun group => same group.1 key).elim [] Prod.snd

theorem entered_cons (group : κ × List α) (groups : List (κ × List α)) (key : κ) :
    entered same (group :: groups) key =
      if same group.1 key then group.2 else entered same groups key := by
  rw [entered, List.find?_cons]
  cases same group.1 key <;> rfl

/-- What stands under a key is what its group has. -/
theorem exists_group_of_entered {groups : List (κ × List α)} {key : κ} {item : α}
    (hitem : item ∈ entered same groups key) :
    ∃ group ∈ groups, (groups.map Prod.fst).find? (same · key) = some group.1 ∧
      group.2 = entered same groups key := by
  rw [entered] at hitem ⊢
  cases hfind : groups.find? fun group => same group.1 key with
  | none =>
      rw [hfind] at hitem
      cases hitem
  | some group =>
      refine ⟨group, List.mem_of_find?_eq_some hfind, ?_, rfl⟩
      rw [List.find?_map]
      exact congrArg (Option.map Prod.fst) hfind

theorem entered_addToGroup (hcomm : ∀ a b, same a b = same b a)
    (htrans : ∀ a b c, same a b = true → same b c = true → same a c = true) (key : κ)
    (item : α) (groups : List (κ × List α)) (other : κ) :
    entered same (addToGroup same key item groups) other =
      entered same groups other ++ if same key other then [item] else [] := by
  induction groups with
  | nil => rw [addToGroup, entered_cons]; rfl
  | cons group rest ih =>
      obtain ⟨first, items⟩ := group
      rw [addToGroup]
      by_cases hkey : same first key = true
      case pos =>
        -- the item joins this group, which has the other key exactly if the item has
        have hboth : same first other = same key other := by
          rw [Bool.eq_iff_iff]
          constructor
          · exact htrans key first other (by rwa [hcomm])
          · exact htrans first key other hkey
        rw [if_pos hkey, entered_cons, entered_cons, hboth]
        split <;> simp
      case neg =>
        rw [if_neg hkey, entered_cons, entered_cons, ih]
        by_cases hother : same first other = true
        · have hdiffer : same key other = false := by
            rw [Bool.eq_false_iff]
            intro hsame
            exact hkey (htrans first other key hother (by rwa [hcomm]))
          simp [hother, hdiffer]
        · simp [hother]

/-- Under a key stand the items that were entered under equal keys, in their order. -/
theorem entered_grouped (hcomm : ∀ a b, same a b = same b a)
    (htrans : ∀ a b c, same a b = true → same b c = true → same a c = true)
    (entries : List (κ × α)) (key : κ) :
    entered same (grouped same entries) key =
      (entries.filter fun entry => same entry.1 key).map Prod.snd := by
  have hfold : ∀ groups : List (κ × List α),
      entered same (entries.foldl (fun groups entry =>
        addToGroup same entry.1 entry.2 groups) groups) key =
          entered same groups key ++
            (entries.filter fun entry => same entry.1 key).map Prod.snd := by
    induction entries with
    | nil => simp
    | cons entry rest ih =>
        intro groups
        rw [List.foldl_cons, ih, entered_addToGroup hcomm htrans, List.append_assoc,
          List.filter_cons]
        split <;> simp
  exact hfold []

/-- Adding an item under a key makes the key known, unless an equal one is known before. -/
theorem find?_addToGroup
    (htrans : ∀ a b c, same a b = true → same b c = true → same a c = true) (key : κ)
    (item : α) (groups : List (κ × List α)) (other : κ) :
    ((addToGroup same key item groups).map Prod.fst).find? (same · other) =
      (groups.map Prod.fst ++ [key]).find? (same · other) := by
  induction groups with
  | nil => rfl
  | cons group rest ih =>
      obtain ⟨first, items⟩ := group
      rw [addToGroup, List.map_cons, List.cons_append, List.find?_cons]
      by_cases hkey : same first key = true
      case pos =>
        -- who is equal to the new key is equal to that of this group
        rw [if_pos hkey, List.map_cons, List.find?_cons]
        cases hfirst : same first other with
        | true => rfl
        | false =>
            have hdiffer : same key other = false := by
              rw [Bool.eq_false_iff]
              intro hsame
              rw [htrans first key other hkey hsame] at hfirst
              cases hfirst
            simp [List.find?_append, hdiffer]
      case neg =>
        rw [if_neg hkey, List.map_cons, List.find?_cons, ih]

/-- The key of a group is the first of those that are equal. -/
theorem find?_grouped
    (htrans : ∀ a b c, same a b = true → same b c = true → same a c = true)
    (entries : List (κ × α)) (key : κ) :
    ((grouped same entries).map Prod.fst).find? (same · key) =
      (entries.map Prod.fst).find? (same · key) := by
  have hfold : ∀ groups : List (κ × List α),
      ((entries.foldl (fun groups entry => addToGroup same entry.1 entry.2 groups)
        groups).map Prod.fst).find? (same · key) =
          (groups.map Prod.fst ++ entries.map Prod.fst).find? (same · key) := by
    induction entries with
    | nil => simp
    | cons entry rest ih =>
        intro groups
        rw [List.foldl_cons, ih, List.find?_append, find?_addToGroup htrans,
          ← List.find?_append, List.append_assoc, List.map_cons, List.singleton_append]
  exact hfold []

theorem flatMap_addToGroup_perm (key : κ) (item : α) (groups : List (κ × List α)) :
    ((addToGroup same key item groups).flatMap Prod.snd).Perm
      (groups.flatMap Prod.snd ++ [item]) := by
  induction groups with
  | nil => simp [addToGroup]
  | cons group rest ih =>
      obtain ⟨first, items⟩ := group
      rw [addToGroup]
      split
      · simp only [List.flatMap_cons, List.append_assoc]
        exact List.perm_append_comm.append_left items
      · simpa only [List.flatMap_cons, List.append_assoc] using ih.append_left items

/-- Grouping keeps every item as often as it was entered. -/
theorem flatMap_grouped_perm (entries : List (κ × α)) :
    ((grouped same entries).flatMap Prod.snd).Perm (entries.map Prod.snd) := by
  have hfold : ∀ groups : List (κ × List α),
      ((entries.foldl (fun groups entry => addToGroup same entry.1 entry.2 groups)
        groups).flatMap Prod.snd).Perm (groups.flatMap Prod.snd ++ entries.map Prod.snd) := by
    induction entries with
    | nil => simp
    | cons entry rest ih =>
        intro groups
        rw [List.foldl_cons, List.map_cons]
        refine (ih _).trans (((flatMap_addToGroup_perm _ _ _).append_right _).trans ?_)
        rw [List.append_assoc, List.singleton_append]
  exact hfold []

/-- What holds of no groups and is kept by each entry that is added holds of the groups. -/
theorem grouped_induction {P : List (κ × List α) → Prop} {entries : List (κ × α)} (hnil : P [])
    (hadd : ∀ entry ∈ entries, ∀ groups, P groups →
      P (addToGroup same entry.1 entry.2 groups)) : P (grouped same entries) := by
  have hfold : ∀ (added : List (κ × α)) (groups : List (κ × List α)), added ⊆ entries →
      P groups → P (added.foldl (fun groups entry => addToGroup same entry.1 entry.2 groups)
        groups) := by
    intro added
    induction added with
    | nil => exact fun groups _ hgroups => hgroups
    | cons entry rest ih =>
        intro groups hadded hgroups
        rw [List.cons_subset] at hadded
        exact ih _ hadded.2 (hadd entry hadded.1 groups hgroups)
  exact hfold entries [] (List.Subset.refl _) hnil

/-- What holds of every entry under a key of its own, and goes over to equal keys, holds
of every item under the key of its group; and no group is empty. -/
theorem grouped_forall {P : κ → α → Prop}
    (hsame : ∀ key other item, same key other = true → P other item → P key item)
    {entries : List (κ × α)} (hentries : ∀ entry ∈ entries, P entry.1 entry.2) :
    ∀ group ∈ grouped same entries, group.2 ≠ [] ∧ ∀ item ∈ group.2, P group.1 item := by
  have hadd : ∀ (key : κ) (item : α) (groups : List (κ × List α)), P key item →
      (∀ group ∈ groups, group.2 ≠ [] ∧ ∀ item ∈ group.2, P group.1 item) →
      ∀ group ∈ addToGroup same key item groups,
        group.2 ≠ [] ∧ ∀ item ∈ group.2, P group.1 item := by
    intro key item groups hitem hgroups
    induction groups with
    | nil =>
        intro group hgroup
        rw [addToGroup, List.mem_singleton] at hgroup
        subst hgroup
        simpa using hitem
    | cons first rest ih =>
        obtain ⟨other, items⟩ := first
        rw [List.forall_mem_cons] at hgroups
        rw [addToGroup]
        split
        case isTrue hkey =>
          rw [List.forall_mem_cons]
          refine ⟨⟨by simp, fun given hgiven => ?_⟩, hgroups.2⟩
          rcases List.mem_append.1 hgiven with hold | hnew
          · exact hgroups.1.2 given hold
          · rw [List.mem_singleton.1 hnew]
            exact hsame other key item hkey hitem
        case isFalse =>
          rw [List.forall_mem_cons]
          exact ⟨hgroups.1, ih hgroups.2⟩
  exact grouped_induction (by simp) fun entry hentry groups hgroups =>
    hadd entry.1 entry.2 groups (hentries entry hentry) hgroups

/-- The key of a group is that of one of its entries. -/
theorem exists_entry_of_grouped {entries : List (κ × α)} :
    ∀ group ∈ grouped same entries, ∃ item ∈ group.2, (group.1, item) ∈ entries := by
  have hadd : ∀ (entry : κ × α) (groups : List (κ × List α)), entry ∈ entries →
      (∀ group ∈ groups, ∃ item ∈ group.2, (group.1, item) ∈ entries) →
      ∀ group ∈ addToGroup same entry.1 entry.2 groups,
        ∃ item ∈ group.2, (group.1, item) ∈ entries := by
    intro entry groups hentry hgroups
    induction groups with
    | nil =>
        intro group hgroup
        rw [addToGroup, List.mem_singleton] at hgroup
        subst hgroup
        exact ⟨entry.2, List.mem_singleton_self _, hentry⟩
    | cons first rest ih =>
        obtain ⟨other, items⟩ := first
        rw [List.forall_mem_cons] at hgroups
        obtain ⟨⟨item, hitem, hlisted⟩, hrest⟩ := hgroups
        rw [addToGroup]
        split
        · exact List.forall_mem_cons.2
            ⟨⟨item, List.mem_append_left _ hitem, hlisted⟩, hrest⟩
        · exact List.forall_mem_cons.2 ⟨⟨item, hitem, hlisted⟩, ih hrest⟩
  exact grouped_induction (by simp) fun entry hentry groups => hadd entry groups hentry

/-- An entry stands in a group: under its key, or under one that is equal. -/
def IsGroupedIn (same : κ → κ → Bool) (groups : List (κ × List α)) (entry : κ × α) : Prop :=
  ∃ group ∈ groups, entry.2 ∈ group.2 ∧ (group.1 = entry.1 ∨ same group.1 entry.1 = true)

theorem isGroupedIn_addToGroup (entry : κ × α) (groups : List (κ × List α)) :
    IsGroupedIn same (addToGroup same entry.1 entry.2 groups) entry := by
  induction groups with
  | nil => exact ⟨_, List.mem_singleton_self _, List.mem_singleton_self _, .inl rfl⟩
  | cons first rest ih =>
      rw [addToGroup]
      split
      case isTrue hkey => exact ⟨_, List.mem_cons_self, by simp, .inr hkey⟩
      case isFalse =>
        obtain ⟨group, hgroup, hstands⟩ := ih
        exact ⟨group, List.mem_cons_of_mem _ hgroup, hstands⟩

theorem IsGroupedIn.addToGroup {groups : List (κ × List α)} {entry : κ × α}
    (hgrouped : IsGroupedIn same groups entry) (key : κ) (item : α) :
    IsGroupedIn same (addToGroup same key item groups) entry := by
  obtain ⟨group, hgroup, hitem, hkey⟩ := hgrouped
  induction groups with
  | nil => cases hgroup
  | cons first rest ih =>
      rw [AggregateSync.addToGroup]
      split
      all_goals rcases List.mem_cons.1 hgroup with rfl | hrest
      · exact ⟨_, List.mem_cons_self, List.mem_append_left _ hitem, hkey⟩
      · exact ⟨group, List.mem_cons_of_mem _ hrest, hitem, hkey⟩
      · exact ⟨group, List.mem_cons_self, hitem, hkey⟩
      · obtain ⟨found, hfound, hstands⟩ := ih hrest
        exact ⟨found, List.mem_cons_of_mem _ hfound, hstands⟩

/-- Grouping leaves no entry out. -/
theorem isGroupedIn_grouped {entries : List (κ × α)} {entry : κ × α} (hentry : entry ∈ entries) :
    IsGroupedIn same (grouped same entries) entry := by
  obtain ⟨earlier, later, rfl⟩ := List.append_of_mem hentry
  rw [grouped, List.foldl_append, List.foldl_cons]
  exact List.foldlRecOn (motive := fun groups => IsGroupedIn same groups entry) later _
    (isGroupedIn_addToGroup entry _) fun _ hgroups other _ => hgroups.addToGroup other.1 other.2

/-! ## The first of equal keys -/

/-- The first of all keys that are equal, in their order. -/
def firsts (same : κ → κ → Bool) : List κ → List κ
  | [] => []
  | first :: rest => first :: (firsts same rest).filter fun other => !same first other

theorem firsts_sublist (keys : List κ) : (firsts same keys).Sublist keys := by
  induction keys with
  | nil => exact List.Sublist.refl []
  | cons first rest ih => exact (List.filter_sublist.trans ih).cons_cons first

/-- No key is equal to one before it. -/
theorem pairwise_firsts (keys : List κ) :
    (firsts same keys).Pairwise fun key other => same key other = false := by
  induction keys with
  | nil => exact .nil
  | cons first rest ih =>
      refine List.pairwise_cons.2 ⟨fun other hother => ?_, ih.filter _⟩
      simpa using (List.mem_filter.1 hother).2

/-- Every key is there, or one before it that is equal. -/
theorem exists_mem_firsts
    (htrans : ∀ a b c, same a b = true → same b c = true → same a c = true) {keys : List κ}
    {key : κ} (hkey : key ∈ keys) :
    ∃ first ∈ firsts same keys, first = key ∨ same first key = true := by
  induction keys with
  | nil => cases hkey
  | cons first rest ih =>
      rcases List.mem_cons.1 hkey with rfl | hrest
      · exact ⟨_, List.mem_cons_self, .inl rfl⟩
      obtain ⟨found, hfound, hsame⟩ := ih hrest
      by_cases hfirst : same first found = true
      · refine ⟨first, List.mem_cons_self, .inr ?_⟩
        rcases hsame with rfl | hsame
        · exact hfirst
        · exact htrans first found key hfirst hsame
      · exact ⟨found, List.mem_cons_of_mem _ (List.mem_filter.2 ⟨hfound, by simpa using hfirst⟩),
          hsame⟩

/-- A key behind the others is new, unless one of them is equal to it. -/
theorem firsts_concat
    (htrans : ∀ a b c, same a b = true → same b c = true → same a c = true) (keys : List κ)
    (key : κ) : firsts same (keys ++ [key]) =
      firsts same keys ++ if (firsts same keys).any (same · key) then [] else [key] := by
  induction keys with
  | nil => rfl
  | cons first rest ih =>
      -- dropping the keys equal to the first drops none that is equal to the new one alone
      have hany : (firsts same (first :: rest)).any (same · key) =
          (same first key || (firsts same rest).any (same · key)) := by
        rw [Bool.eq_iff_iff, firsts, List.any_cons, Bool.or_eq_true, Bool.or_eq_true]
        refine ⟨.imp_right fun hothers => ?_, fun hkey => ?_⟩
        · obtain ⟨other, hother, hsame⟩ := List.any_eq_true.1 hothers
          exact List.any_eq_true.2 ⟨other, (List.mem_filter.1 hother).1, hsame⟩
        by_cases hfirst : same first key = true
        · exact .inl hfirst
        obtain ⟨other, hother, hsame⟩ := List.any_eq_true.1 (hkey.resolve_left hfirst)
        refine .inr (List.any_eq_true.2 ⟨other, List.mem_filter.2 ⟨hother, ?_⟩, hsame⟩)
        rw [Bool.not_eq_true', Bool.eq_false_iff]
        exact fun hequal => hfirst (htrans first other key hequal hsame)
      rw [hany, List.cons_append, firsts, ih, List.filter_append, firsts, List.cons_append]
      cases hrest : (firsts same rest).any (same · key) <;>
        cases hfirst : same first key <;> simp [hfirst]

theorem map_fst_addToGroup (key : κ) (item : α) (groups : List (κ × List α)) :
    (addToGroup same key item groups).map Prod.fst =
      groups.map Prod.fst ++ if (groups.map Prod.fst).any (same · key) then [] else [key] := by
  induction groups with
  | nil => rfl
  | cons group rest ih =>
      obtain ⟨other, items⟩ := group
      rw [addToGroup]
      by_cases hkey : same other key = true
      · simp [hkey]
      · rw [if_neg hkey, List.map_cons, ih, List.map_cons, List.any_cons,
          Bool.eq_false_iff.2 hkey, Bool.false_or, List.cons_append]

/-- There is a group for the first of all keys that are equal. -/
theorem map_fst_grouped
    (htrans : ∀ a b c, same a b = true → same b c = true → same a c = true)
    (entries : List (κ × α)) :
    (grouped same entries).map Prod.fst = firsts same (entries.map Prod.fst) := by
  induction entries using List.reverseRecOn with
  | nil => rfl
  | append_singleton entries entry ih =>
      rw [grouped, List.foldl_concat, map_fst_addToGroup, List.map_append, List.map_singleton,
        firsts_concat htrans, ← ih]
      rfl

theorem find?_firsts (htrans : ∀ a b c, same a b = true → same b c = true → same a c = true)
    (keys : List κ) (key : κ) :
    (firsts same keys).find? (same · key) = keys.find? (same · key) := by
  have hkeys : (keys.map fun key => (key, ())).map Prod.fst = keys := by
    rw [List.map_map]
    exact List.map_id keys
  rw [← hkeys, ← map_fst_grouped htrans, find?_grouped htrans]

/-- Among different items, each that equals itself is found by itself. -/
theorem find?_of_pairwise {items : List α} {same : α → α → Bool}
    (hapart : items.Pairwise fun item other => same item other = false) {item : α}
    (hitem : item ∈ items) (hself : same item item = true) :
    items.find? (same · item) = some item := by
  induction hapart with
  | nil => cases hitem
  | cons hfirst _ ih =>
      rcases List.mem_cons.1 hitem with rfl | hrest
      · exact List.find?_cons_of_pos hself
      · rw [List.find?_cons_of_neg (by simp [hfirst _ hrest]), ih hrest]

/-- Where every key equals itself, groups are found by their keys. -/
theorem grouped_eq (hcomm : ∀ a b, same a b = same b a)
    (htrans : ∀ a b c, same a b = true → same b c = true → same a c = true)
    {entries : List (κ × α)} (hself : ∀ entry ∈ entries, same entry.1 entry.1 = true) :
    grouped same entries = (firsts same (entries.map Prod.fst)).map fun key =>
      (key, (entries.filter fun entry => same entry.1 key).map Prod.snd) := by
  have hapart : (grouped same entries).Pairwise fun group other =>
      same group.1 other.1 = false := by
    have hkeys : (firsts same (entries.map Prod.fst)).Pairwise fun key other =>
        same key other = false := pairwise_firsts _
    rwa [← map_fst_grouped htrans, List.pairwise_map] at hkeys
  rw [← map_fst_grouped htrans, List.map_map]
  refine (List.map_id _).symm.trans (List.map_congr_left fun group hgroup => ?_)
  obtain ⟨_, _, hentry⟩ := exists_entry_of_grouped group hgroup
  have hfind : ((grouped same entries).find? fun other => same other.1 group.1) = some group :=
    find?_of_pairwise hapart hgroup (hself _ hentry)
  rw [Function.comp_apply, ← entered_grouped hcomm htrans, entered, hfind]
  rfl

end AggregateSync
