import AggregateSync.Proofs.Database.Links
import AggregateSync.Proofs.Database.Progress

/-!
# Removed rows

The DELETE of a member names its keys, its parent and the constant of the relation, all of
which the row of the snapshot holds; the keys make it the only such row.
-/

namespace AggregateSync

section Turns

variable {ω : Type} {environment : Environment ω} {registry : Registry} {dialect : Dialect}
  {channel : Channel} {snapshot current : Option Entity} {options : PersistOptions}
  {filter : PropertyFilter} {before after : List Member} {changes written rest : List Change}
  {change : Change} {rows : ω → Set Record} {state state' : Option Entity} {world later : ω}
  {issued : Bool} {requests : List Request} {engine : Engine}

/-- The conditions of a DELETE hold of the row that it is to remove. -/
theorem IsEdit.finds_delete (hedit : IsEdit registry snapshot current filter before after changes)
    (hengine : engine.ComparesKeys registry) {old : Member} (hold : old ∈ before) {root : Entity}
    (htraversal : IsTraversal registry root before) {propagate : Bool} {link : ParentLink}
    (hlinks : old.LinksTo (registry.shown (some root)) before propagate link) :
    ∀ condition ∈ ClassMapping.entries old.entity old.mapping.keys ++
        old.mapping.parentEntries link.foreignKey ++
        (link.subset.map SubsetColumn.entry).toList,
      engine.compare .eq ((old.record before).cell condition.1) condition.2 = .yes := by
  have hkeys : ∀ condition ∈ ClassMapping.entries old.entity old.mapping.keys,
      engine.compare .eq ((old.record before).cell condition.1) condition.2 = .yes := by
    intro condition hcondition
    obtain ⟨key, hkey, rfl⟩ := List.mem_map.1 hcondition
    exact hengine.finds (hedit.plainBefore old hold key (List.mem_append_left _ hkey))
      (hedit.present_key hold hkey) (hedit.cell_key hold hkey)
  intro condition hcondition
  rw [List.append_assoc] at hcondition
  rcases List.mem_append.1 hcondition with hkey | hlink
  · exact hkeys condition hkey
  cases hlinks with
  | root => exact absurd hlink List.not_mem_nil
  | held hholder => exact hedit.finds_constant hengine hold hholder condition hlink
  | @given parent relation foreignKey referenced hholder _ hforeignKey hreferenced hpresent =>
      rcases List.mem_append.1 hlink with hparent | hsubset
      · have hmem := (htraversal.suits hedit.orderly hold hholder).1
        rw [htraversal.shown hmem] at hpresent
        rw [ClassMapping.parentEntries, htraversal.shown hmem] at hparent
        split at hparent
        · exact absurd hparent List.not_mem_nil
        · obtain rfl := List.mem_singleton.1 hparent
          obtain ⟨hcell, hplain⟩ := hedit.cell_foreignKey hold hholder hforeignKey hreferenced
          exact hengine.finds hplain hpresent hcell
      · exact hedit.finds_constant hengine hold hholder condition hsubset

/-- Deleting a member takes its row away. -/
theorem Progress.deleteMember
    (hedit : IsEdit registry snapshot current filter before after changes)
    (hengine : engine.ComparesKeys registry)
    (hstores : Stores environment registry dialect engine rows)
    (hschedule : schedule changes = written ++ change :: rest)
    (hprogress : Progress registry current before after written state (rows world))
    {old : Member} (hold : old ∈ before) (hdescribes : change.Describes .snapshot old)
    (hturn : (Task.deleteMember registry dialect channel snapshot options change).execution
      environment state world = ⟨.ok issued, state', later, requests⟩) :
    Progress registry current before after (written ++ [change]) state' (rows later) := by
  obtain ⟨root, rfl, htraversal⟩ := hedit.traversalBefore hold
  obtain ⟨address, hstands⟩ := htraversal.standsIn hold hdescribes
  obtain ⟨link, hlink, rfl, _, _, count, hanswer⟩ := deleteMember_eq_ok hstands hturn
  have hlinks := htraversal.linksTo hold hdescribes rfl (.refl root) hlink
  have hfinds := hedit.finds_delete hengine hold htraversal hlinks
  obtain ⟨id, haffects⟩ := hstores.execute _
    (.delete (memberDelete old.mapping old.entity link.foreignKey link.subset)) _ _ _
    (Expr.isClear_columnsAre? _) hanswer
  have hrows : rows later = _ := haffects
  rw [hrows]
  apply hprogress.delete hedit hold hdescribes
  intro side member hheld
  apply hprogress.selects_iff hedit hengine (hedit.isPending hschedule hold (.inl hdescribes))
    hold rfl _ hfinds hheld
  intro key hkey
  exact ⟨_, List.mem_append_left _ (List.mem_append_left _ (List.mem_map_of_mem hkey)), rfl⟩

end Turns

end AggregateSync
