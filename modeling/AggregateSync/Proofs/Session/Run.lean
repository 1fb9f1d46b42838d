import AggregateSync.Proofs.Session.Frame
import AggregateSync.Proofs.Session.Transaction

/-!
# The course of a run

A run that succeeds gives every change of the schedule its turn.  Until then the member
of the change shows what it showed in the graph that was given, because no two changes
are about one member; and from the turn of a modified member on, everything above that
member stays as it is, because modified members are written from the root down.
-/

namespace AggregateSync

section Run

variable {ω : Type} {environment : Environment ω} {registry : Registry} {dialect : Dialect}
  {channel : Channel} {snapshot : Option Entity} {options : PersistOptions}
  {filter : PropertyFilter} {changes : List Change} {before after : List Member}
  {root : Entity} {world later : ω} {final : Option Entity}

/-- A change that is written and is no removal tells of a member of the current graph. -/
theorem exists_member_of_schedule (hdifference : IsDifference filter before after changes)
    {change : Change} (hchange : change ∈ schedule changes) (hstate : change.state ≠ .removed) :
    ∃ member ∈ after, change.Describes .current member := by
  rcases hdifference.mem_cases (mem_schedule.1 hchange).1 with
    ⟨member, hmember, hclassifies⟩ | ⟨member, _, _, hremoves⟩
  · exact ⟨member, hmember, hclassifies.toDescribes⟩
  · exact absurd hremoves.removed hstate

theorem schedule_standsIn (htraversal : IsTraversal registry root after)
    (hdifference : IsDifference filter before after changes) {change : Change}
    (hchange : change ∈ schedule changes) (hstate : change.state ≠ .removed) :
    ∃ mapping e address, change.StandsIn registry root mapping e address := by
  obtain ⟨member, hmember, hdescribes⟩ := exists_member_of_schedule hdifference hchange hstate
  obtain ⟨address, hstands⟩ := htraversal.standsIn hmember hdescribes
  exact ⟨_, _, address, hstands⟩

/-- No other change writes where a member stands. -/
theorem address_ne_of_ne (htraversal : IsTraversal registry root after)
    (hbefore : (before.map Member.path).Nodup)
    (hdifference : IsDifference filter before after changes) {change : Change}
    (hchange : change ∈ schedule changes) {member : Member} (hmember : member ∈ after)
    (hdescribes : change.Describes .current member) {other : Change}
    (hother : other ∈ schedule changes) (hstate : other.state ≠ .removed)
    (hdiffer : other ≠ change) :
    registry.addressOf? other.path root ≠ registry.addressOf? change.path root := by
  obtain ⟨member', hmember', hdescribes'⟩ :=
    exists_member_of_schedule hdifference hother hstate
  intro haddress
  rw [hdescribes'.path, hdescribes.path] at haddress
  obtain rfl := htraversal.eq_of_address_eq hmember' hmember haddress
  apply hdiffer
  apply List.inj_on_of_nodup_map (hdifference.nodup_places hbefore htraversal.distinct)
  · exact (mem_schedule.1 hother).1
  · exact (mem_schedule.1 hchange).1
  · rw [hdescribes'.side, hdescribes.side, hdescribes'.path, hdescribes.path]

/-- A change is not among those before it. -/
theorem ne_of_mem_take (hbefore : (before.map Member.path).Nodup)
    (hafter : (after.map Member.path).Nodup)
    (hdifference : IsDifference filter before after changes) {i : Nat} {change : Change}
    (hchange : (schedule changes)[i]? = some change) {other : Change}
    (hother : other ∈ (schedule changes).take i) : other ≠ change := by
  have honce := nodup_schedule (hdifference.nodup_places hbefore hafter).of_map
  rw [← List.take_append_drop i (schedule changes), List.nodup_append] at honce
  refine honce.2.2 other hother change ?_
  rw [List.mem_iff_getElem?]
  exact ⟨0, by rw [List.getElem?_drop, Nat.add_zero, hchange]⟩

/-- A change is not among those behind it. -/
theorem ne_of_mem_drop (hbefore : (before.map Member.path).Nodup)
    (hafter : (after.map Member.path).Nodup)
    (hdifference : IsDifference filter before after changes) {i : Nat} {change : Change}
    (hchange : (schedule changes)[i]? = some change) {other : Change}
    (hother : other ∈ (schedule changes).drop (i + 1)) : other ≠ change := by
  have honce := nodup_schedule (hdifference.nodup_places hbefore hafter).of_map
  rw [← List.take_append_drop (i + 1) (schedule changes), List.nodup_append] at honce
  refine (honce.2.2 change ?_ other hother).symm
  rw [List.mem_iff_getElem?]
  exact ⟨i, by rw [List.getElem?_take_of_lt (Nat.lt_succ_self i), hchange]⟩

/-- No change before its own turn writes where a member stands. -/
theorem address_ne_of_mem_take (htraversal : IsTraversal registry root after)
    (hbefore : (before.map Member.path).Nodup)
    (hdifference : IsDifference filter before after changes) {i : Nat} {change : Change}
    (hchange : (schedule changes)[i]? = some change) {member : Member}
    (hmember : member ∈ after) (hdescribes : change.Describes .current member)
    {other : Change} (hother : other ∈ (schedule changes).take i)
    (hstate : other.state ≠ .removed) :
    registry.addressOf? other.path root ≠ registry.addressOf? change.path root :=
  address_ne_of_ne htraversal hbefore hdifference (List.mem_of_getElem? hchange) hmember
    hdescribes (List.mem_of_mem_take hother) hstate
    (ne_of_mem_take hbefore htraversal.distinct hdifference hchange hother)

/-- When a change has its turn, its member stands in the graph and shows what it showed
in the beginning. -/
theorem standsIn_of_turn (htraversal : IsTraversal registry root after)
    (hbefore : (before.map Member.path).Nodup)
    (hdifference : IsDifference filter before after changes) {i : Nat}
    {turn : Turn (Option Entity) ω Change}
    (hturn : (writeTurns environment registry dialect channel changes snapshot options
      (some root) world)[i]? = some turn)
    {member : Member} (hmember : member ∈ after)
    (hdescribes : turn.item.Describes .current member) :
    ∃ met e address, turn.state = some met ∧ root.SameShape met ∧
      turn.item.StandsIn registry met member.mapping e address ∧
      e.label = member.entity.label := by
  obtain ⟨hitem, htake, _⟩ := Task.afterTurns_take hturn
  obtain ⟨met, hmet, hshape, hframe⟩ := afterTurns_frame (fun other hother hstate =>
    schedule_standsIn htraversal hdifference (List.mem_of_mem_take hother) hstate) htake
  obtain ⟨address, hstands⟩ := htraversal.standsIn hmember hdescribes
  obtain ⟨e, hstandsMet, _⟩ := hstands.of_sameShape hshape
  have hlabel : (met.at? address).map Entity.label = (root.at? address).map Entity.label := by
    apply hframe
    intro other hother hstate
    rw [← hstands.address]
    exact address_ne_of_mem_take htraversal hbefore hdifference hitem hmember hdescribes
      hother hstate
  rw [hstandsMet.at?, hstands.at?, Option.map_some, Option.map_some, Option.some.injEq]
    at hlabel
  exact ⟨met, e, address, hmet, hshape, hstandsMet, hlabel⟩

/-- A change that is written has its turn, in which its member shows what it showed in
the beginning. -/
theorem exists_turn (htraversal : IsTraversal registry root after)
    (hbefore : (before.map Member.path).Nodup)
    (hdifference : IsDifference filter before after changes)
    (hafter : Task.afterTurns environment
      (Task.writeMember registry dialect channel snapshot options) (schedule changes)
        (some root) world = some (final, later))
    {member : Member} (hmember : member ∈ after) {change : Change}
    (hchange : change ∈ schedule changes) (hdescribes : change.Describes .current member) :
    ∃ (i : Nat) (turn : Turn (Option Entity) ω Change) (met e : Entity) (address : Address)
        (issued : Bool) (left : Option Entity) (between : ω) (requests : List Request),
      (writeTurns environment registry dialect channel changes snapshot options (some root)
        world)[i]? = some turn ∧
      turn.item = change ∧ turn.state = some met ∧ root.SameShape met ∧
      change.StandsIn registry met member.mapping e address ∧
      e.label = member.entity.label ∧
      turn.execution = ⟨.ok issued, left, between, requests⟩ ∧
      (Task.writeMember registry dialect channel snapshot options change).execution environment
        (some met) turn.world = ⟨.ok issued, left, between, requests⟩ := by
  obtain ⟨i, hi⟩ := List.mem_iff_getElem?.1 hchange
  have hlength : i < (schedule changes).length := (List.getElem?_eq_some_iff.1 hi).1
  obtain ⟨turn, issued, left, between, requests, hturn, hexecution⟩ :=
    Task.exists_ok_of_afterTurns hafter hlength
  obtain ⟨hitem, _, hrun⟩ := Task.afterTurns_take hturn
  obtain rfl : turn.item = change := Option.some.inj (hitem.symm.trans hi)
  obtain ⟨met, e, address, hmet, hshape, hstands, hlabel⟩ :=
    standsIn_of_turn htraversal hbefore hdifference hturn hmember hdescribes
  rw [hmet, hexecution] at hrun
  exact ⟨i, turn, met, e, address, issued, left, between, requests, hturn, rfl, hmet, hshape,
    hstands, hlabel, hexecution, hrun.symm⟩

/-- Behind the turn of a member, nothing else writes where the member stands. -/
theorem label_behind_turn (htraversal : IsTraversal registry root after)
    (hbefore : (before.map Member.path).Nodup)
    (hdifference : IsDifference filter before after changes) {i : Nat}
    {turn : Turn (Option Entity) ω Change}
    (hturn : (writeTurns environment registry dialect channel changes snapshot options
      (some root) world)[i]? = some turn)
    {member : Member} (hmember : member ∈ after)
    (hdescribes : turn.item.Describes .current member) {left : Entity}
    (hshape : root.SameShape left) {between finished : ω} {rest : List Change}
    (hrest : ∀ change ∈ rest, change ∈ (schedule changes).drop (i + 1))
    {state : Option Entity}
    (hafter : Task.afterTurns environment
      (Task.writeMember registry dialect channel snapshot options) rest (some left) between =
        some (state, finished))
    {address : Address} (haddress : registry.addressOf? turn.item.path root = some address) :
    ∃ last, state = some last ∧ left.SameShape last ∧
      (last.at? address).map Entity.label = (left.at? address).map Entity.label := by
  have hitem := (Task.afterTurns_take hturn).1
  obtain ⟨last, hlast, hkept, hframe⟩ := afterTurns_frame (fun change hchange hstate => by
    obtain ⟨mapping, e, place, hstands⟩ := schedule_standsIn htraversal hdifference
      (List.mem_of_mem_drop (hrest change hchange)) hstate
    obtain ⟨e', hstands', _⟩ := hstands.of_sameShape hshape
    exact ⟨mapping, e', place, hstands'⟩) hafter
  refine ⟨last, hlast, hkept, hframe address ?_⟩
  intro change hchange hstate
  have hlisted := hrest change hchange
  rw [← Registry.addressOf?_of_sameShape hshape, ← haddress]
  exact address_ne_of_ne htraversal hbefore hdifference (List.mem_of_getElem? hitem) hmember
    hdescribes (List.mem_of_mem_drop hlisted) hstate
    (ne_of_mem_drop hbefore htraversal.distinct hdifference hitem hlisted)

/-- From the turn of a modified member on, what stands above it stays as it is. -/
theorem label_above_modified (htraversal : IsTraversal registry root after)
    (hdifference : IsDifference filter before after changes)
    (hafter : Task.afterTurns environment
      (Task.writeMember registry dialect channel snapshot options) (schedule changes)
        (some root) world = some (final, later))
    {i : Nat} {turn : Turn (Option Entity) ω Change}
    (hturn : (writeTurns environment registry dialect channel changes snapshot options
      (some root) world)[i]? = some turn)
    (hmodified : turn.item.state = .modified) {met : Entity} (hmet : turn.state = some met)
    (hshape : root.SameShape met) :
    ∃ last, final = some last ∧ met.SameShape last ∧
      ∀ place, place.length < turn.item.depth →
        (last.at? place).map Entity.label = (met.at? place).map Entity.label := by
  have hitem := (Task.afterTurns_take hturn).1
  have hdrop := Task.afterTurns_drop hturn hafter
  rw [hmet] at hdrop
  have hdepth : ∀ change ∈ (schedule changes).drop i, turn.item.depth ≤ change.depth := by
    intro change hchange
    obtain ⟨k, hk⟩ := List.mem_iff_getElem?.1 hchange
    rw [List.getElem?_drop] at hk
    by_contra hshallow
    have hstate := (mem_schedule.1 (List.mem_of_getElem? hk)).2
    have hlt : i + k < i := by
      apply lt_of_not_mayPrecede hdifference.sorted hitem hk
      · intro hsame
        exact hshallow (Nat.le_of_eq (congrArg Change.depth hsame))
      · intro hprecede
        have hphase := hprecede.1
        rw [hmodified] at hphase
        have hsame : change.state = .modified := by
          cases hother : change.state <;> rw [hother] at hphase hstate <;>
            simp [ChangeState.phase] at hphase hstate ⊢
        exact hshallow (hprecede.2.2 (hmodified.trans hsame.symm) (by rw [hmodified]; simp))
    exact absurd hlt (Nat.not_lt.2 (Nat.le_add_right i k))
  obtain ⟨last, hlast, hkept, hframe⟩ := afterTurns_frame (fun change hchange hstate => by
    obtain ⟨mapping, e, address, hstands⟩ := schedule_standsIn htraversal hdifference
      (List.mem_of_mem_drop hchange) hstate
    obtain ⟨e', hstands', _⟩ := hstands.of_sameShape hshape
    exact ⟨mapping, e', address, hstands'⟩) hdrop
  refine ⟨last, hlast, hkept, ?_⟩
  intro place hplace
  apply hframe
  intro change hchange _ haddress
  have hlength := Registry.length_of_addressOf? haddress
  have hbelow := hdepth change hchange
  rw [Change.depth, Change.depth] at hbelow
  rw [Change.depth] at hplace
  omega

/-- So a member above shows in the final graph what it shows at that turn. -/
theorem read_above_modified (htraversal : IsTraversal registry root after)
    (hdifference : IsDifference filter before after changes)
    (hafter : Task.afterTurns environment
      (Task.writeMember registry dialect channel snapshot options) (schedule changes)
        (some root) world = some (final, later))
    {i : Nat} {turn : Turn (Option Entity) ω Change}
    (hturn : (writeTurns environment registry dialect channel changes snapshot options
      (some root) world)[i]? = some turn)
    (hmodified : turn.item.state = .modified) {met : Entity} (hmet : turn.state = some met)
    (hshape : root.SameShape met) {path : Path} {e : Entity}
    (hresolve : registry.resolve met path = .ok e) (habove : path.length < turn.item.depth) :
    ∃ last found, final = some last ∧ registry.resolve last path = .ok found ∧
      ∀ field, e.read field = found.read field := by
  obtain ⟨last, hlast, hshapeLast, hframe⟩ := label_above_modified htraversal hdifference
    hafter hturn hmodified hmet hshape
  obtain ⟨found, hfound, _⟩ := Registry.descend_of_sameShape hshapeLast hresolve
  refine ⟨last, found, hlast, hfound, fun field => ?_⟩
  obtain ⟨place, hplace, hat⟩ := Registry.addressOf?_of_descend hresolve
  obtain ⟨place', hplace', hat'⟩ := Registry.addressOf?_of_descend hfound
  rw [← Registry.addressOf?_of_sameShape hshapeLast, hplace, Option.some.injEq] at hplace'
  subst hplace'
  have hkept := hframe place (by rwa [Registry.length_of_addressOf? hplace])
  rw [hat, hat', Option.map_some, Option.map_some, Option.some.injEq] at hkept
  exact Entity.read_of_label hkept.symm field

end Run

end AggregateSync
