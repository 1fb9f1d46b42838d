import AggregateSync.Connection.Script
import AggregateSync.Proofs.Graph.Partition
import AggregateSync.Proofs.Session.Turns

/-!
# The order of writing

Changes are written phase by phase: added members from the root down, removed ones from
the leaves up, then modified ones.  `schedule` is that order, and writing changes is one
loop over it, so the turns of a run are those of a list in which every change that is
written occurs once.
-/

namespace AggregateSync

/-- The changes in the order of writing: added members from the root down, removed ones
from the leaves up, then modified ones. -/
def schedule (changes : List Change) : List Change :=
  byDepth Change.depth (changesIn changes .added) ++
    (byDepthDescending Change.depth (changesIn changes .removed) ++
      changesIn changes .modified)

/-- The place of a state in the order of writing. -/
def ChangeState.phase : ChangeState → Nat
  | .added => 0
  | .removed => 1
  | .modified => 2
  | .unmodified => 3

/-- A change may be written before another: in an earlier phase, or in the same one and
on the way of that phase through the depths. -/
def Change.MayPrecede (change other : Change) : Prop :=
  change.state.phase ≤ other.state.phase ∧
    (change.state = other.state → change.state = .removed → other.depth ≤ change.depth) ∧
    (change.state = other.state → change.state ≠ .removed → change.depth ≤ other.depth)

/-- Writes one member as its change asks. -/
def Task.writeMember (registry : Registry) (dialect : Dialect) (channel : Channel)
    (snapshot : Option Entity) (options : PersistOptions) (change : Change) :
    Task (Option Entity) Bool :=
  match change.state with
  | .added => insertMember registry dialect channel snapshot change
  | .removed => deleteMember registry dialect channel snapshot options change
  | .modified => updateMember registry dialect channel snapshot options change
  | .unmodified => pure false

/-- The turns of writing changes, the current graph being the state. -/
def writeTurns {ω : Type} (environment : Environment ω) (registry : Registry)
    (dialect : Dialect) (channel : Channel) (changes : List Change)
    (snapshot : Option Entity) (options : PersistOptions) (current : Option Entity)
    (world : ω) : List (Turn (Option Entity) ω Change) :=
  Task.turns environment (Task.writeMember registry dialect channel snapshot options)
    (schedule changes) current world

section Persist

variable {ω : Type} {environment : Environment ω} {registry : Registry} {dialect : Dialect}
  {channel : Channel} {changes : List Change} {snapshot current : Option Entity}
  {options : PersistOptions} {world : ω}

theorem mem_schedule {change : Change} : change ∈ schedule changes ↔
    change ∈ changes ∧ change.state ≠ .unmodified := by
  simp only [schedule, changesIn, List.mem_append, mem_byDepth, mem_byDepthDescending,
    List.mem_filter, beq_iff_eq]
  cases hstate : change.state <;> simp

theorem mem_changesIn {state : ChangeState} {change : Change} :
    change ∈ changesIn changes state ↔ change ∈ changes ∧ change.state = state := by
  rw [changesIn, List.mem_filter, beq_iff_eq]

/-- Changes that are listed by depth are written in the order of `MayPrecede`. -/
theorem schedule_pairwise
    (hsorted : changes.Pairwise fun change other => change.depth ≤ other.depth) :
    (schedule changes).Pairwise Change.MayPrecede := by
  have hadded : (byDepth Change.depth (changesIn changes .added)).Pairwise
      Change.MayPrecede := by
    apply byDepth_sorted.imp_of_mem
    intro change other hchange hother hdepth
    rw [mem_byDepth, mem_changesIn] at hchange hother
    simp [Change.MayPrecede, hchange.2, hother.2, hdepth]
  have hremoved : (byDepthDescending Change.depth (changesIn changes .removed)).Pairwise
      Change.MayPrecede := by
    apply byDepthDescending_sorted.imp_of_mem
    intro change other hchange hother hdepth
    rw [mem_byDepthDescending, mem_changesIn] at hchange hother
    simp [Change.MayPrecede, hchange.2, hother.2, hdepth]
  have hmodified : (changesIn changes .modified).Pairwise Change.MayPrecede := by
    apply (hsorted.filter _).imp_of_mem
    intro change other hchange hother hdepth
    rw [← changesIn, mem_changesIn] at hchange hother
    simp [Change.MayPrecede, hchange.2, hother.2, hdepth]
  rw [schedule, List.pairwise_append, List.pairwise_append]
  refine ⟨hadded, ⟨hremoved, hmodified, ?_⟩, ?_⟩
  · intro change hchange other hother
    rw [mem_byDepthDescending, mem_changesIn] at hchange
    rw [mem_changesIn] at hother
    simp [Change.MayPrecede, hchange.2, hother.2, ChangeState.phase]
  · intro change hchange other hother
    rw [mem_byDepth, mem_changesIn] at hchange
    rw [List.mem_append, mem_byDepthDescending, mem_changesIn, mem_changesIn] at hother
    rcases hother with ⟨_, hother⟩ | ⟨_, hother⟩ <;>
      simp [Change.MayPrecede, hchange.2, hother, ChangeState.phase]

/-- A change does not precede one of its state that is nearer to where the phase begins. -/
theorem not_mayPrecede_of_depth {change other : Change} (hsame : change.state = other.state)
    (hdepth : if change.state = .removed then change.depth < other.depth
      else other.depth < change.depth) : ¬ change.MayPrecede other := by
  rintro ⟨_, hdown, hup⟩
  split at hdepth
  case isTrue hremoved => exact absurd (hdown hsame hremoved) (Nat.not_le_of_lt hdepth)
  case isFalse hremoved => exact absurd (hup hsame hremoved) (Nat.not_le_of_lt hdepth)

/-- A change that may not come later than another one comes earlier. -/
theorem lt_of_not_mayPrecede
    (hsorted : changes.Pairwise fun change other => change.depth ≤ other.depth) {i j : Nat}
    {change other : Change} (hi : (schedule changes)[i]? = some change)
    (hj : (schedule changes)[j]? = some other) (hdiffer : change ≠ other)
    (hnot : ¬ change.MayPrecede other) : j < i :=
  lt_of_not_precedes (schedule_pairwise hsorted) hi hj hdiffer hnot

namespace IsDifference

variable {filter : PropertyFilter} {before after : List Member} {change : Change}
  {member old : Member}

/-- What a scheduled change is about. -/
theorem scheduled_cases (hdifference : IsDifference filter before after changes)
    (hchange : change ∈ schedule changes) :
    (change.state = .added ∧ ∃ member ∈ after, change.Describes .current member ∧
      ∀ old ∈ before, ¬ member.SameIdentity old) ∨
    (change.state = .removed ∧ ∃ old ∈ before, change.Describes .snapshot old ∧
      old.IsGoneFrom after) ∨
    (change.state = .modified ∧ ∃ member ∈ after, ∃ old ∈ before,
      change.Describes .current member ∧ member.SameIdentity old ∧
      differences filter member.mapping old.entity member.entity ≠ []) := by
  obtain ⟨hchange, hstate⟩ := mem_schedule.1 hchange
  rcases hdifference.mem_cases hchange with
    ⟨member, hmember, hclassifies⟩ | ⟨old, hold, hgone, hremoves⟩
  case inr => exact .inr (.inl ⟨hremoves.removed, old, hold, hremoves.toDescribes, hgone⟩)
  by_cases hkept : ∃ old ∈ before, member.SameIdentity old
  case pos =>
    obtain ⟨old, hold, hsame⟩ := hkept
    obtain ⟨hchanged, hmodified, hunmodified⟩ := hclassifies.kept old hold hsame
    have hdiffer : change.changed ≠ [] := fun hnone => hstate (hunmodified.2 hnone)
    refine .inr (.inr ⟨hmodified.2 hdiffer, member, hmember, old, hold,
      hclassifies.toDescribes, hsame, ?_⟩)
    rwa [← hchanged]
  case neg =>
    have hadded : ∀ old ∈ before, ¬ member.SameIdentity old :=
      fun old hold hsame => hkept ⟨old, hold, hsame⟩
    exact .inl ⟨hclassifies.added.2 hadded, member, hmember, hclassifies.toDescribes, hadded⟩

/-- A member of the snapshot that a scheduled change tells of is gone. -/
theorem isGone_of_describes (hdifference : IsDifference filter before after changes)
    (hchange : change ∈ schedule changes) (hdescribes : change.Describes .snapshot old) :
    old.IsGoneFrom after := by
  rcases hdifference.mem_cases (mem_schedule.1 hchange).1 with
    ⟨member, _, hclassifies⟩ | ⟨found, _, hgone, hremoves⟩
  · have hsides := hclassifies.side.symm.trans hdescribes.side
    cases hsides
  · have hkey : found.key = old.key := hremoves.key.symm.trans hdescribes.key
    rw [Member.IsGoneFrom] at hgone ⊢
    simp only [Member.SameIdentity] at hgone ⊢
    rwa [← hkey]

/-- A member of both graphs whose compared properties agree is not written. -/
theorem not_describes_of_agree (hdifference : IsDifference filter before after changes)
    (hpaths : (after.map Member.path).Nodup) (hmember : member ∈ after) (hold : old ∈ before)
    (hsame : member.SameIdentity old)
    (hagree : differences filter member.mapping old.entity member.entity = [])
    (hchange : change ∈ schedule changes) :
    ¬ change.Describes .current member ∧ ¬ change.Describes .snapshot old := by
  constructor
  · intro hdescribes
    obtain ⟨hlisted, hstate⟩ := mem_schedule.1 hchange
    rcases hdifference.mem_cases hlisted with
      ⟨found, hfound, hclassifies⟩ | ⟨found, _, _, hremoves⟩
    · have hpath : found.path = member.path := by rw [← hclassifies.path, hdescribes.path]
      obtain rfl := List.inj_on_of_nodup_map hpaths hfound hmember hpath
      obtain ⟨hchanged, _, hunmodified⟩ := hclassifies.kept old hold hsame
      exact hstate (hunmodified.2 (hchanged.trans hagree))
    · have hside := hremoves.side.symm.trans hdescribes.side
      cases hside
  · intro hdescribes
    exact (hdifference.isGone_of_describes hchange hdescribes).2 member hmember hsame.symm

/-- A member of both graphs whose compared properties differ has its turn. -/
theorem exists_modification (hdifference : IsDifference filter before after changes)
    (hmember : member ∈ after) (hold : old ∈ before) (hsame : member.SameIdentity old)
    (hdiffer : differences filter member.mapping old.entity member.entity ≠ []) :
    ∃ change ∈ schedule changes, change.Describes .current member ∧
      change.state = .modified := by
  obtain ⟨change, hchange, hclassifies⟩ := hdifference.exists_classifies hmember
  obtain ⟨hchanged, hmodified, _⟩ := hclassifies.kept old hold hsame
  have hstate : change.state = .modified := by
    rw [hmodified, hchanged]
    exact hdiffer
  refine ⟨change, ?_, hclassifies.toDescribes, hstate⟩
  rw [mem_schedule, hstate]
  exact ⟨hchange, by simp⟩

end IsDifference

/-- A change that is written is written once. -/
theorem nodup_schedule (hnodup : changes.Nodup) : (schedule changes).Nodup := by
  have hstates : ∀ state, (changesIn changes state).Nodup := fun state => hnodup.filter _
  rw [schedule, List.nodup_append, List.nodup_append]
  refine ⟨byDepth_perm.nodup_iff.2 (hstates _),
    ⟨byDepthDescending_perm.nodup_iff.2 (hstates _), hstates _, ?_⟩, ?_⟩
  · rintro change hchange _ hother rfl
    rw [mem_byDepthDescending, mem_changesIn] at hchange
    rw [mem_changesIn, hchange.2] at hother
    cases hother.2
  · rintro change hchange _ hother rfl
    rw [mem_byDepth, mem_changesIn] at hchange
    rw [List.mem_append, mem_byDepthDescending, mem_changesIn, mem_changesIn,
      hchange.2] at hother
    rcases hother with hother | hother <;> cases hother.2

/-- Writing changes is writing each member as its change asks. -/
theorem persist_eq (registry : Registry) (dialect : Dialect) (channel : Channel)
    (changes : List Change) (snapshot : Option Entity) (options : PersistOptions) :
    persist registry dialect channel changes snapshot options = (do
      let write := Task.writeMember registry dialect channel snapshot options
      let inserted ← Task.countEach write
        (byDepth Change.depth (changesIn changes .added))
      let deleted ← Task.countEach write
        (byDepthDescending Change.depth (changesIn changes .removed))
      let updated ← Task.countEach write (changesIn changes .modified)
      return ⟨inserted, updated, deleted⟩) := by
  have hinsert : ∀ change ∈ byDepth Change.depth (changesIn changes .added),
      Task.insertMember registry dialect channel snapshot change =
        Task.writeMember registry dialect channel snapshot options change := by
    intro change hchange
    have hstate := (List.mem_filter.1 (mem_byDepth.1 hchange)).2
    rw [Task.writeMember, eq_of_beq hstate]
  have hdelete : ∀ change ∈ byDepthDescending Change.depth (changesIn changes .removed),
      Task.deleteMember registry dialect channel snapshot options change =
        Task.writeMember registry dialect channel snapshot options change := by
    intro change hchange
    have hstate := (List.mem_filter.1 (mem_byDepthDescending.1 hchange)).2
    rw [Task.writeMember, eq_of_beq hstate]
  have hupdate : ∀ change ∈ changesIn changes .modified,
      Task.updateMember registry dialect channel snapshot options change =
        Task.writeMember registry dialect channel snapshot options change := by
    intro change hchange
    rw [Task.writeMember, eq_of_beq (List.mem_filter.1 hchange).2]
  rw [persist, Task.countEach_congr hinsert, Task.countEach_congr hdelete,
    Task.countEach_congr hupdate]

/-- Writing changes makes the requests of the turns of its schedule. -/
theorem persist_requests (changes : List Change) (current : Option Entity) (world : ω) :
    ((persist registry dialect channel changes snapshot options).execution environment
        current world).requests =
      (writeTurns environment registry dialect channel changes snapshot options current
        world).flatMap Turn.requests := by
  rw [persist_eq, writeTurns, schedule]
  apply Task.requests_countEach_bind
  intro inserted state world
  apply Task.requests_countEach_bind
  intro deleted state world
  conv =>
    rhs
    rw [← List.append_nil (changesIn changes .modified)]
  apply Task.requests_countEach_bind
  intro updated state world
  rfl

/-- What is true of the current graph and kept by every turn, also by one that fails, is true
of what writing leaves behind, whichever way it ends. -/
theorem state_persist {P : Option Entity → Prop} (hstart : P current)
    (hturns : ∀ turn ∈ writeTurns environment registry dialect channel changes snapshot options
      current world, P turn.state → P turn.execution.state) :
    P ((persist registry dialect channel changes snapshot options).execution environment
      current world).state := by
  rw [writeTurns, schedule] at hturns
  rw [persist_eq]
  apply Task.state_countEach_bind _ hstart hturns
  intro inserted state world hstart hturns
  apply Task.state_countEach_bind _ hstart hturns
  intro deleted state world hstart hturns
  rw [← List.append_nil (changesIn changes .modified)] at hturns
  apply Task.state_countEach_bind _ hstart hturns
  intro updated state world hstart _
  exact hstart

/-- Writing changes fails with what a turn of its schedule fails with. -/
theorem persist_failsWithin {allowed : Error → Prop}
    (hturns : ∀ turn ∈ writeTurns environment registry dialect channel changes snapshot options
      current world, turn.execution.outcome.FailsWithin allowed) :
    ((persist registry dialect channel changes snapshot options).execution environment
      current world).outcome.FailsWithin allowed := by
  rw [writeTurns, schedule] at hturns
  rw [persist_eq]
  apply Task.countEach_bind_failsWithin _ hturns
  intro inserted state world hturns
  apply Task.countEach_bind_failsWithin _ hturns
  intro deleted state world hturns
  rw [← List.append_nil (changesIn changes .modified)] at hturns
  apply Task.countEach_bind_failsWithin _ hturns
  intro updated state world _
  exact Outcome.failsWithin_ok _

/-- Writing changes succeeds only if all turns of its schedule do. -/
theorem afterTurns_of_persist {current after : Option Entity} {world later : ω}
    {counts : WriteCounts} {requests : List Request}
    (hok : (persist registry dialect channel changes snapshot options).execution environment
      current world = ⟨.ok counts, after, later, requests⟩) :
    Task.afterTurns environment
      (Task.writeMember registry dialect channel snapshot options) (schedule changes)
        current world = some (after, later) := by
  rw [persist_eq] at hok
  rw [schedule]
  apply Task.afterTurns_of_countEach_bind _ hok
  intro inserted state world counts after later requests hok
  apply Task.afterTurns_of_countEach_bind _ hok
  intro deleted state world counts after later requests hok
  rw [← List.append_nil (changesIn changes .modified)]
  apply Task.afterTurns_of_countEach_bind _ hok
  intro updated state world counts after later requests hok
  rw [Task.execution_pure] at hok
  cases hok
  rfl

/-- Writing changes succeeds exactly if every turn of its schedule that is reached does. -/
theorem persist_succeeds_iff {current : Option Entity} {world : ω} :
    ((persist registry dialect channel changes snapshot options).execution environment
        current world).succeeds = true ↔
      ∀ turn ∈ writeTurns environment registry dialect channel changes snapshot options
        current world, turn.execution.succeeds = true := by
  rw [writeTurns, ← Task.afterTurns_isSome_iff]
  constructor
  · intro hsucceeds
    obtain ⟨counts, after, later, requests, hok⟩ := Execution.succeeds_iff.1 hsucceeds
    rw [afterTurns_of_persist hok]
    rfl
  · intro hall
    rw [persist_eq]
    rw [schedule] at hall
    apply Task.succeeds_countEach_bind _ hall
    intro inserted state world hall
    apply Task.succeeds_countEach_bind _ hall
    intro deleted state world hall
    rw [← List.append_nil (changesIn changes .modified)] at hall
    apply Task.succeeds_countEach_bind _ hall
    intro updated state world _
    rfl

end Persist

/-- A connection on which nothing goes wrong. -/
def Shipping.quiet : Script := ⟨[], [], .ok (), .ok (), .ok (), none, 0, []⟩

end AggregateSync
