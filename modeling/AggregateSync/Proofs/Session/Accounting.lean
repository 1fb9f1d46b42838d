import AggregateSync.Proofs.Session.Commit

/-!
# What a summary accounts for

The comparison counts the members by what became of them, and three loops count the statements
that they send.  After a synchronization that succeeds the two agree: each member that was added,
removed or modified took exactly one statement.  The one that could be left out, an UPDATE
without a column to set, is not, because a property that differs is one that is written.
-/

namespace AggregateSync

/-! ## Updates always assign something -/

/-- Where there are properties to write, something is assigned. -/
theorem assigned_isEmpty {properties : List (Property × Value)} (hproperties : properties ≠ [])
    (table : String) (extra : Option (String × Value)) :
    (extra.elim
      (properties.foldl (fun update entry => update.set entry.1.column entry.2)
        (Update.ofTable table))
      fun entry => (properties.foldl (fun update entry => update.set entry.1.column entry.2)
        (Update.ofTable table)).set entry.1 entry.2).isEmpty = false := by
  have hassigned : assignAll (columnEntries properties ++ extra.toList) ≠ [] :=
    assignAll_ne_nil (by simp [columnEntries, hproperties])
  rw [Update.foldl_set_column]
  cases extra with
  | none =>
      rw [Option.toList_none, List.append_nil] at hassigned
      exact List.isEmpty_eq_false_iff.2 hassigned
  | some entry =>
      rw [Option.toList_some, assignAll_concat] at hassigned
      exact List.isEmpty_eq_false_iff.2 hassigned

/-- The update of a member of a class that has properties to write is never left out, in whatever
graph it is prepared. -/
theorem prepareUpdate_isSome {registry : Registry} {dialect : Dialect} {snapshot : Option Entity}
    {propagate : Bool} {change : Change} {mapping : ClassMapping} {root linked : Entity}
    {write? : Option PreparedWrite} (hmapping : registry.mappingById change.type.id = .ok mapping)
    (hwritable : mapping.writableProperties ≠ [])
    (hprepare : prepareUpdate registry dialect snapshot propagate change root =
      .ok (linked, write?)) : write?.isSome = true := by
  obtain ⟨link, _, hprepare⟩ := Result.bind_eq_ok.1 hprepare
  rw [hmapping, Result.ok_bind] at hprepare
  obtain ⟨place, _, hprepare⟩ := Result.bind_eq_ok.1 hprepare
  obtain ⟨⟨e, extra⟩, _, hprepare⟩ := Result.bind_eq_ok.1 hprepare
  obtain ⟨properties, hproperties, hprepare⟩ := Result.bind_eq_ok.1 hprepare
  have hlisted : properties ≠ [] := by
    rintro rfl
    have hread := Result.mapM_eq_ok.1 hproperties
    exact hwritable (List.forall₂_nil_right_iff.1 hread)
  simp only [assigned_isEmpty hlisted, Bool.false_eq_true, if_false] at hprepare
  obtain ⟨condition, _, hprepare⟩ := Result.bind_eq_ok.1 hprepare
  cases hprepare
  rfl

namespace IsDifference

variable {registry : Registry} {filter : PropertyFilter} {snapshot current : Option Entity}
  {before after : List Member} {changes : List Change} {change : Change}

/-- A member that was modified is of a class that has properties to write: those that differ. -/
theorem exists_writable (hdifference : IsDifference filter before after changes)
    (hafter : registry.members current = .ok after) (hchange : change ∈ changes)
    (hmodified : change.state = .modified) :
    ∃ mapping, registry.mappingById change.type.id = .ok mapping ∧
      mapping.writableProperties ≠ [] := by
  have hscheduled : change ∈ schedule changes :=
    mem_schedule.2 ⟨hchange, by rw [hmodified]; exact ChangeState.noConfusion⟩
  rcases hdifference.scheduled_cases hscheduled with
    ⟨hadded, _⟩ | ⟨hremoved, _⟩ | ⟨_, member, hmember, old, _, hdescribes, _, hdiffer⟩
  · cases hmodified.symm.trans hadded
  · cases hmodified.symm.trans hremoved
  · have hknown := (Registry.members_isKnown hafter member hmember).1
    refine ⟨member.mapping, ?_, ClassMapping.writableProperties_ne_nil hdiffer⟩
    rw [Registry.mappingById_eq_ok, hdescribes.type,
      Registry.same_of_find? (Registry.mappingFor_eq_ok.1 hknown)]
    exact Registry.mappingFor_eq_ok.1 hknown

end IsDifference

/-! ## Counting what is sent -/

/-- Does the request write, on a channel? -/
def Request.writesOn (channel : Channel) : Request → Bool
  | .execute used _ | .insert used _ => used == channel
  | .query _ _ | .begin | .commit | .rollback => false

theorem Request.writesOn_eq_true {channel : Channel} {request : Request}
    (hwrites : request.WritesOn channel) : request.writesOn channel = true := by
  cases hwrites <;> exact beq_self_eq_true channel

namespace Task

variable {σ ω β : Type} {environment : Environment ω} {task : β → Task σ Bool}

/-- A loop each of whose turns makes one request counts its items, and makes as many
requests. -/
theorem countEach_of_sends {items : List β}
    (hsends : ∀ item ∈ items, ∀ state world issued after later requests,
      (task item).execution environment state world = ⟨.ok issued, after, later, requests⟩ →
        issued = true ∧ requests.length = 1)
    {state after : σ} {world later : ω} {count : Nat} {requests : List Request}
    (hok : (countEach task items).execution environment state world =
      ⟨.ok count, after, later, requests⟩) :
    count = items.length ∧ requests.length = items.length := by
  induction items generalizing state world count requests with
  | nil =>
      rw [countEach, execution_pure] at hok
      cases hok
      exact ⟨rfl, rfl⟩
  | cons item rest ih =>
      obtain ⟨hfirst, hrest⟩ := List.forall_mem_cons.1 hsends
      obtain ⟨issued, middle, between, asked, others, hitem, hothers, rfl⟩ :=
        execution_bind_eq_ok.1 hok
      obtain ⟨tally, _, _, _, last, hcount, hlast, rfl⟩ := execution_bind_eq_ok.1 hothers
      rw [execution_pure] at hlast
      cases hlast
      obtain ⟨rfl, hasked⟩ := hfirst _ _ _ _ _ _ hitem
      obtain ⟨rfl, hlater⟩ := ih hrest hcount
      refine ⟨Nat.add_comm 1 rest.length, ?_⟩
      rw [List.length_append, List.append_nil, hasked, hlater, Nat.add_comm, List.length_cons]

end Task

section Persist

variable {ω : Type} {environment : Environment ω} {registry : Registry} {dialect : Dialect}
  {channel : Channel} {snapshot current after : Option Entity} {options : PersistOptions}
  {changes : List Change} {world later : ω} {requests : List Request}

/-- A turn that was completed has sent a write, unless it is an update that was left out. -/
theorem Turn.Completes.sends {turn : Turn (Option Entity) ω Change}
    (hcompletes : turn.Completes environment registry dialect channel snapshot options)
    (hassigns : turn.item.state = .modified → ∀ root linked write?,
      prepareUpdate registry dialect snapshot options.onUpdate turn.item root =
        .ok (linked, write?) → write?.isSome = true) :
    ∃ after later request, turn.execution = ⟨.ok true, after, later, [request]⟩ := by
  cases hcompletes with
  | insertAssigned _ _ _ _ _ _ hsends
  | insert _ _ _ _ _ hsends
  | delete _ _ _ hsends
  | update _ _ _ _ hsends =>
      obtain ⟨later, _, hexecution⟩ := hsends
      exact ⟨_, later, _, hexecution⟩
  | nothingToAssign hstate _ _ hprepare _ =>
      cases hassigns hstate _ _ _ hprepare

/-- Writing changes counts the members of each kind, and makes as many requests, provided that
no update is left out. -/
theorem persist_counts
    (hassigns : ∀ change ∈ changes, change.state = .modified → ∀ root linked write?,
      prepareUpdate registry dialect snapshot options.onUpdate change root =
        .ok (linked, write?) → write?.isSome = true) {counts : WriteCounts}
    (hok : (persist registry dialect channel changes snapshot options).execution environment
      current world = ⟨.ok counts, after, later, requests⟩) :
    counts.inserted = countState changes .added ∧
      counts.deleted = countState changes .removed ∧
      counts.updated = countState changes .modified ∧ requests.length = counts.total := by
  have hsends : ∀ state, state ≠ .unmodified → ∀ change ∈ changesIn changes state,
      ∀ state world issued after later requests,
        (Task.writeMember registry dialect channel snapshot options change).execution environment
          state world = ⟨.ok issued, after, later, requests⟩ →
            issued = true ∧ requests.length = 1 := by
    intro kind hkind change hchange state world issued after later requests hturn
    obtain ⟨hlisted, rfl⟩ := mem_changesIn.1 hchange
    let turn : Turn (Option Entity) ω Change := ⟨change, state, world,
      (Task.writeMember registry dialect channel snapshot options change).execution environment
        state world⟩
    have hcompletes : turn.Completes environment registry dialect channel snapshot options :=
      Turn.completes_of_succeeds hkind rfl (congrArg Execution.succeeds hturn)
    obtain ⟨_, _, _, hexecution⟩ := hcompletes.sends (hassigns change hlisted)
    cases hturn.symm.trans hexecution
    exact ⟨rfl, rfl⟩
  rw [persist_eq] at hok
  obtain ⟨inserted, _, _, _, _, hinserted, hlater, rfl⟩ := Task.execution_bind_eq_ok.1 hok
  obtain ⟨deleted, _, _, _, _, hdeleted, hlast, rfl⟩ := Task.execution_bind_eq_ok.1 hlater
  obtain ⟨updated, _, _, _, _, hupdated, hcounts, rfl⟩ := Task.execution_bind_eq_ok.1 hlast
  rw [Task.execution_pure] at hcounts
  cases hcounts
  obtain ⟨rfl, hinserts⟩ := Task.countEach_of_sends (fun change hchange =>
    hsends .added ChangeState.noConfusion change (mem_byDepth.1 hchange)) hinserted
  obtain ⟨rfl, hdeletes⟩ := Task.countEach_of_sends (fun change hchange =>
    hsends .removed ChangeState.noConfusion change (mem_byDepthDescending.1 hchange)) hdeleted
  obtain ⟨rfl, hupdates⟩ := Task.countEach_of_sends
    (hsends .modified ChangeState.noConfusion) hupdated
  refine ⟨byDepth_perm.length_eq, byDepthDescending_perm.length_eq, rfl, ?_⟩
  simp only [List.length_append, List.length_nil, WriteCounts.total, hinserts, hdeletes, hupdates]
  omega

end Persist

/-! ## The summary -/

/-- Every change is of one of the four states. -/
theorem countState_total (changes : List Change) :
    countState changes .added + countState changes .removed + countState changes .modified +
      countState changes .unmodified = changes.length := by
  induction changes with
  | nil => rfl
  | cons change rest ih =>
      simp only [countState, List.filter_cons, List.length_cons] at ih ⊢
      cases hstate : change.state <;> simp <;> omega

theorem countState_lt_length {changes : List Change} :
    countState changes .unmodified < changes.length ↔
      ∃ change ∈ changes, change.state ≠ .unmodified := by
  rw [countState, List.length_filter_lt_length_iff_exists]
  simp

/-- The summary of a synchronization that succeeds accounts for every write.  As many members
were inserted, deleted and updated as were added, removed and modified, for no modified member
lacks a column to set; together they are the writes that were sent to the transaction.  The four
states make up all changes, and there are changes exactly if one is not an agreement. -/
theorem summary_accounts {ω : Type} {environment : Environment ω} {registry : Registry}
    {dialect : Dialect} {config : SyncConfig} {snapshot current after : Option Entity}
    {world later : ω} {summary : ChangeSummary} {requests : List Request}
    (hok : (synchronize registry dialect config snapshot).execution environment current world =
      ⟨.ok summary, after, later, requests⟩) :
    ∃ changes, registry.compare snapshot current config.filter = .ok changes ∧
      summary = ChangeSummary.ofChanges changes summary.statements ∧
      summary.statements.inserted = summary.added ∧
      summary.statements.deleted = summary.removed ∧
      summary.statements.updated = summary.modified ∧
      summary.statements.total = requests.countP (Request.writesOn .transaction) ∧
      summary.added + summary.removed + summary.modified + summary.unmodified =
        changes.length ∧
      (summary.hasChanges = true ↔ ∃ change ∈ changes, change.state ≠ .unmodified) ∧
      ∀ change ∈ changes, change.state = .modified → ∀ root linked write?,
        prepareUpdate registry dialect snapshot config.repropagateOnUpdate change root =
          .ok (linked, write?) → write?.isSome = true := by
  obtain ⟨changes, begun, finished, asked, counts, hcompare, _, hpersist, _, rfl, rfl⟩ :=
    synchronize_eq_ok_ofChanges hok
  obtain ⟨before, members, _, hmembers, hdifference⟩ := Registry.compare_eq_ok hcompare
  have hassigns : ∀ change ∈ changes, change.state = .modified → ∀ root linked write?,
      prepareUpdate registry dialect snapshot config.repropagateOnUpdate change root =
        .ok (linked, write?) → write?.isSome = true := by
    intro change hchange hmodified root linked write? hprepare
    obtain ⟨mapping, hmapping, hwritable⟩ :=
      hdifference.exists_writable hmembers hchange hmodified
    exact prepareUpdate_isSome hmapping hwritable hprepare
  obtain ⟨hinserted, hdeleted, hupdated, hasked⟩ := persist_counts hassigns hpersist
  have hwrites : asked.countP (Request.writesOn .transaction) = asked.length :=
    List.countP_eq_length.2 fun request hrequest => Request.writesOn_eq_true
      (Task.persist_asksOnly changes ω environment current begun request (by rwa [hpersist]))
  have htotal := countState_total changes
  refine ⟨changes, hcompare, rfl, hinserted, hdeleted, hupdated, ?_, htotal, ?_, hassigns⟩
  · rw [List.countP_cons_of_neg Bool.false_ne_true, List.countP_append, hwrites, hasked]
    rfl
  · rw [← countState_lt_length, ChangeSummary.hasChanges, decide_eq_true_iff]
    change 0 < counts.total ↔ _
    rw [WriteCounts.total]
    omega

/-- The first parcel is gone, its item lies in the second, and a parcel without a number is
new. -/
def Shipping.rearranged : Entity := orderOf 1 [parcelOf 2 1 [itemOf 1 2], parcelOf 0 1 []]

/-- Three statements account for the three of five members that are not as they were. -/
theorem rearranged_accounts :
    ∃ summary after later requests changes,
      (synchronize Shipping.registry .postgres .standard (some Shipping.packed)).execution
        Script.environment (some Shipping.rearranged) Shipping.quiet =
          ⟨.ok summary, after, later, requests⟩ ∧
      Shipping.registry.compare (some Shipping.packed) (some Shipping.rearranged)
        (fun _ _ => true) = .ok changes ∧
      summary.statements = ⟨1, 1, 1⟩ ∧ summary.statements.inserted = summary.added ∧
      summary.statements.deleted = summary.removed ∧
      summary.statements.updated = summary.modified ∧
      3 = requests.countP (Request.writesOn .transaction) ∧
      summary.added + summary.removed + summary.modified + summary.unmodified = 5 ∧
      (summary.hasChanges = true ↔ ∃ change ∈ changes, change.state ≠ .unmodified) := by
  obtain ⟨changes, hcompare, _, hinserted, hdeleted, hupdated, htotal, hlength, hhas, _⟩ :=
    summary_accounts (rfl : (synchronize Shipping.registry .postgres .standard
      (some Shipping.packed)).execution Script.environment (some Shipping.rearranged)
        Shipping.quiet = ⟨.ok _, _, _, _⟩)
  exact ⟨_, _, _, _, changes, rfl, hcompare, rfl, hinserted, hdeleted, hupdated, htotal,
    rfl, hhas⟩

end AggregateSync
