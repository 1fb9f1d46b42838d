import AggregateSync.Proofs.Connection.Composition
import AggregateSync.Proofs.Session.Batching
import AggregateSync.Proofs.Session.Loading
import AggregateSync.Proofs.Session.Schedule

/-!
# What loading and writing are made of

A load asks for nothing but its queries, and writing changes asks whether it has been cancelled and
sends the writes that are prepared for them.  A compositional property holds of either if it
holds of these parts, each of which is known by the class whose rows it is about.
-/

namespace AggregateSync

/-! ## The queries of a load -/

/-- The queries of a load, each with the class whose rows it reads: the class of the roots, or
that of the children which the parents of a level demand. -/
inductive ReadsClass (registry : Registry) (dialect : Dialect) (root : EntityType)
    (constraints : Constraints) : EntityType → Statement → Prop
  | roots {mapping : ClassMapping} (hmapping : registry.find? root.id = some mapping) :
      ReadsClass registry dialect root constraints mapping.type
        ((rootQuery mapping constraints).build dialect)
  | children {level : Numbered} {demand : Demand} {foreignKey : ForeignKey}
      {child : ClassMapping} (hdemand : demand ∈ registry.demands level)
      (hforeignKey : demand.target.foreignKey = some foreignKey)
      (hchild : registry.find? demand.target.type.id = some child) :
      ReadsClass registry dialect root constraints demand.target.type
        ((childQuery demand.relation foreignKey child
          (firsts Value.sameEntry demand.values)).build dialect)

/-- The last part of a load makes no request. -/
theorem isQuiet_assembleLoaded (registry : Registry) (level : List Nat)
    (loaded : Option (List LoadedNode × List (List Nat))) :
    (Task.assembleLoaded registry level loaded).IsQuiet := by
  cases loaded with
  | none => exact Task.isQuiet_pure none
  | some loaded => exact (Task.isQuiet_ofResult _).bind fun _ => Task.isQuiet_pure _

section Load

variable {registry : Registry} {dialect : Dialect} {root : EntityType} {constraints : Constraints}

/-- The queries that are planned for a level read the classes of the children. -/
theorem readsClass_of_planLevel {level : Numbered} {fetches : List Fetch}
    (hplan : planLevel registry dialect level = .ok fetches) :
    ∀ fetch ∈ fetches, ReadsClass registry dialect root constraints fetch.child
      fetch.statement := by
  intro fetch hfetch
  obtain ⟨demand, hdemand, hmeets⟩ := exists_item_of_forall₂ (planLevel_areMetBy hplan).met hfetch
  obtain ⟨foreignKey, child, hforeignKey, _, hchild, hstatement⟩ := hmeets.statement
  rw [hmeets.child] at hchild ⊢
  rw [hstatement]
  exact .children (List.mem_filter.1 hdemand).1 hforeignKey hchild

variable {P : ∀ {α : Type}, Task Unit α → Prop}

theorem compositional_loadFetches (hP : Task.IsCompositional P) {fetches : List Fetch}
    (hquery : ∀ fetch ∈ fetches, P (Task.queryRows fetch.child fetch.statement))
    (nodes : List LoadedNode) : P (Task.loadFetches registry fetches nodes) := by
  induction fetches generalizing nodes with
  | nil => exact hP.quiet (Task.isQuiet_pure nodes)
  | cons fetch rest ih =>
      rw [List.forall_mem_cons] at hquery
      exact hP.bind hquery.1 fun rows =>
        hP.bind (hP.quiet (Task.isQuiet_ofResult _)) fun routed => ih hquery.2 _

theorem compositional_loadBelow (hP : Task.IsCompositional P)
    (hquery : ∀ type statement, ReadsClass registry dialect root constraints type statement →
      P (Task.queryRows type statement))
    (budget : Nat) (nodes : List LoadedNode) (level : List Nat) :
    P (Task.loadBelow registry dialect budget nodes level) := by
  induction budget generalizing nodes level with
  | zero =>
      rw [Task.loadBelow]
      split <;> exact hP.quiet (Task.isQuiet_pure _)
  | succ further ih =>
      rw [Task.loadBelow]
      split
      · exact hP.quiet (Task.isQuiet_pure _)
      · refine hP.bind (hP.quiet (Task.isQuiet_ofResult _)) fun parents => ?_
        refine hP.ofResult_bind fun fetches hplan => ?_
        split
        · exact hP.quiet (Task.isQuiet_pure _)
        · refine hP.bind (compositional_loadFetches hP (fun fetch hfetch => hquery _ _
            (readsClass_of_planLevel hplan fetch hfetch)) nodes) fun all => ?_
          refine hP.bind (ih all _) fun below => ?_
          cases below <;> exact hP.quiet (Task.isQuiet_pure _)

/-- What holds of every query of a load holds of the load. -/
theorem compositional_load (hP : Task.IsCompositional P)
    (hquery : ∀ type statement, ReadsClass registry dialect root constraints type statement →
      P (Task.queryRows type statement))
    (budget : Nat) (withChildren : Bool) :
    P (load registry dialect budget root constraints withChildren) := by
  have hassemble (level : List Nat) (loaded : Option (List LoadedNode × List (List Nat))) :
      P (Task.assembleLoaded registry level loaded) :=
    hP.quiet (isQuiet_assembleLoaded registry level loaded)
  refine hP.ofResult_bind fun mapping hmapping => ?_
  refine hP.bind (hquery _ _ (.roots (Registry.mappingById_eq_ok.1 hmapping))) fun rows => ?_
  refine hP.bind (hP.quiet (Task.isQuiet_ofResult _)) fun roots => ?_
  dsimp only
  split
  · exact hP.bind (compositional_loadBelow hP hquery budget _ _) (hassemble _)
  · exact hP.bind (hP.quiet (Task.isQuiet_pure _)) (hassemble _)

end Load

/-! ## The statements of a run of writing -/

/-- The request that sends a write. -/
def PreparedWrite.request (write : PreparedWrite) (channel : Channel) : Request :=
  if write.assignsKey then .insert channel write.statement
  else .execute channel write.statement

/-- The statement writes rows of a table as a change of a state does. -/
inductive WritesTable (dialect : Dialect) (table : String) : ChangeState → Statement → Prop
  | insert (insert : Insert) (htable : insert.table = table) :
      WritesTable dialect table .added (insert.build dialect)
  | delete (delete : Delete) (htable : delete.table = table) :
      WritesTable dialect table .removed (delete.build dialect)
  | update (update : Update) (htable : update.table = table) :
      WritesTable dialect table .modified (update.build dialect)

/-- The write of a change, the current graph being what it is by then. -/
inductive Change.Prepares (registry : Registry) (dialect : Dialect) (snapshot : Option Entity)
    (options : PersistOptions) (change : Change) (write : PreparedWrite) : Prop
  | insert {current linked : Entity} (hstate : change.state = .added)
      (hwrite : prepareInsert registry dialect snapshot change current = .ok (linked, write))
  | delete {current : Option Entity} (hstate : change.state = .removed)
      (hwrite : prepareDelete registry dialect snapshot current options.onDelete change =
        .ok write)
  | update {current linked : Entity} (hstate : change.state = .modified)
      (hwrite : prepareUpdate registry dialect snapshot options.onUpdate change current =
        .ok (linked, some write))

theorem isQuiet_currentGraph (change : Change) : (Task.currentGraph change).IsQuiet :=
  Task.isQuiet_state.bind fun graph => by
    cases graph with
    | none => exact Task.isQuiet_ofResult _
    | some root => exact Task.isQuiet_pure root

section Persist

variable {registry : Registry} {dialect : Dialect} {channel : Channel} {change : Change}
  {changes : List Change} {snapshot : Option Entity} {options : PersistOptions}
  {write : PreparedWrite}

/-- What no choice changes is as before, whatever is chosen. -/
theorem apply_elim {α β γ : Type} (f : β → γ) {b : β} {g : α → β} (hg : ∀ a, f (g a) = f b)
    (option : Option α) : f (option.elim b g) = f b := by
  cases option with
  | none => rfl
  | some a => exact hg a

theorem table_newRow (mapping : ClassMapping) (keys properties : List (Property × Value))
    (extra : Option (String × Value)) (subset : Option SubsetColumn) :
    (newRow mapping keys properties extra subset).table = mapping.table := by
  rw [newRow_eq]

/-- An INSERT is for the table of its class. -/
theorem prepareInsert_writes {current linked : Entity}
    (hwrite : prepareInsert registry dialect snapshot change current = .ok (linked, write)) :
    ∃ mapping, registry.find? change.type.id = some mapping ∧ write.type = mapping.type ∧
      WritesTable dialect mapping.table .added write.statement := by
  obtain ⟨link, _, hwrite⟩ := Result.bind_eq_ok.1 hwrite
  obtain ⟨mapping, hmapping, hwrite⟩ := Result.bind_eq_ok.1 hwrite
  obtain ⟨place, _, hwrite⟩ := Result.bind_eq_ok.1 hwrite
  obtain ⟨⟨e, extra⟩, _, hwrite⟩ := Result.bind_eq_ok.1 hwrite
  obtain ⟨keys, _, hwrite⟩ := Result.bind_eq_ok.1 hwrite
  obtain ⟨properties, _, hwrite⟩ := Result.bind_eq_ok.1 hwrite
  cases hwrite
  exact ⟨mapping, Registry.mappingById_eq_ok.1 hmapping, rfl, .insert _ (table_newRow ..)⟩

/-- A DELETE is for the table of its class, and awaits no key. -/
theorem prepareDelete_writes {current : Option Entity} {propagate : Bool}
    (hwrite : prepareDelete registry dialect snapshot current propagate change = .ok write) :
    ∃ mapping, registry.find? change.type.id = some mapping ∧ write.type = mapping.type ∧
      WritesTable dialect mapping.table .removed write.statement ∧ write.assignsKey = false := by
  obtain ⟨link, _, hwrite⟩ := Result.bind_eq_ok.1 hwrite
  obtain ⟨mapping, hmapping, hwrite⟩ := Result.bind_eq_ok.1 hwrite
  cases snapshot with
  | none => cases hwrite
  | some root =>
      obtain ⟨_, _, hwrite⟩ := Result.bind_eq_ok.1 hwrite
      obtain ⟨e, _, hwrite⟩ := Result.bind_eq_ok.1 hwrite
      obtain ⟨condition, _, hwrite⟩ := Result.bind_eq_ok.1 hwrite
      cases hwrite
      refine ⟨mapping, Registry.mappingById_eq_ok.1 hmapping, rfl, .delete _ ?_, rfl⟩
      refine (apply_elim Delete.table (fun _ => by rfl) _).trans ?_
      refine apply_elim Delete.table (fun foreignKey => ?_) _
      split <;> rfl

/-- An UPDATE is for the table of its class, and awaits no key. -/
theorem prepareUpdate_writes {current linked : Entity} {propagate : Bool}
    (hwrite : prepareUpdate registry dialect snapshot propagate change current =
      .ok (linked, some write)) :
    ∃ mapping, registry.find? change.type.id = some mapping ∧ write.type = mapping.type ∧
      WritesTable dialect mapping.table .modified write.statement ∧
      write.assignsKey = false := by
  obtain ⟨link, _, hwrite⟩ := Result.bind_eq_ok.1 hwrite
  obtain ⟨mapping, hmapping, hwrite⟩ := Result.bind_eq_ok.1 hwrite
  obtain ⟨place, _, hwrite⟩ := Result.bind_eq_ok.1 hwrite
  obtain ⟨⟨e, extra⟩, _, hwrite⟩ := Result.bind_eq_ok.1 hwrite
  obtain ⟨properties, _, hwrite⟩ := Result.bind_eq_ok.1 hwrite
  dsimp only at hwrite
  split at hwrite
  · cases hwrite
  · obtain ⟨condition, _, hwrite⟩ := Result.bind_eq_ok.1 hwrite
    cases hwrite
    refine ⟨mapping, Registry.mappingById_eq_ok.1 hmapping, rfl, .update _ ?_, rfl⟩
    refine (apply_elim Update.table (fun _ => by rfl) _).trans ?_
    refine (apply_elim Update.table (fun _ => by rfl) _).trans ?_
    rw [Update.foldl_set_column]
    rfl

/-- The write of a change is on the table of its class. -/
theorem Change.Prepares.writes
    (hprepares : change.Prepares registry dialect snapshot options write) :
    ∃ mapping, registry.find? change.type.id = some mapping ∧ write.type = mapping.type ∧
      WritesTable dialect mapping.table change.state write.statement := by
  cases hprepares with
  | insert hstate hwrite => exact hstate ▸ prepareInsert_writes hwrite
  | delete hstate hwrite =>
      obtain ⟨mapping, hmapping, htype, hwrites, _⟩ := prepareDelete_writes hwrite
      exact ⟨mapping, hmapping, htype, hstate ▸ hwrites⟩
  | update hstate hwrite =>
      obtain ⟨mapping, hmapping, htype, hwrites, _⟩ := prepareUpdate_writes hwrite
      exact ⟨mapping, hmapping, htype, hstate ▸ hwrites⟩

section Compositional

variable {P : ∀ {α : Type}, Task (Option Entity) α → Prop}

theorem compositional_execute (hP : Task.IsCompositional P) (hassigns : write.assignsKey = false)
    (hsent : P (Task.request (write.request channel) write.failure)) :
    P (Task.execute channel write) := by
  have hrequest : write.request channel = .execute channel write.statement := by
    rw [PreparedWrite.request, hassigns]
    rfl
  rw [hrequest] at hsent
  exact hP.bind hsent fun _ => hP.quiet (Task.isQuiet_pure ())

/-- What holds of the writes prepared for a member, and of asking, holds of writing it. -/
theorem compositional_writeMember (hP : Task.IsCompositional P)
    (hasks : P (Task.checkCancelled : Task (Option Entity) Unit))
    (hsent : ∀ write, change.Prepares registry dialect snapshot options write →
      P (Task.request (write.request channel) write.failure)) :
    P (Task.writeMember registry dialect channel snapshot options change) := by
  rw [Task.writeMember]
  split
  case h_1 hstate =>
    refine hP.bind hasks fun _ => ?_
    refine hP.bind (hP.quiet (isQuiet_currentGraph change)) fun root => ?_
    refine hP.ofResult_bind fun prepared hwrite => ?_
    obtain ⟨linked, write⟩ := prepared
    refine hP.bind (hP.quiet (Task.isQuiet_setState _)) fun _ => ?_
    have hinsert := hsent write (.insert hstate hwrite)
    dsimp only
    split
    case isTrue hassigns =>
      have hrequest : write.request channel = .insert channel write.statement := if_pos hassigns
      rw [hrequest] at hinsert
      refine hP.bind hinsert fun assigned => hP.quiet ?_
      exact (Task.isQuiet_ofResult _).bind fun saved => (Task.isQuiet_setState _).bind
        fun _ => Task.isQuiet_pure true
    case isFalse hassigns =>
      exact hP.bind (compositional_execute hP (Bool.eq_false_iff.2 hassigns) hinsert)
        fun _ => hP.quiet (Task.isQuiet_pure true)
  case h_2 hstate =>
    refine hP.bind hasks fun _ => ?_
    refine hP.bind (hP.quiet Task.isQuiet_state) fun current => ?_
    refine hP.ofResult_bind fun write hwrite => ?_
    obtain ⟨_, _, _, _, hassigns⟩ := prepareDelete_writes hwrite
    exact hP.bind (compositional_execute hP hassigns (hsent write (.delete hstate hwrite)))
      fun _ => hP.quiet (Task.isQuiet_pure true)
  case h_3 hstate =>
    refine hP.bind hasks fun _ => ?_
    refine hP.bind (hP.quiet (isQuiet_currentGraph change)) fun root => ?_
    refine hP.ofResult_bind fun prepared hwrite => ?_
    obtain ⟨linked, write?⟩ := prepared
    refine hP.bind (hP.quiet (Task.isQuiet_setState _)) fun _ => ?_
    cases write? with
    | none => exact hP.quiet (Task.isQuiet_pure false)
    | some write =>
        obtain ⟨_, _, _, _, hassigns⟩ := prepareUpdate_writes hwrite
        exact hP.bind (compositional_execute hP hassigns (hsent write (.update hstate hwrite)))
          fun _ => hP.quiet (Task.isQuiet_pure true)
  case h_4 => exact hP.quiet (Task.isQuiet_pure false)

theorem compositional_countEach {σ β : Type} {P : ∀ {α : Type}, Task σ α → Prop}
    (hP : Task.IsCompositional P) {task : β → Task σ Bool} {items : List β}
    (htask : ∀ item ∈ items, P (task item)) : P (Task.countEach task items) := by
  induction items with
  | nil => exact hP.quiet (Task.isQuiet_pure 0)
  | cons item rest ih =>
      rw [List.forall_mem_cons] at htask
      exact hP.bind htask.1 fun issued => hP.bind (ih htask.2) fun others =>
        hP.quiet (Task.isQuiet_pure _)

/-- What holds of asking and of every write that may be prepared holds of writing the changes. -/
theorem compositional_persist (hP : Task.IsCompositional P)
    (hasks : P (Task.checkCancelled : Task (Option Entity) Unit))
    (hsent : ∀ change ∈ changes, ∀ write,
      change.Prepares registry dialect snapshot options write →
        P (Task.request (write.request channel) write.failure)) :
    P (persist registry dialect channel changes snapshot options) := by
  have hwrite : ∀ state, ∀ change ∈ changesIn changes state,
      P (Task.writeMember registry dialect channel snapshot options change) :=
    fun _ change hchange => compositional_writeMember hP hasks
      (hsent change (mem_changesIn.1 hchange).1)
  rw [persist_eq]
  refine hP.bind (compositional_countEach hP fun change hchange => ?_) fun inserted =>
    hP.bind (compositional_countEach hP fun change hchange => ?_) fun deleted =>
      hP.bind (compositional_countEach hP fun change hchange => ?_) fun updated =>
        hP.quiet (Task.isQuiet_pure _)
  · exact hwrite .added change (mem_byDepth.1 hchange)
  · exact hwrite .removed change (mem_byDepthDescending.1 hchange)
  · exact hwrite .modified change hchange

end Compositional

end Persist

end AggregateSync
