import AggregateSync.Proofs.Session.Parts
import AggregateSync.Proofs.Session.Transaction
import AggregateSync.Proofs.Session.Writing

/-!
# What is committed

A transaction is committed exactly if every change was written to its end: prepared, sent,
answered and, if the database assigned a key, written back.  Whatever else happens, on any
connection, is rolled back and reported as it happened.
-/

namespace AggregateSync

/-- The request writes, on a channel. -/
inductive Request.WritesOn (channel : Channel) : Request → Prop
  | execute (statement : Statement) : WritesOn channel (.execute channel statement)
  | insert (statement : Statement) : WritesOn channel (.insert channel statement)

section Turn

variable {ω : Type} (environment : Environment ω) (registry : Registry) (dialect : Dialect)
  (channel : Channel) (snapshot : Option Entity) (options : PersistOptions)

/-- A turn is nothing but a request that was answered, and the graph it left. -/
def Turn.Sends (turn : Turn (Option Entity) ω Change) (request : Request)
    (answer : request.Answer) (after : Option Entity) : Prop :=
  ∃ later, environment.answer request turn.world = (.ok answer, later) ∧
    turn.execution = ⟨.ok true, after, later, [request]⟩

/-- The turn has written its member to the end: nobody had cancelled, the statement was
prepared from the graphs as they were, sent and answered, and a key that the database assigned
was written back.  An UPDATE with nothing to assign need not be sent. -/
inductive Turn.Completes (turn : Turn (Option Entity) ω Change) : Prop
  | insertAssigned {root linked saved : Entity} {write : PreparedWrite} {assigned : Int}
      (hstate : turn.item.state = .added) (hpoll : environment.cancelled turn.world = none)
      (hgraph : turn.state = some root)
      (hprepare : prepareInsert registry dialect snapshot turn.item root = .ok (linked, write))
      (hassigns : write.assignsKey = true)
      (hsaved : writeBack registry turn.item assigned linked = .ok saved)
      (hsends : turn.Sends environment (.insert channel write.statement) assigned (some saved))
  | insert {root linked : Entity} {write : PreparedWrite} {count : Nat}
      (hstate : turn.item.state = .added) (hpoll : environment.cancelled turn.world = none)
      (hgraph : turn.state = some root)
      (hprepare : prepareInsert registry dialect snapshot turn.item root = .ok (linked, write))
      (hassigns : write.assignsKey = false)
      (hsends : turn.Sends environment (.execute channel write.statement) count (some linked))
  | delete {write : PreparedWrite} {count : Nat}
      (hstate : turn.item.state = .removed) (hpoll : environment.cancelled turn.world = none)
      (hprepare : prepareDelete registry dialect snapshot turn.state options.onDelete turn.item =
        .ok write)
      (hsends : turn.Sends environment (.execute channel write.statement) count turn.state)
  | update {root linked : Entity} {write : PreparedWrite} {count : Nat}
      (hstate : turn.item.state = .modified) (hpoll : environment.cancelled turn.world = none)
      (hgraph : turn.state = some root)
      (hprepare : prepareUpdate registry dialect snapshot options.onUpdate turn.item root =
        .ok (linked, some write))
      (hsends : turn.Sends environment (.execute channel write.statement) count (some linked))
  | nothingToAssign {root linked : Entity}
      (hstate : turn.item.state = .modified) (hpoll : environment.cancelled turn.world = none)
      (hgraph : turn.state = some root)
      (hprepare : prepareUpdate registry dialect snapshot options.onUpdate turn.item root =
        .ok (linked, none))
      (hsilent : turn.execution = ⟨.ok false, some linked, turn.world, []⟩)

variable {environment registry dialect channel snapshot options}

theorem Turn.Completes.succeeds {turn : Turn (Option Entity) ω Change}
    (hcompletes : turn.Completes environment registry dialect channel snapshot options) :
    turn.execution.succeeds = true := by
  cases hcompletes with
  | insertAssigned _ _ _ _ _ _ hsends
  | insert _ _ _ _ _ hsends
  | delete _ _ _ hsends
  | update _ _ _ _ hsends =>
      obtain ⟨later, _, hexecution⟩ := hsends
      rw [hexecution]
      rfl
  | nothingToAssign _ _ _ _ hsilent =>
      rw [hsilent]
      rfl

/-- A turn of writing that succeeds has written its member to the end. -/
theorem Turn.completes_of_succeeds {turn : Turn (Option Entity) ω Change}
    (hstate : turn.item.state ≠ .unmodified)
    (hexecution : turn.execution = (Task.writeMember registry dialect channel snapshot options
      turn.item).execution environment turn.state turn.world)
    (hsucceeds : turn.execution.succeeds = true) :
    turn.Completes environment registry dialect channel snapshot options := by
  obtain ⟨change, current, world, execution⟩ := turn
  obtain ⟨issued, after, later, requests, rfl⟩ := Execution.succeeds_iff.1 hsucceeds
  replace hexecution := hexecution.symm
  dsimp only at hstate hexecution
  rw [Task.writeMember] at hexecution
  cases hkind : change.state with
  | unmodified => exact absurd hkind hstate
  | removed =>
      rw [hkind] at hexecution
      obtain ⟨hpoll, rfl, rfl, write, hprepare, rfl, count, hanswer⟩ :=
        Task.execution_deleteMember_eq_ok hexecution
      exact .delete hkind hpoll hprepare ⟨later, hanswer, rfl⟩
  | added =>
      rw [hkind] at hexecution
      obtain ⟨root, rfl⟩ := Task.exists_root_of_succeeds (congrArg Execution.succeeds hexecution)
      obtain ⟨hpoll, rfl, linked, write, hprepare, hsent⟩ :=
        Task.execution_insertMember_eq_ok hexecution
      cases hassigns : write.assignsKey with
      | true =>
          rw [if_pos hassigns] at hsent
          obtain ⟨rfl, assigned, saved, hanswer, hsaved, rfl⟩ := hsent
          exact .insertAssigned hkind hpoll rfl hprepare hassigns hsaved ⟨later, hanswer, rfl⟩
      | false =>
          rw [if_neg (by rw [hassigns]; exact Bool.false_ne_true)] at hsent
          obtain ⟨rfl, rfl, count, hanswer⟩ := hsent
          exact .insert hkind hpoll rfl hprepare hassigns ⟨later, hanswer, rfl⟩
  | modified =>
      rw [hkind] at hexecution
      obtain ⟨root, rfl⟩ := Task.exists_root_of_succeeds (congrArg Execution.succeeds hexecution)
      obtain ⟨hpoll, linked, write?, hprepare, rfl, rfl, hsent⟩ :=
        Task.execution_updateMember_eq_ok hexecution
      cases write? with
      | none =>
          obtain ⟨rfl, rfl⟩ := hsent
          exact .nothingToAssign hkind hpoll rfl hprepare rfl
      | some write =>
          obtain ⟨rfl, count, hanswer⟩ := hsent
          exact .update hkind hpoll rfl hprepare ⟨later, hanswer, rfl⟩

/-- Writing changes succeeds exactly if each change that is no agreement has a turn that
writes its member to the end. -/
theorem persist_succeeds_iff_completes {changes : List Change} (hnodup : changes.Nodup)
    {current : Option Entity} {world : ω} :
    ((persist registry dialect channel changes snapshot options).execution environment
        current world).succeeds = true ↔
      ∀ change ∈ changes, change.state ≠ .unmodified →
        ∃ turn ∈ writeTurns environment registry dialect channel changes snapshot options
          current world, turn.item = change ∧
            turn.Completes environment registry dialect channel snapshot options := by
  constructor
  · intro hsucceeds change hchange hstate
    obtain ⟨counts, after, later, requests, hok⟩ := Execution.succeeds_iff.1 hsucceeds
    obtain ⟨i, hi⟩ := List.mem_iff_getElem?.1 (mem_schedule.2 ⟨hchange, hstate⟩)
    obtain ⟨turn, issued, _, _, _, hturn, hturnOk⟩ := Task.exists_ok_of_afterTurns
      (afterTurns_of_persist hok) (List.getElem?_eq_some_iff.1 hi).1
    obtain ⟨hitem, _, hexecution⟩ := Task.afterTurns_take hturn
    obtain rfl : turn.item = change := Option.some.inj (hitem.symm.trans hi)
    refine ⟨turn, List.mem_of_getElem? hturn, rfl, ?_⟩
    apply Turn.completes_of_succeeds hstate hexecution
    rw [hturnOk]
    rfl
  · intro hcompletes
    rw [persist_succeeds_iff]
    intro turn hturn
    obtain ⟨i, hi⟩ := List.mem_iff_getElem?.1 hturn
    obtain ⟨hitem, _, _⟩ := Task.afterTurns_take hi
    obtain ⟨hchange, hstate⟩ := mem_schedule.1 (List.mem_of_getElem? hitem)
    obtain ⟨other, hother, hsame, hdone⟩ := hcompletes turn.item hchange hstate
    obtain ⟨j, hj⟩ := List.mem_iff_getElem?.1 hother
    obtain ⟨hotherItem, _, _⟩ := Task.afterTurns_take hj
    -- A change has one turn, so the one that was completed is the one at hand.
    rw [hsame] at hotherItem
    have hposition : i = j := (List.getElem?_inj (List.getElem?_eq_some_iff.1 hitem).1
      (nodup_schedule hnodup)).1 (hitem.trans hotherItem.symm)
    obtain rfl : turn = other := by
      rw [hposition, hj] at hi
      exact (Option.some.inj hi).symm
    exact hdone.succeeds

end Turn

/-! ## What writing asks -/

namespace Task

variable {registry : Registry} {dialect : Dialect} {channel : Channel}
  {snapshot : Option Entity} {options : PersistOptions}

/-- Writing changes asks for nothing but writes on its channel. -/
theorem persist_asksOnly (changes : List Change) :
    (persist registry dialect channel changes snapshot options).AsksOnly
      (Request.WritesOn channel) := by
  refine compositional_persist (isCompositional_asksOnly _) .checkCancelled
    fun change _ write _ => .request ?_ _
  rw [PreparedWrite.request]
  split
  · exact .insert _
  · exact .execute _

end Task

/-! ## Commit or rollback -/

/-- A synchronization asks nothing if the comparison fails, and nothing but to begin if that
fails.  Once it has begun, it sends every write to the transaction and then commits or rolls
back: it commits exactly if writing succeeded, which is if each change was written to its
end, and otherwise reports what stopped the writing, whatever becomes of the rollback. -/
theorem synchronize_brackets_writing {ω : Type} (environment : Environment ω)
    (registry : Registry) (dialect : Dialect) (config : SyncConfig)
    (snapshot current : Option Entity) (world : ω) :
    let run := (synchronize registry dialect config snapshot).execution environment current world
    match registry.compare snapshot current config.filter, environment.answer .begin world with
    | .error e, _ => run.outcome = .err e ∧ run.requests = []
    | .ok changes, (.ok (), begun) =>
      let writing := (persist registry dialect .transaction changes snapshot
        config.persistOptions).execution environment current begun
      (∃ last, Brackets environment writing run last) ∧
      (∀ request ∈ writing.requests, request.WritesOn .transaction) ∧
      (writing.succeeds = true ↔ ∀ change ∈ changes, change.state ≠ .unmodified →
        ∃ turn ∈ writeTurns environment registry dialect .transaction changes snapshot
          config.persistOptions current begun, turn.item = change ∧
            turn.Completes environment registry dialect .transaction snapshot
              config.persistOptions)
    | .ok _, (failure, _) => run.requests = [.begin] ∧ run.outcome.FailsAs failure := by
  intro run
  have hrun : run = _ := execution_synchronize environment registry dialect config snapshot
    current world
  cases hcompare : registry.compare snapshot current config.filter with
  | error e =>
      rw [hcompare] at hrun
      rw [hrun]
      exact ⟨rfl, rfl⟩
  | ok changes =>
      rw [hcompare] at hrun
      replace hrun : run = Execution.andThen _ _ := hrun
      rw [Task.execution_inTransaction] at hrun
      cases hbegin : environment.answer .begin world with
      | mk answer begun =>
          rw [hbegin] at hrun
          cases answer with
          | ok =>
              obtain ⟨before, after, hbefore, hafter, hdifference⟩ :=
                Registry.compare_eq_ok hcompare
              have hnodup : changes.Nodup := (hdifference.nodup_places
                (Registry.nodup_paths hbefore) (Registry.nodup_paths hafter)).of_map
              refine ⟨?_, Task.persist_asksOnly changes ω environment current begun,
                persist_succeeds_iff_completes hnodup⟩
              rw [hrun]
              exact Task.ending_brackets environment _ _
          | err e =>
              rw [hrun]
              exact ⟨rfl, .err e⟩
          | cancelled reason =>
              rw [hrun]
              exact ⟨rfl, .cancelled reason⟩
          | panicked detail =>
              rw [hrun]
              exact ⟨rfl, .panicked detail⟩

/-- A connection that refuses the second write and cannot even roll back. -/
def Shipping.refusing : Script :=
  { Shipping.quiet with
    writes := [⟨.ok none, none⟩, ⟨.err (.custom "refused"), none⟩]
    rollback := .panicked "lost" }

/-- A parcel is to be deleted after its item was, which fails, and so does the rollback: what
is reported is the refusal. -/
theorem refused_brackets_writing :
    ∃ writing : Execution (Option Entity) Script WriteCounts, ∃ last,
      Brackets Script.environment writing
        ((synchronize Shipping.registry .postgres .standard (some Shipping.packed)).execution
          Script.environment (some Shipping.emptied) Shipping.refusing) last ∧
      writing.succeeds = false ∧ writing.requests.length = 2 ∧ last = .rollback ∧
      ∀ request ∈ writing.requests, request.WritesOn .transaction := by
  obtain ⟨⟨last, hbrackets⟩, hwrites, _⟩ := synchronize_brackets_writing Script.environment
    Shipping.registry .postgres .standard (some Shipping.packed) (some Shipping.emptied)
    Shipping.refusing
  refine ⟨_, last, hbrackets, rfl, rfl, ?_, hwrites⟩
  rcases hbrackets.closes with hcommit | hrollback
  · cases hbrackets.commits.1 hcommit
  · exact hrollback

end AggregateSync
