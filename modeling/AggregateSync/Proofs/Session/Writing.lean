import AggregateSync.Proofs.Session.Statements
import AggregateSync.Proofs.Session.Schedule

/-!
# Writing one member

A write is prepared from the graphs alone and then sent as one request, so a turn of
writing either makes no request or makes the prepared one.  Each of the three kinds of
writes has one equation here that says what comes of it in every environment.
-/

namespace AggregateSync

namespace Task

variable {ω : Type} {environment : Environment ω} {registry : Registry} {dialect : Dialect}
  {channel : Channel} {snapshot : Option Entity} {options : PersistOptions} {change : Change}

/-- What comes of sending a prepared statement from a state. -/
def sending (environment : Environment ω) (channel : Channel) (write : PreparedWrite)
    (state : Option Entity) (world : ω) : Execution (Option Entity) ω Bool :=
  let answer := environment.answer (.execute channel write.statement) world
  ⟨(answer.1.mapError write.failure).map fun _ => true, state, answer.2,
    [.execute channel write.statement]⟩

/-- What comes of sending a prepared INSERT whose answer is the key of the new row. -/
def sendingInsert (environment : Environment ω) (registry : Registry) (channel : Channel)
    (change : Change) (write : PreparedWrite) (root : Entity) (world : ω) :
    Execution (Option Entity) ω Bool :=
  let answer := environment.answer (.insert channel write.statement) world
  match answer.1.mapError write.failure with
  | .ok assigned =>
    match writeBack registry change assigned root with
    | .ok saved => ⟨.ok true, some saved, answer.2, [.insert channel write.statement]⟩
    | .error e => ⟨.err e, some root, answer.2, [.insert channel write.statement]⟩
  | .err e => ⟨.err e, some root, answer.2, [.insert channel write.statement]⟩
  | .cancelled reason =>
    ⟨.cancelled reason, some root, answer.2, [.insert channel write.statement]⟩
  | .panicked detail =>
    ⟨.panicked detail, some root, answer.2, [.insert channel write.statement]⟩

theorem execution_execute_bind (write : PreparedWrite) (state : Option Entity) (world : ω) :
    (execute channel write >>= fun _ => pure true).execution environment state world =
      sending environment channel write state world := by
  rw [execution_bind, execute, execution_bind, execution_request, sending]
  generalize environment.answer (.execute channel write.statement) world = answer
  obtain ⟨outcome, after⟩ := answer
  cases outcome <;>
    simp [Execution.andThen, Outcome.mapError, Outcome.map, Outcome.andThen, execution_pure]

theorem execution_deleteMember (current : Option Entity) (world : ω) :
    (deleteMember registry dialect channel snapshot options change).execution environment
        current world =
      match environment.cancelled world with
      | some reason => ⟨.cancelled reason, current, world, []⟩
      | none =>
        match prepareDelete registry dialect snapshot current options.onDelete change with
        | .error e => ⟨.err e, current, world, []⟩
        | .ok write => sending environment channel write current world := by
  rw [deleteMember, execution_checkCancelled_bind]
  cases environment.cancelled world with
  | some reason => rfl
  | none =>
      simp only [execution_state_bind, execution_ofResult_bind]
      cases prepareDelete registry dialect snapshot current options.onDelete change with
      | error e => rfl
      | ok write => exact execution_execute_bind write current world

theorem execution_currentGraph_bind {α : Type} (next : Entity → Task (Option Entity) α)
    (root : Entity) (world : ω) :
    (currentGraph change >>= next).execution environment (some root) world =
      (next root).execution environment (some root) world := by
  have hgraph : (currentGraph change).execution environment (some root) world =
      ⟨.ok root, some root, world, []⟩ := by
    rw [currentGraph, execution_state_bind, execution_pure]
  rw [execution_bind, hgraph]
  simp [Execution.andThen]

theorem execution_updateMember (root : Entity) (world : ω) :
    (updateMember registry dialect channel snapshot options change).execution environment
        (some root) world =
      match environment.cancelled world with
      | some reason => ⟨.cancelled reason, some root, world, []⟩
      | none =>
        match prepareUpdate registry dialect snapshot options.onUpdate change root with
        | .error e => ⟨.err e, some root, world, []⟩
        | .ok (linked, none) => ⟨.ok false, some linked, world, []⟩
        | .ok (linked, some write) =>
          sending environment channel write (some linked) world := by
  rw [updateMember, execution_checkCancelled_bind]
  cases environment.cancelled world with
  | some reason => rfl
  | none =>
      simp only [execution_currentGraph_bind, execution_ofResult_bind]
      cases prepareUpdate registry dialect snapshot options.onUpdate change root with
      | error e => rfl
      | ok prepared =>
          obtain ⟨linked, write?⟩ := prepared
          simp only [execution_setState_bind]
          cases write? with
          | none => rfl
          | some write => exact execution_execute_bind write (some linked) world

theorem execution_insertMember (root : Entity) (world : ω) :
    (insertMember registry dialect channel snapshot change).execution environment
        (some root) world =
      match environment.cancelled world with
      | some reason => ⟨.cancelled reason, some root, world, []⟩
      | none =>
        match prepareInsert registry dialect snapshot change root with
        | .error e => ⟨.err e, some root, world, []⟩
        | .ok (linked, write) =>
          if write.assignsKey then
            sendingInsert environment registry channel change write linked world
          else sending environment channel write (some linked) world := by
  rw [insertMember, execution_checkCancelled_bind]
  cases environment.cancelled world with
  | some reason => rfl
  | none =>
      simp only [execution_currentGraph_bind, execution_ofResult_bind]
      cases prepareInsert registry dialect snapshot change root with
      | error e => rfl
      | ok prepared =>
          obtain ⟨linked, write⟩ := prepared
          simp only [execution_setState_bind]
          cases hkey : write.assignsKey with
          | false => exact execution_execute_bind write (some linked) world
          | true =>
              rw [if_pos rfl, if_pos rfl, execution_bind, execution_request, sendingInsert]
              generalize environment.answer (.insert channel write.statement) world = answer
              obtain ⟨outcome, after⟩ := answer
              cases outcome with
              | ok assigned =>
                  simp only [Outcome.mapError, Execution.andThen, execution_ofResult_bind]
                  cases writeBack registry change assigned linked with
                  | error e => rfl
                  | ok saved => rfl
              | _ => rfl

end Task

/-- A key that the database assigned is written into the member that stands in the
graph. -/
theorem writeBack_eq_ok {registry : Registry} {change : Change} {root e : Entity}
    {mapping : ClassMapping} {address : Address}
    (hstands : change.StandsIn registry root mapping e address) {assigned : Int}
    {after : Entity} :
    writeBack registry change assigned root = .ok after ↔
      match mapping.generatedKey? with
      | none => after = root
      | some key => ∃ shown,
        key.field.type.read (.bigInt (Int64.ofInt assigned)) = .ok shown ∧
          after = root.putAt address (e.write key.field shown) := by
  rw [writeBack, hstands.mappingById, Result.ok_bind]
  cases mapping.generatedKey? with
  | none => simp [pure, Except.pure, eq_comm]
  | some key =>
      simp only [hstands.locate, Result.ok_bind, Result.bind_eq_ok, Result.pure_eq_ok,
        ClassMapping.set_eq_ok hstands.same]
      constructor
      · rintro ⟨saved, ⟨shown, hread, rfl⟩, rfl⟩
        exact ⟨shown, hread, rfl⟩
      · rintro ⟨shown, hread, rfl⟩
        exact ⟨_, ⟨shown, hread, rfl⟩, rfl⟩

/-! ## Turns that succeed -/

section Success

variable {ω : Type} {environment : Environment ω} {registry : Registry} {dialect : Dialect}
  {channel : Channel} {snapshot current : Option Entity} {options : PersistOptions}
  {change : Change} {root e : Entity} {mapping : ClassMapping} {address : Address}
  {world later : ω} {after : Option Entity} {issued : Bool} {requests : List Request}

theorem Task.sending_eq_ok {write : PreparedWrite} {state : Option Entity}
    (hok : Task.sending environment channel write state world =
      ⟨.ok issued, after, later, requests⟩) :
    (∃ count, environment.answer (.execute channel write.statement) world =
        (.ok count, later)) ∧
      issued = true ∧ after = state ∧ requests = [.execute channel write.statement] := by
  rw [Task.sending] at hok
  cases hanswer : environment.answer (.execute channel write.statement) world with
  | mk outcome between =>
      simp only [hanswer] at hok
      cases outcome with
      | ok count =>
          cases hok
          exact ⟨⟨count, rfl⟩, rfl, rfl, rfl⟩
      | _ => cases hok

theorem Task.sendingInsert_eq_ok {write : PreparedWrite} {linked : Entity}
    (hok : Task.sendingInsert environment registry channel change write linked world =
      ⟨.ok issued, after, later, requests⟩) :
    ∃ assigned saved, environment.answer (.insert channel write.statement) world =
        (.ok assigned, later) ∧
      writeBack registry change assigned linked = .ok saved ∧
      issued = true ∧ after = some saved ∧
      requests = [.insert channel write.statement] := by
  rw [Task.sendingInsert] at hok
  cases hanswer : environment.answer (.insert channel write.statement) world with
  | mk outcome between =>
      simp only [hanswer] at hok
      cases outcome with
      | ok assigned =>
          simp only [Outcome.mapError] at hok
          cases hsaved : writeBack registry change assigned linked with
          | error e =>
              rw [hsaved] at hok
              cases hok
          | ok saved =>
              rw [hsaved] at hok
              cases hok
              exact ⟨assigned, saved, rfl, hsaved, rfl, rfl, rfl⟩
      | _ => cases hok

/-- A member of the current graph is written only if there is a current graph. -/
theorem Task.exists_root_of_succeeds {next : Entity → Task (Option Entity) Bool}
    (hsucceeds : ((Task.checkCancelled >>= fun _ => Task.currentGraph change >>= next).execution
      environment current world).succeeds = true) :
    ∃ root, current = some root := by
  cases current with
  | some root => exact ⟨root, rfl⟩
  | none =>
      rw [Task.execution_checkCancelled_bind] at hsucceeds
      cases hpoll : environment.cancelled world with
      | none =>
          rw [hpoll, Task.currentGraph] at hsucceeds
          cases hsucceeds
      | some reason =>
          rw [hpoll] at hsucceeds
          cases hsucceeds

theorem Task.execution_deleteMember_eq_ok
    (hok : (Task.deleteMember registry dialect channel snapshot options change).execution
      environment current world = ⟨.ok issued, after, later, requests⟩) :
    environment.cancelled world = none ∧ issued = true ∧ after = current ∧
      ∃ write, prepareDelete registry dialect snapshot current options.onDelete change =
          .ok write ∧ requests = [.execute channel write.statement] ∧
        ∃ count, environment.answer (.execute channel write.statement) world =
          (.ok count, later) := by
  rw [Task.execution_deleteMember] at hok
  cases hpoll : environment.cancelled world with
  | some reason =>
      rw [hpoll] at hok
      cases hok
  | none =>
      rw [hpoll] at hok
      cases hprepare : prepareDelete registry dialect snapshot current options.onDelete
          change with
      | error e =>
          rw [hprepare] at hok
          cases hok
      | ok write =>
          rw [hprepare] at hok
          obtain ⟨hanswer, hissued, hafter, hrequests⟩ := Task.sending_eq_ok hok
          exact ⟨rfl, hissued, hafter, write, rfl, hrequests, hanswer⟩

theorem Task.execution_updateMember_eq_ok
    (hok : (Task.updateMember registry dialect channel snapshot options change).execution
      environment (some root) world = ⟨.ok issued, after, later, requests⟩) :
    environment.cancelled world = none ∧
      ∃ linked write?, prepareUpdate registry dialect snapshot options.onUpdate change root =
          .ok (linked, write?) ∧ after = some linked ∧ issued = write?.isSome ∧
        match write? with
        | none => requests = [] ∧ later = world
        | some write => requests = [.execute channel write.statement] ∧
          ∃ count, environment.answer (.execute channel write.statement) world =
            (.ok count, later) := by
  rw [Task.execution_updateMember] at hok
  cases hpoll : environment.cancelled world with
  | some reason =>
      rw [hpoll] at hok
      cases hok
  | none =>
      rw [hpoll] at hok
      cases hprepare : prepareUpdate registry dialect snapshot options.onUpdate change root with
      | error e =>
          rw [hprepare] at hok
          cases hok
      | ok prepared =>
          obtain ⟨linked, write?⟩ := prepared
          rw [hprepare] at hok
          refine ⟨rfl, linked, write?, rfl, ?_⟩
          cases write? with
          | none =>
              cases hok
              exact ⟨rfl, rfl, rfl, rfl⟩
          | some write =>
              obtain ⟨hanswer, hissued, hafter, hrequests⟩ := Task.sending_eq_ok hok
              exact ⟨hafter, hissued, hrequests, hanswer⟩

theorem Task.execution_insertMember_eq_ok
    (hok : (Task.insertMember registry dialect channel snapshot change).execution
      environment (some root) world = ⟨.ok issued, after, later, requests⟩) :
    environment.cancelled world = none ∧ issued = true ∧
      ∃ linked write, prepareInsert registry dialect snapshot change root =
          .ok (linked, write) ∧
        if write.assignsKey then
          requests = [.insert channel write.statement] ∧ ∃ assigned saved,
            environment.answer (.insert channel write.statement) world =
              (.ok assigned, later) ∧
            writeBack registry change assigned linked = .ok saved ∧ after = some saved
        else requests = [.execute channel write.statement] ∧ after = some linked ∧
          ∃ count, environment.answer (.execute channel write.statement) world =
            (.ok count, later) := by
  rw [Task.execution_insertMember] at hok
  cases hpoll : environment.cancelled world with
  | some reason =>
      rw [hpoll] at hok
      cases hok
  | none =>
      rw [hpoll] at hok
      cases hprepare : prepareInsert registry dialect snapshot change root with
      | error e =>
          rw [hprepare] at hok
          cases hok
      | ok prepared =>
          obtain ⟨linked, write⟩ := prepared
          rw [hprepare] at hok
          cases hassigns : write.assignsKey with
          | true =>
              simp only [hassigns, if_true] at hok
              obtain ⟨assigned, saved, hanswer, hsaved, hissued, hafter, hrequests⟩ :=
                Task.sendingInsert_eq_ok hok
              refine ⟨rfl, hissued, linked, write, rfl, ?_⟩
              rw [if_pos hassigns]
              exact ⟨hrequests, assigned, saved, hanswer, hsaved, hafter⟩
          | false =>
              simp only [hassigns, Bool.false_eq_true, if_false] at hok
              obtain ⟨hanswer, hissued, hafter, hrequests⟩ := Task.sending_eq_ok hok
              refine ⟨rfl, hissued, linked, write, rfl, ?_⟩
              rw [if_neg (by rw [hassigns]; exact Bool.false_ne_true)]
              exact ⟨hrequests, hafter, hanswer⟩

theorem deleteMember_eq_ok (hstands : change.StandsIn registry root mapping e address)
    (hok : (Task.deleteMember registry dialect channel (some root) options change).execution
      environment current world = ⟨.ok issued, after, later, requests⟩) :
    ∃ link, parentLink registry change (some root) current options.onDelete = .ok link ∧
      after = current ∧ issued = true ∧
      let statement := (memberDelete mapping e link.foreignKey link.subset).build dialect
      requests = [.execute channel statement] ∧
        ∃ count, environment.answer (.execute channel statement) world =
          (.ok count, later) := by
  obtain ⟨_, hissued, hafter, write, hprepare, hrequests, hanswer⟩ :=
    Task.execution_deleteMember_eq_ok hok
  obtain ⟨link, hlink, rfl⟩ := (prepareDelete_eq_ok hstands).1 hprepare
  exact ⟨link, hlink, hafter, hissued, hrequests, hanswer⟩

theorem updateMember_eq_ok (hstands : change.StandsIn registry root mapping e address)
    (hok : (Task.updateMember registry dialect channel snapshot options change).execution
      environment (some root) world = ⟨.ok issued, after, later, requests⟩) :
    ∃ link shown extra,
      parentLink registry change snapshot (some root) options.onUpdate = .ok link ∧
      TakesForeignKey mapping e link.foreignKey shown extra ∧
      after = some (root.putAt address shown) ∧
      let update := memberUpdate mapping shown extra link.subset
      issued = !update.isEmpty ∧
        if update.isEmpty then requests = [] ∧ later = world
        else requests = [.execute channel (update.build dialect)] ∧
          ∃ count, environment.answer (.execute channel (update.build dialect)) world =
            (.ok count, later) := by
  obtain ⟨_, linked, write?, hprepare, hafter, hissued, hsent⟩ :=
    Task.execution_updateMember_eq_ok hok
  obtain ⟨link, shown, extra, hlink, htakes, rfl, rfl⟩ :=
    (prepareUpdate_eq_ok hstands).1 hprepare
  refine ⟨link, shown, extra, hlink, htakes, hafter, ?_⟩
  cases hempty : (memberUpdate mapping shown extra link.subset).isEmpty with
  | true =>
      simp only [hempty, if_true] at hissued hsent ⊢
      exact ⟨hissued, hsent⟩
  | false =>
      simp only [hempty, Bool.false_eq_true, if_false] at hissued hsent ⊢
      exact ⟨hissued, hsent⟩

theorem insertMember_eq_ok (hstands : change.StandsIn registry root mapping e address)
    (hok : (Task.insertMember registry dialect channel snapshot change).execution
      environment (some root) world = ⟨.ok issued, after, later, requests⟩) :
    ∃ link shown extra,
      parentLink registry change snapshot (some root) true = .ok link ∧
      TakesForeignKey mapping e link.foreignKey shown extra ∧ issued = true ∧
      let statement := (memberInsert mapping shown extra link.subset).build dialect
      if mapping.keys.any (ClassMapping.awaits shown) then
        requests = [.insert channel statement] ∧ ∃ assigned saved,
          environment.answer (.insert channel statement) world = (.ok assigned, later) ∧
          writeBack registry change assigned (root.putAt address shown) = .ok saved ∧
          after = some saved
      else requests = [.execute channel statement] ∧
        after = some (root.putAt address shown) ∧
        ∃ count, environment.answer (.execute channel statement) world =
          (.ok count, later) := by
  obtain ⟨_, hissued, linked, write, hprepare, hsent⟩ := Task.execution_insertMember_eq_ok hok
  obtain ⟨link, shown, extra, hlink, htakes, rfl, rfl⟩ :=
    (prepareInsert_eq_ok hstands).1 hprepare
  exact ⟨link, shown, extra, hlink, htakes, hissued, hsent⟩

end Success

end AggregateSync
