import AggregateSync.Proofs.Connection.FailStop
import AggregateSync.Proofs.Session.Parts

/-!
# The queries of a load

What a load asks next depends on the answers that it has: first come the roots, then level by
level the queries that were planned for the level above.  A load whose query fails has asked
exactly what comes next after the queries that were answered.
-/

namespace AggregateSync

/-- What a load asks for below a level, once some queries of this level and of those below it were
answered: the queries of each level come in the order in which they were planned, and a level
comes when all queries of the one above it were answered. -/
inductive AsksNext (registry : Registry) (dialect : Dialect) :
    List LoadedNode → List Nat → List Delivery → Fetch → Prop
  | here {nodes : List LoadedNode} {level : List Nat} {parents : Numbered}
      {deliveries : List Delivery} {fetch : Fetch} {rest : List Fetch}
      (hparents : numbered nodes level = .ok parents)
      (hplan : planLevel registry dialect parents =
        .ok (deliveries.map Delivery.fetch ++ fetch :: rest))
      (hrouted : ∀ delivery ∈ deliveries,
        routeRows registry delivery.fetch delivery.rows = .ok delivery.nodes) :
      AsksNext registry dialect nodes level deliveries fetch
  | further {nodes : List LoadedNode} {level : List Nat} {parents : Numbered}
      {deliveries deeper : List Delivery} {fetch : Fetch}
      (hparents : numbered nodes level = .ok parents)
      (hplan : planLevel registry dialect parents = .ok (deliveries.map Delivery.fetch))
      (hrouted : ∀ delivery ∈ deliveries,
        routeRows registry delivery.fetch delivery.rows = .ok delivery.nodes)
      (hbelow : AsksNext registry dialect (nodes ++ deliveries.flatMap Delivery.nodes)
        (List.range' nodes.length (deliveries.flatMap Delivery.nodes).length) deeper fetch) :
      AsksNext registry dialect nodes level (deliveries ++ deeper) fetch

/-- What a load asks for below a level once some queries were answered, with the class whose rows
this reads. -/
inductive ReadsBelow (registry : Registry) (dialect : Dialect) (nodes : List LoadedNode)
    (level : List Nat) : List (Statement × List Row) → EntityType → Statement → Prop
  | fetch {deliveries : List Delivery} {fetch : Fetch}
      (hnext : AsksNext registry dialect nodes level deliveries fetch) :
      ReadsBelow registry dialect nodes level (deliveries.map Delivery.exchange) fetch.child
        fetch.statement

/-- What a load asks for once some queries were answered, with the class whose rows this reads:
first for the roots, then for what comes next below them. -/
inductive ReadsNext (registry : Registry) (dialect : Dialect) (root : EntityType)
    (constraints : Constraints) : List (Statement × List Row) → EntityType → Statement → Prop
  | roots {mapping : ClassMapping} (hmapping : registry.find? root.id = some mapping) :
      ReadsNext registry dialect root constraints [] mapping.type
        ((rootQuery mapping constraints).build dialect)
  | children {mapping : ClassMapping} {rows : List Row} {roots : List Entity}
      {deliveries : List Delivery} {fetch : Fetch}
      (hmapping : registry.find? root.id = some mapping)
      (hroots : rows.mapM mapping.hydrate = .ok roots)
      (hnext : AsksNext registry dialect (roots.map LoadedNode.root) (List.range roots.length)
        deliveries fetch) :
      ReadsNext registry dialect root constraints
        (exchanges dialect mapping constraints rows deliveries) fetch.child fetch.statement

section Asked

variable {ω α β : Type} {environment : Environment ω} {registry : Registry} {dialect : Dialect}
  {asks others : List (Statement × List Row) → EntityType → Statement → Prop} {world between : ω}

/-- How queries end: all of them were answered, or the last one failed, and the outcome reports
this with the class that it reads after the earlier ones. -/
inductive AskedUntil (environment : Environment ω)
    (asks : List (Statement × List Row) → EntityType → Statement → Prop) (world : ω)
    (execution : Execution Unit ω α) : Prop
  | answered {earlier : List (Statement × List Row)} {later : ω}
      (hanswers : Answers environment world earlier later)
      (hrequests : execution.requests = queries earlier) :
      AskedUntil environment asks world execution
  | failed {earlier : List (Statement × List Row)} {later : ω} {type : EntityType}
      {statement : Statement} (hanswers : Answers environment world earlier later)
      (hasks : asks earlier type statement)
      (hrequests : execution.requests = queries earlier ++ [.query .connection statement])
      (hreported : (environment.answer (.query .connection statement) later).1.ReportedBy
        (fun source reported => reported =
          .statement statement.sql statement.params (some type.name) none source)
        execution.outcome) : AskedUntil environment asks world execution

namespace AskedUntil

theorem nothing {execution : Execution Unit ω α} (hrequests : execution.requests = []) :
    AskedUntil environment asks world execution :=
  .answered (.none world) hrequests

theorem mono {execution : Execution Unit ω α} (hmore : ∀ earlier type statement,
      asks earlier type statement → others earlier type statement)
    (hasked : AskedUntil environment asks world execution) :
    AskedUntil environment others world execution := by
  cases hasked with
  | answered hanswers hrequests => exact .answered hanswers hrequests
  | failed hanswers hasks hrequests hreported =>
      exact .failed hanswers (hmore _ _ _ hasks) hrequests hreported

/-- Queries that come after others which were answered. -/
theorem append {first : List (Statement × List Row)} {execution : Execution Unit ω α}
    (hfirst : Answers environment world first between)
    (hmore : ∀ earlier type statement,
      asks earlier type statement → others (first ++ earlier) type statement)
    (hasked : AskedUntil environment asks between execution) :
    AskedUntil environment others world
      { execution with requests := queries first ++ execution.requests } := by
  cases hasked with
  | answered hanswers hrequests =>
      refine .answered (hfirst.append hanswers) ?_
      simp only [hrequests, queries, List.map_append]
  | failed hanswers hasks hrequests hreported =>
      refine .failed (hfirst.append hanswers) (hmore _ _ _ hasks) ?_ hreported
      simp only [hrequests, queries, List.map_append, List.append_assoc]

/-- A task that does not succeed ends a chain as it ends itself. -/
theorem bind {first : Task Unit α} {next : α → Task Unit β}
    (hfirst : AskedUntil environment asks world (first.execution environment () world))
    (hok : ∀ a between requests,
      first.execution environment () world = ⟨.ok a, (), between, requests⟩ →
        AskedUntil environment asks world ((first >>= next).execution environment () world)) :
    AskedUntil environment asks world ((first >>= next).execution environment () world) := by
  cases hexecution : first.execution environment () world with
  | mk outcome state between requests =>
      cases outcome with
      | ok a => exact hok a between requests hexecution
      | _ =>
          rw [Task.execution_bind]
          rw [hexecution] at hfirst ⊢
          cases hfirst with
          | answered hanswers hrequests => exact .answered hanswers hrequests
          | failed hanswers hasks hrequests hreported =>
              refine .failed hanswers hasks hrequests ?_
              generalize (environment.answer _ _).1 = answer at hreported ⊢
              cases hreported
              first | exact .err ‹_› | constructor

/-- Queries are the same when nothing is asked for after them. -/
theorem bind_quiet {first : Task Unit α} {next : α → Task Unit β}
    (hnext : ∀ a, (next a).IsQuiet)
    (hfirst : AskedUntil environment asks world (first.execution environment () world)) :
    AskedUntil environment asks world ((first >>= next).execution environment () world) := by
  refine hfirst.bind fun a between requests hexecution => ?_
  have hquiet : ((next a).execution environment () between).requests = [] := by
    obtain ⟨result, hresult⟩ := hnext a ()
    rw [Task.execution, hresult]
    rfl
  rw [hexecution] at hfirst
  cases hfirst with
  | answered hanswers hrequests =>
      refine .answered hanswers ?_
      rw [Task.execution_bind, hexecution, Execution.andThen]
      simp only [hquiet, List.append_nil]
      exact hrequests
  | failed _ _ _ hreported =>
      generalize (environment.answer _ _).1 = answer at hreported
      cases hreported

end AskedUntil

/-- The queries of a level come in the order in which they were planned. -/
theorem askedUntil_loadFetches (fetches : List Fetch) (nodes : List LoadedNode) (world : ω) :
    AskedUntil environment (fun earlier type statement => ∃ deliveries fetch rest,
        fetches = List.map Delivery.fetch deliveries ++ fetch :: rest ∧
        (∀ delivery ∈ deliveries,
          routeRows registry delivery.fetch delivery.rows = .ok delivery.nodes) ∧
        earlier = deliveries.map Delivery.exchange ∧ type = Fetch.child fetch ∧
        statement = Fetch.statement fetch) world
      ((Task.loadFetches registry fetches nodes).execution environment () world) := by
  induction fetches generalizing nodes world with
  | nil => exact .nothing rfl
  | cons fetch rest ih =>
      rw [Task.loadFetches, Task.execution_bind, Task.queryRows, Task.execution_request]
      cases hanswer : environment.answer (.query .connection fetch.statement) world with
      | mk answer between =>
          cases answer with
          | ok rows =>
              have hfirst : Answers environment world [(fetch.statement, rows)] between :=
                .next hanswer (.none between)
              simp only [Outcome.mapError, Execution.andThen, Task.execution_ofResult_bind]
              cases hrouted : routeRows registry fetch rows with
              | error e => exact .answered hfirst rfl
              | ok routed =>
                  refine (ih (nodes ++ routed) between).append hfirst ?_
                  rintro _ _ _ ⟨deliveries, next, others, rfl, hdelivered, rfl, rfl, rfl⟩
                  exact ⟨⟨fetch, rows, routed⟩ :: deliveries, next, others, rfl,
                    List.forall_mem_cons.2 ⟨hrouted, hdelivered⟩, rfl, rfl, rfl⟩
          | _ =>
              refine .failed (.none world)
                ⟨[], fetch, rest, rfl, List.forall_mem_nil _, rfl, rfl, rfl⟩ rfl ?_
              rw [hanswer]
              constructor <;> rfl

/-- Below a level, the queries of each level come when those above it were answered. -/
theorem askedUntil_loadBelow (budget : Nat) (nodes : List LoadedNode) (level : List Nat)
    (world : ω) :
    AskedUntil environment (ReadsBelow registry dialect nodes level) world
      ((Task.loadBelow registry dialect budget nodes level).execution environment () world) := by
  induction budget generalizing nodes level world with
  | zero =>
      rw [Task.loadBelow]
      split <;> exact .nothing rfl
  | succ further ih =>
      rw [Task.loadBelow]
      split
      · exact .nothing rfl
      rw [Task.execution_ofResult_bind]
      cases hparents : numbered nodes level with
      | error e => exact .nothing rfl
      | ok parents =>
          dsimp only
          rw [Task.execution_ofResult_bind]
          cases hplan : planLevel registry dialect parents with
          | error e => exact .nothing rfl
          | ok fetches =>
              dsimp only
              split
              · exact .nothing rfl
              refine AskedUntil.bind ((askedUntil_loadFetches fetches nodes world).mono ?_)
                fun all between requests hall => ?_
              · rintro _ _ _ ⟨deliveries, fetch, rest, rfl, hrouted, rfl, rfl, rfl⟩
                exact .fetch (.here hparents hplan hrouted)
              · obtain ⟨here, rfl, hrouted, rfl, hanswers, rfl⟩ := Task.loadFetches_eq_ok hall
                rw [Task.execution_bind, hall]
                refine AskedUntil.append hanswers ?_ (AskedUntil.bind_quiet ?_ (ih _ _ between))
                · rintro _ _ _ ⟨hnext⟩
                  rw [List.length_append, Nat.add_sub_cancel_left] at hnext
                  rw [← List.map_append]
                  exact .fetch (.further hparents hplan hrouted hnext)
                · rintro (_ | below) <;> exact Task.isQuiet_pure _

/-- The first query of a load is for the roots, and the others come below them. -/
theorem askedUntil_load (budget : Nat) (root : EntityType) (constraints : Constraints)
    (withChildren : Bool) (world : ω) :
    AskedUntil environment (ReadsNext registry dialect root constraints) world
      ((load registry dialect budget root constraints withChildren).execution environment ()
        world) := by
  rw [load, Task.execution_ofResult_bind]
  cases hmapping : registry.mappingById root.id with
  | error e => exact .nothing rfl
  | ok mapping =>
      rw [Registry.mappingById_eq_ok] at hmapping
      dsimp only
      rw [Task.execution_bind, Task.queryRows, Task.execution_request]
      cases hanswer : environment.answer
        (.query .connection ((rootQuery mapping constraints).build dialect)) world with
      | mk answer between =>
          cases answer with
          | ok rows =>
              have hfirst : Answers environment world
                  [((rootQuery mapping constraints).build dialect, rows)] between :=
                .next hanswer (.none between)
              simp only [Outcome.mapError, Execution.andThen, Task.execution_ofResult_bind]
              cases hroots : rows.mapM mapping.hydrate with
              | error e => exact .answered hfirst rfl
              | ok roots =>
                  dsimp only
                  refine AskedUntil.append hfirst (?_ : ∀ earlier type statement,
                    ReadsBelow registry dialect (roots.map LoadedNode.root)
                      (List.range roots.length) earlier type statement → _) ?_
                  · rintro _ _ _ ⟨hnext⟩
                    exact .children hmapping hroots hnext
                  · cases withChildren with
                    | false =>
                        exact AskedUntil.bind_quiet (isQuiet_assembleLoaded registry _)
                          (.nothing rfl)
                    | true =>
                        exact AskedUntil.bind_quiet (isQuiet_assembleLoaded registry _)
                          (askedUntil_loadBelow budget _ _ between)
          | _ =>
              refine .failed (.none world) (.roots hmapping) rfl ?_
              rw [hanswer]
              constructor <;> rfl

/-- Steps that were answered with rows did not fail. -/
theorem Answers.answered {later : ω} {exchanges : List (Statement × List Row)}
    (hanswers : Answers environment world exchanges later) {k : Nat} {step : Step ω}
    (hstep : (environment.replay (queries exchanges) world)[k]? = some step)
    (hfails : ∀ a, (environment.answer step.request step.world).1 ≠ .ok a) : False := by
  induction hanswers generalizing k with
  | none => cases hstep
  | next hanswer _ ih =>
      cases k with
      | zero =>
          obtain rfl := Option.some.inj hstep
          exact hfails _ (congrArg Prod.fst hanswer)
      | succ k =>
          rw [queries, List.map_cons, Environment.replay, hanswer, List.getElem?_cons_succ] at hstep
          exact ih hstep

theorem AsksNext.readsClass {root : EntityType} {constraints : Constraints}
    {nodes : List LoadedNode} {level : List Nat} {deliveries : List Delivery} {fetch : Fetch}
    (hnext : AsksNext registry dialect nodes level deliveries fetch) :
    ReadsClass registry dialect root constraints fetch.child fetch.statement := by
  induction hnext with
  | here _ hplan _ =>
      exact readsClass_of_planLevel hplan _ (List.mem_append_right _ List.mem_cons_self)
  | further _ _ _ _ ih => exact ih

/-- What comes next in a load reads rows of a class that is demanded. -/
theorem ReadsNext.readsClass {root : EntityType} {constraints : Constraints}
    {earlier : List (Statement × List Row)} {type : EntityType} {statement : Statement}
    (hnext : ReadsNext registry dialect root constraints earlier type statement) :
    ReadsClass registry dialect root constraints type statement := by
  cases hnext with
  | roots hmapping => exact .roots hmapping
  | children _ _ hnext => exact hnext.readsClass

end Asked

end AggregateSync
