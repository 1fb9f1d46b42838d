import AggregateSync.Proofs.Session.Batching
import AggregateSync.Proofs.Session.Loading

/-!
# One level after the other

A load takes one level after the other, each with as many queries as the registry has targets
at most.  Its budget only says how many levels it may take: if it has not run out of them,
further levels change nothing.
-/

namespace AggregateSync

namespace Execution

variable {σ ω α β : Type} {first : Execution σ ω α} {next next' : α → σ → ω → Execution σ ω β}

theorem andThen_ok (a : α) (state : σ) (world : ω) (asked : List Request) :
    (⟨.ok a, state, world, asked⟩ : Execution σ ω α).andThen next =
      { next a state world with requests := asked ++ (next a state world).requests } := rfl

theorem andThen_congr (hnext : ∀ a, first.outcome = .ok a →
    next a first.state first.world = next' a first.state first.world) :
    first.andThen next = first.andThen next' := by
  obtain ⟨outcome, state, world, requests⟩ := first
  cases outcome with
  | ok a => rw [andThen_ok, andThen_ok, hnext a rfl]
  | _ => rfl

/-- A chain succeeds with a result if the second part does after the first. -/
theorem outcome_andThen_eq_ok {b : β} : (first.andThen next).outcome = .ok b ↔
    ∃ a, first.outcome = .ok a ∧ (next a first.state first.world).outcome = .ok b := by
  obtain ⟨outcome, state, world, requests⟩ := first
  cases outcome <;> simp [andThen]

theorem requests_andThen_ok {a : α} (hfirst : first.outcome = .ok a) :
    (first.andThen next).requests =
      first.requests ++ (next a first.state first.world).requests := by
  rw [andThen, hfirst]

theorem length_requests_andThen_le (most further : Nat) (hfirst : first.requests.length ≤ most)
    (hnext : ∀ a state world, first.outcome = .ok a →
      (next a state world).requests.length ≤ further) :
    (first.andThen next).requests.length ≤ most + further := by
  obtain ⟨outcome, state, world, requests⟩ := first
  cases outcome with
  | ok a =>
      rw [andThen_ok, List.length_append]
      exact Nat.add_le_add hfirst (hnext a state world rfl)
  | _ => exact Nat.le_add_right_of_le hfirst

end Execution

/-- The numbers of the nodes that were added. -/
def nextLevel (nodes all : List LoadedNode) : List Nat :=
  List.range' nodes.length (all.length - nodes.length)

namespace Task

/-- Loads the level below a level: gives all nodes, unless nothing is left to ask for. -/
def loadLevel (registry : Registry) (dialect : Dialect) (nodes : List LoadedNode)
    (level : List Nat) : Task Unit (Option (List LoadedNode)) := do
  let parents ← ofResult (numbered nodes level)
  let fetches ← ofResult (planLevel registry dialect parents)
  if fetches.isEmpty then return none
  return some (← loadFetches registry fetches nodes)

/-- Loads the levels below a level, the next of which has been loaded. -/
def loadFurther (registry : Registry) (dialect : Dialect) (budget : Nat)
    (nodes : List LoadedNode) :
    Option (List LoadedNode) → Task Unit (Option (List LoadedNode × List (List Nat)))
  | none => pure (some (nodes, []))
  | some all => do
    match ← loadBelow registry dialect budget all (nextLevel nodes all) with
    | none => return none
    | some (complete, below) => return some (complete, nextLevel nodes all :: below)

variable {ω : Type} {environment : Environment ω} {registry : Registry} {dialect : Dialect}
  {nodes : List LoadedNode} {level : List Nat} {world : ω}

/-- Below an empty level there is nothing. -/
theorem loadBelow_nil (budget : Nat) :
    loadBelow registry dialect budget nodes [] = pure (some (nodes, [])) := by
  cases budget <;> rfl

theorem ne_nil_of_loadBelow {budget : Nat}
    (hnone : ((loadBelow registry dialect budget nodes level).execution environment ()
      world).outcome = .ok none) : level ≠ [] := by
  rintro rfl
  rw [loadBelow_nil, execution_pure] at hnone
  cases hnone

theorem loadBelow_zero (hlevel : level ≠ []) :
    loadBelow registry dialect 0 nodes level = pure none := by
  rw [loadBelow, if_neg (mt List.isEmpty_iff.1 hlevel)]

/-- Below any other level, one level is loaded after the other. -/
theorem execution_loadBelow_succ (budget : Nat) (hlevel : level ≠ []) :
    (loadBelow registry dialect (budget + 1) nodes level).execution environment () world =
      (loadLevel registry dialect nodes level >>=
        loadFurther registry dialect budget nodes).execution environment () world := by
  rw [loadBelow, if_neg (mt List.isEmpty_iff.1 hlevel), execution_ofResult_bind,
    execution_bind _ (loadLevel _ _ _ _), loadLevel, execution_ofResult_bind]
  cases numbered nodes level with
  | error e => rfl
  | ok parents =>
      dsimp only
      rw [execution_ofResult_bind, execution_ofResult_bind]
      cases planLevel registry dialect parents with
      | error e => rfl
      | ok fetches =>
          dsimp only
          split
          · rfl
          rw [execution_bind, execution_bind]
          cases (loadFetches registry fetches nodes).execution environment () world with
          | mk outcome state between asked =>
              cases outcome with
              | ok all =>
                  rw [Execution.andThen_ok, Execution.andThen_ok, execution_pure, List.append_nil,
                    Execution.andThen_ok]
                  rfl
              | _ => rfl

/-- A level is loaded by planning, asking and routing. -/
theorem loadLevel_eq_ok {all : List LoadedNode}
    (hall : ((loadLevel registry dialect nodes level).execution environment () world).outcome =
      .ok (some all)) :
    let execution := (loadLevel registry dialect nodes level).execution environment () world
    ∃ (parents : Numbered) (here : List Delivery), numbered nodes level = .ok parents ∧
      planLevel registry dialect parents = .ok (here.map Delivery.fetch) ∧
      (∀ delivery ∈ here,
        routeRows registry delivery.fetch delivery.rows = .ok delivery.nodes) ∧
      all = nodes ++ here.flatMap Delivery.nodes ∧
      Answers environment world (here.map Delivery.exchange) execution.world ∧
      execution.requests = queries (here.map Delivery.exchange) := by
  intro execution
  have hexecution : execution = ⟨.ok (some all), (), execution.world, execution.requests⟩ := by
    rw [← hall]
  obtain ⟨parents, hparents, hrest⟩ := execution_ofResult_bind_eq_ok.1 hexecution
  obtain ⟨fetches, hplan, hrest⟩ := execution_ofResult_bind_eq_ok.1 hrest
  split at hrest
  case isTrue => cases hrest
  case isFalse =>
    obtain ⟨loaded, _, _, asked, others, hloaded, hlast, hrequests⟩ :=
      execution_bind_eq_ok.1 hrest
    rw [execution_pure] at hlast
    obtain ⟨houtcome, -, hworld, rfl⟩ := Execution.mk.inj hlast
    obtain rfl := Option.some.inj (Outcome.ok.inj houtcome)
    obtain ⟨here, rfl, hrouted, rfl, hanswers, rfl⟩ := loadFetches_eq_ok hloaded
    rw [List.append_nil] at hrequests
    exact ⟨parents, here, hparents, hplan, hrouted, rfl, hworld ▸ hanswers, hrequests⟩

/-- Levels run out below a level that has been loaded if they do below the next. -/
theorem loadFurther_eq_none {budget : Nat} {all : List LoadedNode} :
    ((loadFurther registry dialect budget nodes (some all)).execution environment ()
        world).outcome = .ok none ↔
      ((loadBelow registry dialect budget all (nextLevel nodes all)).execution environment ()
        world).outcome = .ok none := by
  rw [loadFurther, execution_bind, Execution.outcome_andThen_eq_ok]
  constructor
  · rintro ⟨below?, hbelow, hlast⟩
    cases below? with
    | none => exact hbelow
    | some below => cases hlast
  · exact fun hbelow => ⟨none, hbelow, rfl⟩

/-- Nothing is asked but what the levels below ask. -/
theorem requests_loadFurther (budget : Nat) (all : List LoadedNode) :
    ((loadFurther registry dialect budget nodes (some all)).execution environment ()
        world).requests =
      ((loadBelow registry dialect budget all (nextLevel nodes all)).execution environment ()
        world).requests := by
  rw [loadFurther, execution_bind]
  cases (loadBelow registry dialect budget all (nextLevel nodes all)).execution environment ()
      world with
  | mk outcome state after asked =>
      cases outcome with
      | ok below? => cases below? <;> simp [Execution.andThen_ok, execution_pure]
      | _ => rfl

/-- Where the levels do not run out, one more changes nothing. -/
theorem execution_loadBelow_more {budget : Nat}
    (hends : ((loadBelow registry dialect budget nodes level).execution environment ()
      world).outcome ≠ .ok none) :
    (loadBelow registry dialect (budget + 1) nodes level).execution environment () world =
      (loadBelow registry dialect budget nodes level).execution environment () world := by
  by_cases hlevel : level = []
  · rw [hlevel, loadBelow_nil, loadBelow_nil]
  induction budget generalizing nodes level world with
  | zero => exact absurd (by rw [loadBelow_zero hlevel, execution_pure]) hends
  | succ budget ih =>
      rw [execution_loadBelow_succ _ hlevel, execution_bind] at hends ⊢
      rw [execution_loadBelow_succ _ hlevel, execution_bind]
      refine Execution.andThen_congr fun all? hall => ?_
      cases all? with
      | none => rfl
      | some all =>
          have hbelow := fun hnone => hends (Execution.outcome_andThen_eq_ok.2
            ⟨some all, hall, loadFurther_eq_none.2 hnone⟩)
          rw [loadFurther, loadFurther, execution_bind, execution_bind]
          by_cases hnext : nextLevel nodes all = []
          · rw [hnext, loadBelow_nil, loadBelow_nil]
          · rw [ih hbelow hnext]

theorem length_requests_loadFetches (fetches : List Fetch) (nodes : List LoadedNode) (world : ω) :
    ((loadFetches registry fetches nodes).execution environment () world).requests.length ≤
      fetches.length := by
  induction fetches generalizing nodes world with
  | nil => exact le_rfl
  | cons fetch rest ih =>
      rw [loadFetches, execution_bind, List.length_cons, Nat.add_comm]
      refine Execution.length_requests_andThen_le 1 _ le_rfl fun rows _ between _ => ?_
      rw [execution_ofResult_bind]
      split
      · exact ih _ between
      · exact Nat.zero_le _

/-- A level takes as many queries as the registry has targets at most. -/
theorem length_requests_loadLevel (nodes : List LoadedNode) (level : List Nat) (world : ω) :
    ((loadLevel registry dialect nodes level).execution environment () world).requests.length ≤
      registry.targetCount := by
  rw [loadLevel, execution_ofResult_bind]
  split
  case h_2 => exact Nat.zero_le _
  rw [execution_ofResult_bind]
  split
  case h_2 => exact Nat.zero_le _
  case h_1 fetches hplan =>
    split
    · exact Nat.zero_le _
    rw [execution_bind]
    exact Execution.length_requests_andThen_le _ 0
      ((length_requests_loadFetches _ _ _).trans (length_le_of_planLevel hplan))
      fun _ _ _ _ => le_rfl

/-- The queries below a level are bounded by the number of levels. -/
theorem length_requests_loadBelow (budget : Nat) (nodes : List LoadedNode) (level : List Nat)
    (world : ω) :
    ((loadBelow registry dialect budget nodes level).execution environment ()
      world).requests.length ≤ budget * registry.targetCount := by
  by_cases hlevel : level = []
  · rw [hlevel, loadBelow_nil]
    exact Nat.zero_le _
  induction budget generalizing nodes level world with
  | zero =>
      rw [loadBelow_zero hlevel]
      exact Nat.zero_le _
  | succ budget ih =>
      rw [execution_loadBelow_succ _ hlevel, execution_bind, Nat.succ_mul, Nat.add_comm]
      refine Execution.length_requests_andThen_le _ _ (length_requests_loadLevel _ _ _)
        fun all? _ between _ => ?_
      cases all? with
      | none => exact Nat.zero_le _
      | some all =>
          rw [requests_loadFurther]
          by_cases hnext : nextLevel nodes all = []
          · rw [hnext, loadBelow_nil]
            exact Nat.zero_le _
          · exact ih _ _ between hnext

/-! ## Whole loads -/

/-- Loads the roots. -/
def loadRoots (registry : Registry) (dialect : Dialect) (root : EntityType)
    (constraints : Constraints) : Task Unit (List Entity) := do
  let mapping ← ofResult (registry.mappingById root.id)
  let rows ← queryRows mapping.type ((rootQuery mapping constraints).build dialect)
  ofResult (rows.mapM mapping.hydrate)

variable {root : EntityType} {constraints : Constraints}

/-- A load with children takes the roots, the levels below them, and the assembly. -/
theorem execution_load (budget : Nat) :
    (load registry dialect budget root constraints true).execution environment () world =
      ((loadRoots registry dialect root constraints).execution environment () world).andThen
        fun roots _ between =>
          ((loadBelow registry dialect budget (roots.map LoadedNode.root)
            (List.range roots.length)).execution environment () between).andThen
              fun loaded _ later =>
                (assembleLoaded registry (List.range roots.length) loaded).execution environment ()
                  later := by
  rw [load, loadRoots, execution_ofResult_bind, execution_ofResult_bind]
  cases registry.mappingById root.id with
  | error e => rfl
  | ok mapping =>
      dsimp only
      rw [execution_bind, execution_bind]
      cases (queryRows mapping.type ((rootQuery mapping constraints).build dialect)).execution
          environment () world with
      | mk outcome state between asked =>
          cases outcome with
          | ok rows =>
              rw [Execution.andThen_ok, Execution.andThen_ok, execution_ofResult_bind,
                execution_ofResult]
              cases rows.mapM mapping.hydrate with
              | error e => rfl
              | ok roots =>
                  simp only [if_true, execution_bind, Outcome.ofResult, Execution.andThen_ok,
                    List.append_nil]
                  rfl
          | _ => rfl

theorem loadRoots_eq_ok {roots : List Entity}
    (hroots : ((loadRoots registry dialect root constraints).execution environment ()
      world).outcome = .ok roots) :
    let execution := (loadRoots registry dialect root constraints).execution environment () world
    ∃ mapping rows, registry.find? root.id = some mapping ∧
      rows.mapM mapping.hydrate = .ok roots ∧
      environment.answer (.query .connection ((rootQuery mapping constraints).build dialect))
        world = (.ok rows, execution.world) ∧
      execution.requests =
        [.query .connection ((rootQuery mapping constraints).build dialect)] := by
  intro execution
  have hexecution : execution = ⟨.ok roots, (), execution.world, execution.requests⟩ := by
    rw [← hroots]
  obtain ⟨mapping, hmapping, hrest⟩ := execution_ofResult_bind_eq_ok.1 hexecution
  obtain ⟨rows, _, between, asked, others, hrows, hread, hrequests⟩ :=
    execution_bind_eq_ok.1 hrest
  obtain ⟨hanswer, rfl⟩ := queryRows_eq_ok hrows
  rw [execution_ofResult] at hread
  obtain ⟨houtcome, -, hworld, rfl⟩ := Execution.mk.inj hread
  refine ⟨mapping, rows, Registry.mappingById_eq_ok.1 hmapping, ?_, hworld ▸ hanswer, hrequests⟩
  cases hhydrated : rows.mapM mapping.hydrate with
  | error e =>
      rw [hhydrated] at houtcome
      cases houtcome
  | ok found =>
      rw [hhydrated] at houtcome
      rw [Outcome.ok.inj houtcome]

theorem length_requests_loadRoots (world : ω) :
    ((loadRoots registry dialect root constraints).execution environment ()
      world).requests.length ≤ 1 := by
  rw [loadRoots, execution_ofResult_bind]
  split
  · rw [execution_bind]
    exact Execution.length_requests_andThen_le 1 0 le_rfl fun _ _ _ _ => le_rfl
  · exact Nat.zero_le _

/-- What was loaded is assembled without a request. -/
theorem requests_assembleLoaded (registry : Registry) (level : List Nat)
    (loaded : Option (List LoadedNode × List (List Nat))) (world : ω) :
    ((assembleLoaded registry level loaded).execution environment () world).requests = [] := by
  obtain _ | ⟨all, below⟩ := loaded
  · rfl
  · rw [assembleLoaded, execution_ofResult_bind]
    split <;> rfl

theorem assembleLoaded_eq_none {level : List Nat}
    {loaded : Option (List LoadedNode × List (List Nat))} :
    ((assembleLoaded registry level loaded).execution environment () world).outcome = .ok none ↔
      loaded = none := by
  obtain _ | ⟨all, below⟩ := loaded
  · exact ⟨fun _ => rfl, fun _ => rfl⟩
  · rw [assembleLoaded, execution_ofResult_bind]
    cases assemble registry all (level :: below) <;> simp [execution_pure]

/-- A load runs out of levels if it does below its roots. -/
theorem load_eq_none {budget : Nat} :
    ((load registry dialect budget root constraints true).execution environment ()
        world).outcome = .ok none ↔
      let first := (loadRoots registry dialect root constraints).execution environment () world
      ∃ roots, first.outcome = .ok roots ∧
        ((loadBelow registry dialect budget (roots.map LoadedNode.root)
          (List.range roots.length)).execution environment () first.world).outcome = .ok none := by
  rw [execution_load, Execution.outcome_andThen_eq_ok]
  refine exists_congr fun roots => and_congr_right fun _ => ?_
  rw [Execution.outcome_andThen_eq_ok]
  constructor
  · rintro ⟨loaded, hloaded, hlast⟩
    rw [hloaded, assembleLoaded_eq_none.1 hlast]
  · exact fun hnone => ⟨none, hnone, rfl⟩

/-- A load asks for the roots and for what is below them. -/
theorem requests_load {budget : Nat} {roots : List Entity}
    (hroots : ((loadRoots registry dialect root constraints).execution environment ()
      world).outcome = .ok roots) :
    let first := (loadRoots registry dialect root constraints).execution environment () world
    ((load registry dialect budget root constraints true).execution environment ()
        world).requests =
      first.requests ++ ((loadBelow registry dialect budget (roots.map LoadedNode.root)
        (List.range roots.length)).execution environment () first.world).requests := by
  rw [execution_load, Execution.requests_andThen_ok hroots]
  refine congrArg _ ?_
  cases (loadBelow registry dialect budget (roots.map LoadedNode.root)
      (List.range roots.length)).execution environment () _ with
  | mk outcome _ later others =>
      cases outcome with
      | ok loaded => rw [Execution.andThen_ok, requests_assembleLoaded, List.append_nil]
      | _ => rfl

/-- Where the levels of a load do not run out, further ones change nothing. -/
theorem execution_load_of_le {budget more : Nat} (hmore : budget ≤ more)
    (hends : ((load registry dialect budget root constraints true).execution environment ()
      world).outcome ≠ .ok none) :
    (load registry dialect more root constraints true).execution environment () world =
      (load registry dialect budget root constraints true).execution environment () world := by
  induction more, hmore using Nat.le_induction with
  | base => rfl
  | succ more _ ih =>
      rw [← ih] at hends ⊢
      rw [execution_load, execution_load]
      refine Execution.andThen_congr fun roots hroots => ?_
      rw [execution_loadBelow_more]
      exact fun hnone => hends (load_eq_none.2 ⟨roots, hroots, hnone⟩)

/-- The queries of a load are bounded by the number of its levels. -/
theorem length_requests_load (budget : Nat) (world : ω) :
    ((load registry dialect budget root constraints true).execution environment ()
      world).requests.length ≤ 1 + budget * registry.targetCount := by
  rw [execution_load]
  refine Execution.length_requests_andThen_le 1 _ (length_requests_loadRoots world)
    fun roots _ between _ => ?_
  refine Execution.length_requests_andThen_le _ 0 (length_requests_loadBelow _ _ _ _)
    fun loaded _ later _ => ?_
  rw [requests_assembleLoaded]
  exact le_rfl

end Task

end AggregateSync
