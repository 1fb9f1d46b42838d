import AggregateSync.Proofs.Connection.Execution
import AggregateSync.Session.Persist
import Mathlib.Data.List.Forall2

/-!
# Loops turn by turn

In a loop over a list each item has its turn until a turn fails.  `turns` lists the
turns that are reached, each with the state and the environment that it met and with
what came of it.  What a turn meets is what the turns before it left behind, and an
invariant is carried from turn to turn by `afterTurns_invariant`.
-/

namespace AggregateSync

/-- The turn of one item of a loop: what it met and what came of it. -/
structure Turn (σ ω β : Type) where
  item : β
  state : σ
  world : ω
  execution : Execution σ ω Bool

namespace Turn

variable {σ ω β : Type}

/-- The requests of the turn. -/
def requests (turn : Turn σ ω β) : List Request := turn.execution.requests

/-- Did the turn succeed and make its request? -/
def issued (turn : Turn σ ω β) : Bool :=
  match turn.execution.outcome with
  | .ok issued => issued
  | _ => false

end Turn

namespace Task

variable {σ ω α β : Type} (environment : Environment ω) (task : β → Task σ Bool)

/-- The turns of a loop that are reached. -/
def turns : List β → σ → ω → List (Turn σ ω β)
  | [], _, _ => []
  | item :: rest, state, world =>
    let execution := (task item).execution environment state world
    ⟨item, state, world, execution⟩ ::
      match execution.outcome with
      | .ok _ => turns rest execution.state execution.world
      | _ => []

/-- What a loop leaves behind if all its turns succeed. -/
def afterTurns : List β → σ → ω → Option (σ × ω)
  | [], state, world => some (state, world)
  | item :: rest, state, world =>
    let execution := (task item).execution environment state world
    match execution.outcome with
    | .ok _ => afterTurns rest execution.state execution.world
    | _ => none

variable {environment} {task}

theorem afterTurns_cons_ok {item : β} {rest : List β} {state middle : σ} {world between : ω}
    {issued : Bool} {requests : List Request}
    (hitem : (task item).execution environment state world =
      ⟨.ok issued, middle, between, requests⟩) :
    afterTurns environment task (item :: rest) state world =
      afterTurns environment task rest middle between := by
  rw [afterTurns, hitem]

/-- A loop makes the requests of its turns. -/
theorem countEach_requests (items : List β) (state : σ) (world : ω) :
    ((countEach task items).execution environment state world).requests =
      (turns environment task items state world).flatMap Turn.requests := by
  induction items generalizing state world with
  | nil => rfl
  | cons item rest ih =>
      rw [countEach, execution_bind, turns]
      obtain ⟨outcome, middle, between, requests⟩ :=
        (task item).execution environment state world
      cases outcome with
      | ok issued =>
          simp only [Execution.andThen, execution_bind, List.flatMap_cons, Turn.requests]
          congr 1
          have hrest := ih middle between
          generalize (countEach task rest).execution environment middle between = last
            at hrest ⊢
          obtain ⟨outcome, after, later, others⟩ := last
          cases outcome <;> simpa [Execution.andThen, execution_pure] using hrest
      | _ => simp [Execution.andThen, Turn.requests]

/-- A loop succeeds exactly if all its turns do, and then counts the requests made. -/
theorem countEach_eq_ok_iff {items : List β} {state after : σ} {world later : ω}
    {count : Nat} {requests : List Request} :
    (countEach task items).execution environment state world =
        ⟨.ok count, after, later, requests⟩ ↔
      afterTurns environment task items state world = some (after, later) ∧
        count = ((turns environment task items state world).filter Turn.issued).length ∧
        requests = (turns environment task items state world).flatMap Turn.requests := by
  induction items generalizing state world count requests with
  | nil =>
      simp only [countEach, execution_pure, turns, afterTurns, Execution.mk.injEq,
        Outcome.ok.injEq, Option.some.injEq, Prod.mk.injEq, List.filter_nil,
        List.length_nil, List.flatMap_nil]
      constructor
      · rintro ⟨rfl, rfl, rfl, rfl⟩
        exact ⟨⟨rfl, rfl⟩, rfl, rfl⟩
      · rintro ⟨⟨rfl, rfl⟩, rfl, rfl⟩
        exact ⟨rfl, rfl, rfl, rfl⟩
  | cons item rest ih =>
      rw [countEach, execution_bind_eq_ok, turns, afterTurns]
      cases hitem : (task item).execution environment state world with
      | mk outcome middle between asked =>
          cases outcome with
          | ok issued =>
              simp only [List.filter_cons, List.flatMap_cons, Turn.requests]
              constructor
              · rintro ⟨_, _, _, _, others, ⟨⟩, hrest, rfl⟩
                obtain ⟨tally, _, _, first, last, hcount, hlast, rfl⟩ :=
                  execution_bind_eq_ok.1 hrest
                rw [execution_pure] at hlast
                cases hlast
                obtain ⟨hafter, rfl, rfl⟩ := ih.1 hcount
                refine ⟨hafter, ?_, by rw [List.append_nil]⟩
                cases issued <;> simp [Turn.issued, Nat.add_comm]
              · rintro ⟨hafter, hcount, rfl⟩
                refine ⟨issued, middle, between, asked, _, rfl, ?_, rfl⟩
                rw [execution_bind_eq_ok]
                refine ⟨_, after, later, _, [], ih.2 ⟨hafter, rfl, rfl⟩, ?_,
                  (List.append_nil _).symm⟩
                rw [execution_pure, hcount]
                cases issued <;> simp [Turn.issued, Nat.add_comm]
          | _ => simp

theorem turns_append (items others : List β) (state : σ) (world : ω) :
    turns environment task (items ++ others) state world =
      turns environment task items state world ++
        match afterTurns environment task items state world with
        | some (after, later) => turns environment task others after later
        | none => [] := by
  induction items generalizing state world with
  | nil => rfl
  | cons item rest ih =>
      rw [List.cons_append, turns, turns, afterTurns]
      obtain ⟨outcome, middle, between, requests⟩ :=
        (task item).execution environment state world
      cases outcome <;> simp [ih]

theorem afterTurns_append (items others : List β) (state : σ) (world : ω) :
    afterTurns environment task (items ++ others) state world =
      (afterTurns environment task items state world).bind fun (after, later) =>
        afterTurns environment task others after later := by
  induction items generalizing state world with
  | nil => rfl
  | cons item rest ih =>
      rw [List.cons_append, afterTurns, afterTurns]
      obtain ⟨outcome, middle, between, requests⟩ :=
        (task item).execution environment state world
      cases outcome <;> simp [ih]

theorem countEach_congr {task' : β → Task σ Bool} {items : List β}
    (hsame : ∀ item ∈ items, task item = task' item) :
    countEach task items = countEach task' items := by
  induction items with
  | nil => rfl
  | cons item rest ih =>
      rw [countEach, countEach, hsame item List.mem_cons_self,
        ih fun item hitem => hsame item (List.mem_cons_of_mem _ hitem)]

/-- A loop and what makes the requests of a further loop make those of one loop. -/
theorem requests_countEach_bind {next : Nat → Task σ α} {items others : List β}
    (hnext : ∀ count state world, ((next count).execution environment state world).requests =
      (turns environment task others state world).flatMap Turn.requests)
    (state : σ) (world : ω) :
    ((countEach task items >>= next).execution environment state world).requests =
      (turns environment task (items ++ others) state world).flatMap Turn.requests := by
  rw [execution_bind, turns_append, List.flatMap_append, ← countEach_requests]
  cases hloop : (countEach task items).execution environment state world with
  | mk outcome middle between requests =>
      cases outcome with
      | ok count =>
          have hafter := (countEach_eq_ok_iff.1 hloop).1
          rw [hafter]
          simp only [Execution.andThen, hnext]
      | _ =>
          cases hafter : afterTurns environment task items state world with
          | none => simp [Execution.andThen]
          | some last =>
              -- a loop whose turns all succeed does not fail
              have hok := countEach_eq_ok_iff.2 ⟨hafter, rfl, rfl⟩
              rw [hloop] at hok
              cases hok

/-- A loop followed by what succeeds only after a further loop succeeds only after one
loop over both. -/
theorem afterTurns_of_countEach_bind {next : Nat → Task σ α} {items others : List β}
    (hnext : ∀ count state world a after later requests,
      (next count).execution environment state world = ⟨.ok a, after, later, requests⟩ →
        afterTurns environment task others state world = some (after, later))
    {state after : σ} {world later : ω} {a : α} {requests : List Request}
    (hok : (countEach task items >>= next).execution environment state world =
      ⟨.ok a, after, later, requests⟩) :
    afterTurns environment task (items ++ others) state world = some (after, later) := by
  obtain ⟨count, middle, between, asked, rest, hloop, hrest, _⟩ := execution_bind_eq_ok.1 hok
  rw [afterTurns_append, (countEach_eq_ok_iff.1 hloop).1, Option.bind_some]
  exact hnext _ _ _ _ _ _ _ hrest

/-- What is true at the start and kept by every turn that succeeds is true at the end. -/
theorem afterTurns_invariant {P : List β → σ → ω → Prop} {items : List β}
    {state after : σ} {world later : ω} (hstart : P [] state world)
    (hstep : ∀ done item rest, items = done ++ item :: rest → ∀ before met, P done before met →
      ∀ issued middle between requests, (task item).execution environment before met =
        ⟨.ok issued, middle, between, requests⟩ → P (done ++ [item]) middle between)
    (hafter : afterTurns environment task items state world = some (after, later)) :
    P items after later := by
  induction items generalizing P state world with
  | nil =>
      cases hafter
      exact hstart
  | cons item rest ih =>
      rw [afterTurns] at hafter
      cases hitem : (task item).execution environment state world with
      | mk outcome middle between requests =>
          rw [hitem] at hafter
          cases outcome with
          | ok issued =>
              have hnext := hstep [] item rest rfl state world hstart issued middle between
                requests hitem
              apply @ih (fun done => P (item :: done)) middle between hnext _ hafter
              intro done other rest' hrest before met hbefore
              exact hstep (item :: done) other rest' (by rw [hrest, List.cons_append]) before
                met hbefore
          | _ => cases hafter

/-- What is true at the start and kept by every turn that is reached, also by one that fails,
is true of what a loop leaves behind. -/
theorem state_countEach {P : σ → Prop} {items : List β} {state : σ} {world : ω}
    (hstart : P state)
    (hturns : ∀ turn ∈ turns environment task items state world,
      P turn.state → P turn.execution.state) :
    P ((countEach task items).execution environment state world).state := by
  induction items generalizing state world with
  | nil => exact hstart
  | cons item rest ih =>
      rw [turns, List.forall_mem_cons] at hturns
      obtain ⟨hfirst, hlater⟩ := hturns
      replace hfirst := hfirst hstart
      rw [countEach, execution_bind]
      generalize (task item).execution environment state world = execution at hfirst hlater ⊢
      obtain ⟨outcome, middle, between, requests⟩ := execution
      cases outcome with
      | ok issued =>
          have hrest := ih hfirst hlater
          simp only [Execution.andThen, execution_bind]
          generalize (countEach task rest).execution environment middle between = last
            at hrest ⊢
          obtain ⟨outcome, after, later, others⟩ := last
          cases outcome <;> exact hrest
      | _ => exact hfirst

/-- The same of a loop that is followed by something for which it holds. -/
theorem state_countEach_bind {P : σ → Prop} {next : Nat → Task σ α} {items others : List β}
    (hnext : ∀ count state world, P state →
      (∀ turn ∈ turns environment task others state world,
        P turn.state → P turn.execution.state) →
      P ((next count).execution environment state world).state)
    {state : σ} {world : ω} (hstart : P state)
    (hturns : ∀ turn ∈ turns environment task (items ++ others) state world,
      P turn.state → P turn.execution.state) :
    P ((countEach task items >>= next).execution environment state world).state := by
  rw [turns_append, List.forall_mem_append] at hturns
  obtain ⟨hfirst, hlater⟩ := hturns
  have hloop := state_countEach hstart hfirst
  rw [execution_bind]
  cases hexecution : (countEach task items).execution environment state world with
  | mk outcome middle between requests =>
      rw [hexecution] at hloop
      cases outcome with
      | ok count =>
          rw [(countEach_eq_ok_iff.1 hexecution).1] at hlater
          exact hnext count middle between hloop hlater
      | _ => exact hloop

/-- A loop fails with what one of its turns fails with. -/
theorem countEach_failsWithin {allowed : Error → Prop} {items : List β} {state : σ} {world : ω}
    (hturns : ∀ turn ∈ turns environment task items state world,
      turn.execution.outcome.FailsWithin allowed) :
    ((countEach task items).execution environment state world).outcome.FailsWithin allowed := by
  induction items generalizing state world with
  | nil => exact Outcome.failsWithin_ok 0
  | cons item rest ih =>
      rw [turns, List.forall_mem_cons] at hturns
      obtain ⟨hfirst, hlater⟩ := hturns
      rw [countEach]
      refine bind_failsWithin hfirst fun issued middle between asked hitem => ?_
      rw [hitem] at hlater
      exact bind_failsWithin (ih hlater) fun others _ _ _ _ => Outcome.failsWithin_ok _

/-- The same of a loop that is followed by something that fails only where later turns do. -/
theorem countEach_bind_failsWithin {allowed : Error → Prop} {next : Nat → Task σ α}
    {items others : List β}
    (hnext : ∀ count state world,
      (∀ turn ∈ turns environment task others state world,
        turn.execution.outcome.FailsWithin allowed) →
      ((next count).execution environment state world).outcome.FailsWithin allowed)
    {state : σ} {world : ω}
    (hturns : ∀ turn ∈ turns environment task (items ++ others) state world,
      turn.execution.outcome.FailsWithin allowed) :
    ((countEach task items >>= next).execution environment state world).outcome.FailsWithin
      allowed := by
  rw [turns_append, List.forall_mem_append] at hturns
  obtain ⟨hfirst, hlater⟩ := hturns
  refine bind_failsWithin (countEach_failsWithin hfirst) fun count middle between asked hloop => ?_
  rw [(countEach_eq_ok_iff.1 hloop).1] at hlater
  exact hnext count middle between hlater

/-- A turn takes its item where the turns before it left off. -/
theorem afterTurns_take {items : List β} {state : σ} {world : ω} {i : Nat}
    {turn : Turn σ ω β} (hturn : (turns environment task items state world)[i]? = some turn) :
    items[i]? = some turn.item ∧
      afterTurns environment task (items.take i) state world =
        some (turn.state, turn.world) ∧
      turn.execution = (task turn.item).execution environment turn.state turn.world := by
  induction items generalizing i state world with
  | nil => simp [turns] at hturn
  | cons item rest ih =>
      rw [turns] at hturn
      cases i with
      | zero =>
          obtain rfl := Option.some.inj hturn
          exact ⟨rfl, rfl, rfl⟩
      | succ i =>
          cases hitem : (task item).execution environment state world with
          | mk outcome middle between requests =>
              rw [hitem] at hturn
              cases outcome with
              | ok issued =>
                  obtain ⟨hget, hbefore, hexecution⟩ := ih hturn
                  refine ⟨hget, ?_, hexecution⟩
                  rw [List.take_succ_cons, afterTurns_cons_ok hitem, hbefore]
              | _ => simp at hturn

/-- What follows a turn goes on from where the turn began. -/
theorem afterTurns_drop {items : List β} {state after : σ} {world later : ω} {i : Nat}
    {turn : Turn σ ω β} (hturn : (turns environment task items state world)[i]? = some turn)
    (hafter : afterTurns environment task items state world = some (after, later)) :
    afterTurns environment task (items.drop i) turn.state turn.world =
      some (after, later) := by
  rw [← List.take_append_drop i items, afterTurns_append, (afterTurns_take hturn).2.1,
    Option.bind_some] at hafter
  exact hafter

/-- What a loop leaves behind at a turn that succeeds. -/
theorem afterTurns_take_succ {items : List β} {state middle : σ} {world between : ω} {i : Nat}
    {turn : Turn σ ω β} (hturn : (turns environment task items state world)[i]? = some turn)
    {issued : Bool} {requests : List Request}
    (hexecution : turn.execution = ⟨.ok issued, middle, between, requests⟩) :
    afterTurns environment task (items.take (i + 1)) state world = some (middle, between) := by
  obtain ⟨hitem, hbefore, hrun⟩ := afterTurns_take hturn
  rw [List.take_add_one, hitem, Option.toList_some, afterTurns_append, hbefore,
    Option.bind_some]
  exact afterTurns_cons_ok (hrun.symm.trans hexecution)

/-- Between two turns a loop goes on from what the first left behind to what the second
met. -/
theorem afterTurns_between {items : List β} {state middle : σ} {world between : ω} {i j : Nat}
    {earlier turn : Turn σ ω β}
    (hearlier : (turns environment task items state world)[j]? = some earlier)
    {issued : Bool} {requests : List Request}
    (hexecution : earlier.execution = ⟨.ok issued, middle, between, requests⟩)
    (hturn : (turns environment task items state world)[i]? = some turn) (hj : j < i) :
    afterTurns environment task ((items.drop (j + 1)).take (i - (j + 1))) middle between =
      some (turn.state, turn.world) := by
  have htake : items.take i = items.take (j + 1) ++ (items.drop (j + 1)).take (i - (j + 1)) := by
    rw [← List.take_add, Nat.add_sub_cancel' hj]
  have hreached := (afterTurns_take hturn).2.1
  rwa [htake, afterTurns_append, afterTurns_take_succ hearlier hexecution,
    Option.bind_some] at hreached

/-- Behind a turn a loop goes on from what the turn left behind. -/
theorem afterTurns_behind {items : List β} {state middle after : σ} {world between later : ω}
    {i : Nat} {turn : Turn σ ω β}
    (hturn : (turns environment task items state world)[i]? = some turn)
    {issued : Bool} {requests : List Request}
    (hexecution : turn.execution = ⟨.ok issued, middle, between, requests⟩)
    (hafter : afterTurns environment task items state world = some (after, later)) :
    afterTurns environment task (items.drop (i + 1)) middle between = some (after, later) := by
  rwa [← List.take_append_drop (i + 1) items, afterTurns_append,
    afterTurns_take_succ hturn hexecution, Option.bind_some] at hafter

/-- A turn is reached only if all turns before it succeeded. -/
theorem exists_ok_of_reached {items : List β} {state : σ} {world : ω} {i j : Nat}
    {turn : Turn σ ω β} (hturn : (turns environment task items state world)[i]? = some turn)
    (hj : j < i) : ∃ earlier issued after later requests,
      (turns environment task items state world)[j]? = some earlier ∧
        earlier.execution = ⟨.ok issued, after, later, requests⟩ := by
  induction items generalizing i j state world with
  | nil => simp [turns] at hturn
  | cons item rest ih =>
      rw [turns] at hturn ⊢
      generalize (task item).execution environment state world = execution at hturn ⊢
      obtain ⟨outcome, middle, between, requests⟩ := execution
      cases i with
      | zero => exact absurd hj (Nat.not_lt_zero j)
      | succ i =>
          cases outcome with
          | ok issued =>
              cases j with
              | zero => exact ⟨_, issued, middle, between, requests, rfl, rfl⟩
              | succ j => exact ih hturn (Nat.lt_of_succ_lt_succ hj)
          | _ => simp at hturn

/-- Where the requests of some items are fixed beforehand, the turns of these items make the
first of them: a turn that asks nothing instead has failed, and is the last one. -/
theorem requests_turns_of_fixed {meets : β → Bool} {asked : β → List Request} {items : List β}
    (hturn : ∀ item ∈ items, meets item = true → ∀ state world,
      ((task item).execution environment state world).requests = asked item ∨
        ((task item).execution environment state world).requests = [] ∧
        ((task item).execution environment state world).succeeds = false)
    (state : σ) (world : ω) :
    ((turns environment task items state world).filter fun turn => meets turn.item).flatMap
      Turn.requests <+: (items.filter meets).flatMap asked := by
  induction items generalizing state world with
  | nil => exact List.prefix_rfl
  | cons item rest ih =>
      have hrest := ih fun item hitem => hturn item (List.mem_cons_of_mem _ hitem)
      have hfirst := fun hmeets => hturn item List.mem_cons_self hmeets state world
      rw [turns]
      generalize (task item).execution environment state world = execution at hfirst ⊢
      obtain ⟨outcome, middle, between, requests⟩ := execution
      cases hmeets : meets item with
      | false =>
          simp only [List.filter_cons, hmeets, Bool.false_eq_true, if_false]
          cases outcome with
          | ok issued => exact hrest middle between
          | _ => exact List.nil_prefix
      | true =>
          simp only [List.filter_cons, hmeets, if_true, List.flatMap_cons]
          rcases hfirst hmeets with hasked | ⟨hnone, hfails⟩
          · rw [Turn.requests, hasked, List.prefix_append_right_inj]
            cases outcome with
            | ok issued => exact hrest middle between
            | _ => exact List.nil_prefix
          · rw [Turn.requests, hnone]
            cases outcome with
            | ok issued => cases hfails
            | _ => exact List.nil_prefix

/-- The items whose turns are reached are the first ones. -/
theorem map_item_turns (items : List β) (state : σ) (world : ω) :
    (turns environment task items state world).map Turn.item =
      items.take (turns environment task items state world).length := by
  induction items generalizing state world with
  | nil => rfl
  | cons item rest ih =>
      rw [turns]
      obtain ⟨outcome, middle, between, requests⟩ :=
        (task item).execution environment state world
      cases outcome <;> simp [ih]

/-- Where a turn makes one request, and may leave it out only if it fails, the requests
of a loop belong to its first items, one to each. -/
theorem forall₂_requests {P : β → Request → Prop} {items : List β} {state : σ} {world : ω}
    (hturns : ∀ turn ∈ turns environment task items state world,
      (turn.requests = [] ∧ turn.execution.succeeds = false) ∨
        ∃ request, turn.requests = [request] ∧ P turn.item request) :
    let requests := (turns environment task items state world).flatMap Turn.requests
    List.Forall₂ P (items.take requests.length) requests := by
  induction items generalizing state world with
  | nil => exact .nil
  | cons item rest ih =>
      rw [turns] at hturns ⊢
      generalize (task item).execution environment state world = execution at hturns ⊢
      obtain ⟨outcome, middle, between, requests⟩ := execution
      rw [List.forall_mem_cons] at hturns
      obtain ⟨hfirst, hlater⟩ := hturns
      simp only [Turn.requests, List.flatMap_cons] at hfirst ⊢
      rcases hfirst with ⟨rfl, hfails⟩ | ⟨request, rfl, hrequest⟩
      · cases outcome with
        | ok issued => cases hfails
        | _ => exact .nil
      · rw [List.singleton_append, List.length_cons, List.take_succ_cons]
        cases outcome with
        | ok issued => exact .cons hrequest (ih hlater)
        | _ => exact .cons hrequest .nil

/-- A loop that succeeds gives every item its turn, and every turn succeeds. -/
theorem exists_ok_of_afterTurns {items : List β} {state after : σ} {world later : ω}
    (hafter : afterTurns environment task items state world = some (after, later)) {i : Nat}
    (hi : i < items.length) : ∃ turn issued middle between requests,
      (turns environment task items state world)[i]? = some turn ∧
        turn.execution = ⟨.ok issued, middle, between, requests⟩ := by
  induction items generalizing i state world with
  | nil => exact absurd hi (Nat.not_lt_zero i)
  | cons item rest ih =>
      rw [turns]
      rw [afterTurns] at hafter
      generalize (task item).execution environment state world = execution at hafter ⊢
      obtain ⟨outcome, middle, between, requests⟩ := execution
      cases outcome with
      | ok issued =>
          cases i with
          | zero => exact ⟨_, issued, middle, between, requests, rfl, rfl⟩
          | succ i => exact ih hafter (Nat.lt_of_succ_lt_succ hi)
      | _ => cases hafter

/-- A loop comes to its end exactly if all turns that it reaches succeed. -/
theorem afterTurns_isSome_iff {items : List β} {state : σ} {world : ω} :
    (afterTurns environment task items state world).isSome ↔
      ∀ turn ∈ turns environment task items state world, turn.execution.succeeds = true := by
  induction items generalizing state world with
  | nil => simp [turns, afterTurns]
  | cons item rest ih =>
      rw [turns, afterTurns, List.forall_mem_cons]
      generalize (task item).execution environment state world = execution
      obtain ⟨outcome, middle, between, requests⟩ := execution
      cases outcome with
      | ok issued => simp [Execution.succeeds, ih]
      | _ => simp [Execution.succeeds]

/-- A loop that comes to its end leaves the rest to what follows it. -/
theorem succeeds_countEach_bind {next : Nat → Task σ α} {items others : List β}
    (hnext : ∀ count state world, (afterTurns environment task others state world).isSome →
      ((next count).execution environment state world).succeeds = true)
    {state : σ} {world : ω}
    (hall : (afterTurns environment task (items ++ others) state world).isSome) :
    ((countEach task items >>= next).execution environment state world).succeeds = true := by
  rw [afterTurns_append] at hall
  cases hafter : afterTurns environment task items state world with
  | none =>
      rw [hafter] at hall
      cases hall
  | some last =>
      obtain ⟨middle, between⟩ := last
      rw [hafter, Option.bind_some] at hall
      have hloop := countEach_eq_ok_iff.2 ⟨hafter, rfl, rfl⟩
      obtain ⟨a, after, later, requests, hrest⟩ := Execution.succeeds_iff.1
        (hnext _ middle between hall)
      exact Execution.succeeds_iff.2 ⟨a, after, later, _,
        execution_bind_eq_ok.2 ⟨_, _, _, _, _, hloop, hrest, rfl⟩⟩

end Task

end AggregateSync
