import AggregateSync.Proofs.Session.Commit
import AggregateSync.Proofs.Session.Loading
import AggregateSync.Proofs.Session.WriteFaults

/-!
# What may go wrong after a registry was accepted

A registry checks every name that a relation uses.  So nothing that is asked of it later is in
vain: whatever the graphs, the constraints and the answers of a database are, an operation that
starts from mapped classes finds every mapping, key, property and member that it looks for.  It
can still fail, with what the database answers, with data that contradict the structure, with a
value that cannot be converted, or for want of a foreign key or of something to refer to; that a
relation does not fit it reports only where a relation holds a stranger.
-/

namespace AggregateSync

/-- Traversals, comparisons, writes, synchronizations and loads that start from mapped classes
fail only in foreseen ways, apart from what the executor says when a transaction is begun or
committed. -/
theorem faults_foreseen (registry : Registry) :
    (∀ root, registry.Knows root.type →
      Result.FailsWithin (Error.IsForeseen (registry.HoldsStranger root))
        (registry.traverse root)) ∧
    (∀ snapshot current, snapshot.isSome = true ∨ current.isSome = true →
      (∀ root, snapshot = some root ∨ current = some root → registry.Knows root.type) →
        (∀ filter, Result.FailsWithin
          (Error.IsForeseen (registry.EitherHoldsStranger snapshot current))
          (registry.compare snapshot current filter)) ∧
        ∀ (ω : Type) (environment : Environment ω) (dialect : Dialect) (world : ω),
          (∀ filter changes channel options,
            registry.compare snapshot current filter = .ok changes →
              ((persist registry dialect channel changes snapshot options).execution environment
                current world).outcome.FailsWithin (Error.IsForeseen False)) ∧
          ∀ config : SyncConfig,
            ((synchronize registry dialect config snapshot).execution environment current
              world).outcome.FailsWithin fun e =>
                e.IsForeseen (registry.EitherHoldsStranger snapshot current) ∨
                  environment.FailsTransaction e) ∧
    ∀ root, registry.Knows root →
      ∀ (ω : Type) (environment : Environment ω) (dialect : Dialect) (budget : Nat)
        (constraints : Constraints) (withChildren : Bool) (world : ω),
        ((load registry dialect budget root constraints withChildren).execution environment ()
          world).outcome.FailsWithin (Error.IsForeseen False) ∧
        ((loadGraph registry dialect budget root constraints withChildren).execution environment ()
          world).outcome.FailsWithin (Error.IsForeseen False) := by
  refine ⟨fun root => Registry.traverse_failsWithin, ?_, ?_⟩
  · intro snapshot current hgiven hknown
    refine ⟨fun filter => Registry.compare_failsWithin filter hgiven hknown,
      fun ω environment dialect world => ⟨?_, ?_⟩⟩
    · intro filter changes channel options hcompare
      exact persist_isForeseen hcompare world
    · intro config
      exact synchronize_failsWithin (Registry.compare_failsWithin config.filter hgiven hknown)
        world
  · intro root hknown ω environment dialect budget constraints withChildren world
    exact ⟨load_failsWithin hknown withChildren, loadGraph_failsWithin hknown withChildren⟩

/-- A database that refuses a DELETE stops a synchronization in a foreseen way: its own error,
internal as it is, is reported as that of the statement. -/
theorem refused_faults_foreseen :
    Shipping.registry.Knows Shipping.order ∧
    Result.FailsWithin (Error.IsForeseen (Shipping.registry.HoldsStranger Shipping.packed))
      (Shipping.registry.traverse Shipping.packed) ∧
    (∃ e, ((synchronize Shipping.registry .postgres .standard (some Shipping.packed)).execution
        Script.environment (some Shipping.emptied) Shipping.refusing).outcome = .err e ∧
      (e.IsForeseen (Shipping.registry.EitherHoldsStranger (some Shipping.packed)
        (some Shipping.emptied)) ∨ Script.environment.FailsTransaction e)) ∧
    ((loadGraph Shipping.registry .sqlite 4 Shipping.order .none true).execution
      Script.environment () Shipping.stocked).outcome.FailsWithin (Error.IsForeseen False) := by
  obtain ⟨htraverse, hgraphs, hload⟩ := faults_foreseen Shipping.registry
  have hknown : Shipping.registry.Knows Shipping.order := ⟨Shipping.orders, rfl⟩
  have hroots : ∀ root, some Shipping.packed = some root ∨ some Shipping.emptied = some root →
      Shipping.registry.Knows root.type := by
    rintro root (hroot | hroot) <;> obtain rfl := Option.some.inj hroot <;> exact hknown
  obtain ⟨_, hwrites⟩ :=
    hgraphs (some Shipping.packed) (some Shipping.emptied) (.inl rfl) hroots
  obtain ⟨_, hsynchronize⟩ := hwrites _ Script.environment .postgres Shipping.refusing
  exact ⟨hknown, htraverse _ hknown, ⟨_, rfl, hsynchronize .standard _ rfl⟩,
    (hload Shipping.order hknown _ Script.environment .sqlite 4 .none true Shipping.stocked).2⟩

end AggregateSync
