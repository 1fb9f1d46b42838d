import AggregateSync.Proofs.Graph.Strangers
import AggregateSync.Proofs.Mapping.Hydration
import AggregateSync.Proofs.Session.Run

/-!
# What writing may fail with

What a comparison found can be written: its paths lead to members of the graphs that were
compared, also while fields of the current graph are being written, and every property and
relation on the way to a statement is one that the registry has checked.  So a turn of writing
fails with what the database answered, with a value that cannot be converted, or because a
parent has nothing to refer to.  Strangers do not come into it; they would have stopped the
comparison.
-/

namespace AggregateSync

open Result (FailsWithin failsWithin_ok failsWithin_error)

/-! ## The link to the parent -/

section Members

variable {strangers : Prop} {mapping : ClassMapping} {e : Entity}

theorem applyForeignKey_failsWithin (hsame : e.type.same mapping.type = true)
    {foreignKey : Option ForeignKeyValue}
    (hshown : ∀ value name, foreignKey = some value → value.property = some name →
      ∃ property, mapping.property? name = some property) :
    FailsWithin (Error.IsForeseen strangers) (applyForeignKey mapping e foreignKey) := by
  cases foreignKey with
  | none => exact failsWithin_ok _
  | some value =>
      rw [applyForeignKey]
      cases hname : value.property with
      | none => exact failsWithin_ok _
      | some name =>
          obtain ⟨property, hproperty⟩ := hshown value name rfl hname
          simp only [ClassMapping.requireProperty_eq_ok.2 hproperty, Result.ok_bind]
          exact ((ClassMapping.set_failsWithin hsame property value.value).mono
            fun _ => Error.IsConversion.isForeseen).bind fun written _ => failsWithin_ok _

/-- Who takes a foreign key stays of the class. -/
theorem same_of_applyForeignKey (hsame : e.type.same mapping.type = true)
    {foreignKey : Option ForeignKeyValue} {applied : Entity × Option (String × Value)}
    (happlied : applyForeignKey mapping e foreignKey = .ok applied) :
    applied.1.type.same mapping.type = true := by
  rw [((applyForeignKey_eq_ok hsame).1 happlied).type_eq]
  exact hsame

end Members

section Links

variable {strangers : Prop} {registry : Registry} {root : Entity} {members : List Member}
  {member : Member} {change : Change} {side : Side} {snapshot current : Option Entity}
  {met : Entity} {propagate : Bool}

/-- The value of a foreign key is found unless the relation declares none for the class or the
parent has nothing to refer to. -/
theorem ClassMapping.foreignKeyValue_failsWithin {mapping : ClassMapping} {relation : Relation}
    (hsound : relation.IsSound registry mapping) {parent : Entity}
    (hsame : parent.type.same mapping.type = true) (child : EntityType) :
    FailsWithin (Error.IsForeseen strangers) (mapping.foreignKeyValue relation child parent) := by
  rw [foreignKeyValue]
  cases hforeignKey : relation.foreignKey? child with
  | none => exact failsWithin_error trivial
  | some foreignKey =>
      obtain ⟨target, htarget, hdeclares⟩ := Option.bind_eq_some_iff.1 hforeignKey
      obtain ⟨_, _, hchecked⟩ := hsound.target target (List.mem_of_find?_eq_some htarget)
      obtain ⟨⟨referenced, hreferenced⟩, _⟩ := hchecked foreignKey hdeclares
      change FailsWithin _ (mapping.requireProperty foreignKey.referenced >>= _)
      simp only [requireProperty_eq_ok.2 hreferenced, get_of_same hsame, Result.ok_bind]
      split
      · exact failsWithin_error trivial
      · exact failsWithin_ok _

/-- What a member's row says about its parent is found in any graph of the shape that was
traversed, unless there is no foreign key or nothing to refer to. -/
theorem IsTraversal.parentLink_failsWithin (htraversal : IsTraversal registry root members)
    (hmember : member ∈ members) (hdescribes : change.Describes side member)
    (hgraph : side.graph snapshot current = some met) (hshape : root.SameShape met) :
    FailsWithin (Error.IsForeseen strangers)
      (parentLink registry change snapshot current propagate) := by
  by_cases hroot : member.path = []
  case pos =>
    rw [parentLink_root (hdescribes.path.trans hroot)]
    exact failsWithin_ok _
  case neg =>
    obtain ⟨parent, hparent, _, _, _, habove, _⟩ := htraversal.exists_parent hmember hroot
    obtain ⟨segment, relation, holder, hpath, hindex, hrelation, hresolve, hmapping⟩ :=
      htraversal.exists_holder hmember hparent ⟨_, habove⟩ hshape
    rw [← hdescribes.side] at hgraph
    rw [parentLink_eq (hdescribes.path.trans hpath) (hdescribes.relation.trans hindex) hgraph
      hresolve hmapping hrelation]
    split
    case isFalse => exact failsWithin_ok _
    case isTrue =>
      have hmapped := List.mem_of_find?_eq_some (Registry.mappingFor_eq_ok.1 hmapping)
      have hsound := registry.isSound hmapped (List.mem_of_getElem? hrelation)
      exact (ClassMapping.foreignKeyValue_failsWithin hsound
        (Registry.same_of_mappingFor hmapping) change.type).bind fun value _ => failsWithin_ok _

/-- The property that a foreign key is shown in is one of the member's class. -/
theorem IsTraversal.exists_shownProperty (htraversal : IsTraversal registry root members)
    (hmember : member ∈ members) (hdescribes : change.Describes side member)
    (hgraph : side.graph snapshot current = some met) (hshape : root.SameShape met)
    {link : ParentLink}
    (hlink : parentLink registry change snapshot current propagate = .ok link)
    {value : ForeignKeyValue} {name : String} (hvalue : link.foreignKey = some value)
    (hname : value.property = some name) :
    ∃ property, member.mapping.property? name = some property := by
  by_cases hroot : member.path = []
  case pos =>
    rw [parentLink_root (hdescribes.path.trans hroot)] at hlink
    cases hlink
    cases hvalue
  case neg =>
    obtain ⟨parent, hparent, _, _, _, habove, _⟩ := htraversal.exists_parent hmember hroot
    obtain ⟨segment, relation, holder, _, hrelation, _, hlinks⟩ :=
      htraversal.exists_parentLink hmember hparent ⟨_, habove⟩ hdescribes hgraph hshape
    obtain ⟨_, hgives⟩ := hlinks propagate link hlink
    cases propagate with
    | false =>
        rw [if_neg Bool.false_ne_true, hvalue] at hgives
        cases hgives
    | true =>
        rw [if_pos rfl, hvalue] at hgives
        obtain ⟨_, ⟨⟩, foreignKey, _, hforeignKey, _, _, _, rfl⟩ := hgives
        obtain ⟨target, htarget, hdeclares⟩ := Option.bind_eq_some_iff.1 hforeignKey
        have hparentMapped := List.mem_of_find?_eq_some
          (Registry.mappingFor_eq_ok.1 (htraversal.known parent hparent).1)
        obtain ⟨child, hchild, hchecked⟩ :=
          (registry.isSound hparentMapped (List.mem_of_getElem? hrelation)).target target
            (List.mem_of_find?_eq_some htarget)
        -- the target is of the class of the member, so the registry checked its mapping
        have hsame := List.find?_some htarget
        rw [EntityType.same, beq_iff_eq] at hsame
        have hfind := Registry.mappingFor_eq_ok.1 (htraversal.known member hmember).1
        rw [hsame, Registry.same_of_find? hfind, hfind] at hchild
        obtain rfl := Option.some.inj hchild
        exact (hchecked foreignKey hdeclares).2 name hname

end Links

/-! ## Prepared writes -/

section Prepare

variable {strangers : Prop} {registry : Registry} {dialect : Dialect} {root met e : Entity}
  {members : List Member} {member : Member} {change : Change} {address : Address}
  {snapshot : Option Entity} {propagate : Bool}

theorem prepareInsert_failsWithin (htraversal : IsTraversal registry root members)
    (hmember : member ∈ members) (hdescribes : change.Describes .current member)
    (hshape : root.SameShape met)
    (hstands : change.StandsIn registry met member.mapping e address) :
    FailsWithin (Error.IsForeseen strangers)
      (prepareInsert registry dialect snapshot change met) := by
  have hgraph : Side.current.graph snapshot (some met) = some met := rfl
  rw [prepareInsert]
  refine (htraversal.parentLink_failsWithin hmember hdescribes hgraph hshape).bind
    fun link hlink => ?_
  rw [hstands.mappingById, Result.ok_bind, hstands.locate, Result.ok_bind]
  refine (applyForeignKey_failsWithin hstands.same fun value name =>
    htraversal.exists_shownProperty hmember hdescribes hgraph hshape hlink).bind
      fun applied happlied => ?_
  have hsame := same_of_applyForeignKey hstands.same happlied
  simp only [ClassMapping.valuesOf_of_same hsame, Result.ok_bind]
  exact failsWithin_ok _

theorem prepareUpdate_failsWithin (htraversal : IsTraversal registry root members)
    (hmember : member ∈ members) (hdescribes : change.Describes .current member)
    (hshape : root.SameShape met)
    (hstands : change.StandsIn registry met member.mapping e address) :
    FailsWithin (Error.IsForeseen strangers)
      (prepareUpdate registry dialect snapshot propagate change met) := by
  have hgraph : Side.current.graph snapshot (some met) = some met := rfl
  rw [prepareUpdate]
  refine (htraversal.parentLink_failsWithin hmember hdescribes hgraph hshape).bind
    fun link hlink => ?_
  rw [hstands.mappingById, Result.ok_bind, hstands.locate, Result.ok_bind]
  refine (applyForeignKey_failsWithin hstands.same fun value name =>
    htraversal.exists_shownProperty hmember hdescribes hgraph hshape hlink).bind
      fun applied happlied => ?_
  have hsame := same_of_applyForeignKey hstands.same happlied
  obtain ⟨condition, hcondition, _⟩ := keyFilter_of_same hsame
  simp only [ClassMapping.valuesOf_of_same hsame, Result.ok_bind, hcondition]
  split <;> exact failsWithin_ok _

theorem prepareDelete_failsWithin (htraversal : IsTraversal registry root members)
    (hmember : member ∈ members) (hdescribes : change.Describes .snapshot member)
    (current : Option Entity) :
    FailsWithin (Error.IsForeseen strangers)
      (prepareDelete registry dialect (some root) current propagate change) := by
  have hgraph : Side.snapshot.graph (some root) current = some root := rfl
  obtain ⟨address, hstands⟩ := htraversal.standsIn hmember hdescribes
  obtain ⟨condition, hcondition, _⟩ := keyFilter_of_same hstands.same
  rw [prepareDelete]
  refine (htraversal.parentLink_failsWithin hmember hdescribes hgraph (.refl root)).bind
    fun link _ => ?_
  rw [hstands.mappingById, Result.ok_bind]
  refine (failsWithin_ok root).bind fun _ hpure => ?_
  obtain rfl := Except.ok.inj hpure
  simp only [hstands.resolve, Result.ok_bind, hcondition]
  exact failsWithin_ok _

/-- The key of a new row is written back unless it cannot be converted. -/
theorem writeBack_failsWithin {mapping : ClassMapping}
    (hstands : change.StandsIn registry met mapping e address) (assigned : Int) :
    FailsWithin (Error.IsForeseen strangers) (writeBack registry change assigned met) := by
  rw [writeBack, hstands.mappingById, Result.ok_bind]
  cases mapping.generatedKey? with
  | none => exact failsWithin_ok _
  | some key =>
      simp only [hstands.locate, Result.ok_bind]
      exact ((ClassMapping.set_failsWithin hstands.same key _).mono
        fun _ => Error.IsConversion.isForeseen).bind fun saved _ => failsWithin_ok _

end Prepare

/-! ## Turns -/

section Turns

variable {ω : Type} {environment : Environment ω} {strangers : Prop} {registry : Registry}
  {dialect : Dialect} {channel : Channel} {snapshot : Option Entity} {options : PersistOptions}
  {root met e : Entity} {members : List Member} {member : Member} {change : Change}
  {address : Address}

theorem Task.sending_failsWithin (write : PreparedWrite) (state : Option Entity) (world : ω) :
    (Task.sending environment channel write state world).outcome.FailsWithin
      (Error.IsForeseen strangers) := by
  rw [sending]
  cases (environment.answer (.execute channel write.statement) world).1 with
  | err e =>
      rintro _ ⟨⟩
      trivial
  | _ => rintro _ ⟨⟩

theorem Task.sendingInsert_failsWithin {write : PreparedWrite}
    (hback : ∀ assigned, FailsWithin (Error.IsForeseen strangers)
      (writeBack registry change assigned met)) (world : ω) :
    (Task.sendingInsert environment registry channel change write met world).outcome.FailsWithin
      (Error.IsForeseen strangers) := by
  rw [sendingInsert]
  cases (environment.answer (.insert channel write.statement) world).1 with
  | ok assigned =>
      simp only [Outcome.mapError]
      cases hsaved : writeBack registry change assigned met with
      | ok saved => exact Outcome.failsWithin_ok true
      | error e =>
          rintro _ ⟨⟩
          exact hback assigned e hsaved
  | err e =>
      rintro _ ⟨⟩
      trivial
  | _ => rintro _ ⟨⟩

theorem insertMember_failsWithin (htraversal : IsTraversal registry root members)
    (hmember : member ∈ members) (hdescribes : change.Describes .current member)
    (hshape : root.SameShape met)
    (hstands : change.StandsIn registry met member.mapping e address) (world : ω) :
    ((Task.insertMember registry dialect channel snapshot change).execution environment
      (some met) world).outcome.FailsWithin (Error.IsForeseen strangers) := by
  rw [Task.execution_insertMember]
  cases environment.cancelled world with
  | some reason => rintro _ ⟨⟩
  | none =>
      cases hprepare : prepareInsert registry dialect snapshot change met with
      | error error =>
          rintro _ ⟨⟩
          exact prepareInsert_failsWithin htraversal hmember hdescribes hshape hstands _ hprepare
      | ok prepared =>
          obtain ⟨linked, write⟩ := prepared
          obtain ⟨link, shown, extra, _, htakes, rfl, _⟩ :=
            (prepareInsert_eq_ok hstands).1 hprepare
          have hlinked := hstands.putAt htakes.type_eq htakes.members_eq
          simp only
          split
          · exact Task.sendingInsert_failsWithin (writeBack_failsWithin hlinked) world
          · exact Task.sending_failsWithin write _ world

theorem updateMember_failsWithin (htraversal : IsTraversal registry root members)
    (hmember : member ∈ members) (hdescribes : change.Describes .current member)
    (hshape : root.SameShape met)
    (hstands : change.StandsIn registry met member.mapping e address) (world : ω) :
    ((Task.updateMember registry dialect channel snapshot options change).execution environment
      (some met) world).outcome.FailsWithin (Error.IsForeseen strangers) := by
  rw [Task.execution_updateMember]
  cases environment.cancelled world with
  | some reason => rintro _ ⟨⟩
  | none =>
      cases hprepare : prepareUpdate registry dialect snapshot options.onUpdate change met with
      | error error =>
          rintro _ ⟨⟩
          exact prepareUpdate_failsWithin htraversal hmember hdescribes hshape hstands _ hprepare
      | ok prepared =>
          obtain ⟨linked, write?⟩ := prepared
          cases write? with
          | none => exact Outcome.failsWithin_ok false
          | some write => exact Task.sending_failsWithin write _ world

theorem deleteMember_failsWithin (htraversal : IsTraversal registry root members)
    (hmember : member ∈ members) (hdescribes : change.Describes .snapshot member)
    (current : Option Entity) (world : ω) :
    ((Task.deleteMember registry dialect channel (some root) options change).execution environment
      current world).outcome.FailsWithin (Error.IsForeseen strangers) := by
  rw [Task.execution_deleteMember]
  cases environment.cancelled world with
  | some reason => rintro _ ⟨⟩
  | none =>
      cases hprepare :
        prepareDelete registry dialect (some root) current options.onDelete change with
      | error error =>
          rintro _ ⟨⟩
          exact prepareDelete_failsWithin htraversal hmember hdescribes current _ hprepare
      | ok write => exact Task.sending_failsWithin write _ world

end Turns

/-! ## Whole runs -/

section Runs

variable {ω : Type} {environment : Environment ω} {registry : Registry} {dialect : Dialect}
  {snapshot current : Option Entity} {filter : PropertyFilter} {changes : List Change}

/-- Every turn of writing what a comparison found fails only in foreseen ways. -/
theorem turn_failsWithin {channel : Channel} {options : PersistOptions} {world : ω}
    (hcompare : registry.compare snapshot current filter = .ok changes)
    {turn : Turn (Option Entity) ω Change}
    (hturn : turn ∈ writeTurns environment registry dialect channel changes snapshot options
      current world) :
    turn.execution.outcome.FailsWithin (Error.IsForeseen False) := by
  obtain ⟨before, after, hbefore, hafter, hdifference⟩ := Registry.compare_eq_ok hcompare
  obtain ⟨i, hi⟩ := List.mem_iff_getElem?.1 hturn
  obtain ⟨hitem, _, hexecution⟩ := Task.afterTurns_take hi
  rw [hexecution, Task.writeMember]
  have hcurrent : ∀ member ∈ after, turn.item.Describes .current member →
      ∃ root met e address, turn.state = some met ∧ IsTraversal registry root after ∧
        root.SameShape met ∧ turn.item.StandsIn registry met member.mapping e address := by
    intro member hmember hdescribes
    obtain ⟨root, rfl, htraversal⟩ := Registry.exists_traversal hafter hmember
    obtain ⟨met, e, address, hmet, hshape, hstands, _⟩ := standsIn_of_turn htraversal
      (Registry.nodup_paths hbefore) hdifference hi hmember hdescribes
    exact ⟨root, met, e, address, hmet, htraversal, hshape, hstands⟩
  rcases hdifference.scheduled_cases (List.mem_of_getElem? hitem) with
    ⟨hstate, member, hmember, hdescribes, _⟩ | ⟨hstate, old, hold, hdescribes, _⟩ |
      ⟨hstate, member, hmember, _, _, hdescribes, _⟩
  · obtain ⟨root, met, e, address, hmet, htraversal, hshape, hstands⟩ :=
      hcurrent member hmember hdescribes
    rw [hstate, hmet]
    exact insertMember_failsWithin htraversal hmember hdescribes hshape hstands turn.world
  · obtain ⟨root, rfl, htraversal⟩ := Registry.exists_traversal hbefore hold
    rw [hstate]
    exact deleteMember_failsWithin htraversal hold hdescribes turn.state turn.world
  · obtain ⟨root, met, e, address, hmet, htraversal, hshape, hstands⟩ :=
      hcurrent member hmember hdescribes
    rw [hstate, hmet]
    exact updateMember_failsWithin htraversal hmember hdescribes hshape hstands turn.world

/-- What the executor itself says when a transaction is begun or committed. -/
def Environment.FailsTransaction (environment : Environment ω) (e : Error) : Prop :=
  ∃ world, (environment.answer .begin world).1 = .err e ∨
    (environment.answer .commit world).1 = .err e

/-- A transaction fails as what it encloses, or as the executor says. -/
theorem inTransaction_failsWithin {σ α : Type} {allowed : Error → Prop} {task : Task σ α}
    {state : σ}
    (htask : ∀ world, (task.execution environment state world).outcome.FailsWithin allowed)
    (world : ω) :
    ((inTransaction task).execution environment state world).outcome.FailsWithin fun e =>
      allowed e ∨ environment.FailsTransaction e := by
  rw [Task.execution_inTransaction]
  cases hbegin : environment.answer .begin world with
  | mk answer begun =>
      cases answer with
      | ok =>
          have hinner := htask begun
          simp only [Task.ending]
          cases houtcome : (task.execution environment state begun).outcome with
          | ok a =>
              simp only
              cases hcommit : (environment.answer .commit
                (task.execution environment state begun).world).1 with
              | err e =>
                  rintro _ ⟨⟩
                  exact .inr ⟨_, .inr hcommit⟩
              | _ => rintro _ ⟨⟩
          | err e =>
              rintro _ ⟨⟩
              exact .inl (hinner e houtcome)
          | _ => rintro _ ⟨⟩
      | err e =>
          rintro _ ⟨⟩
          exact .inr ⟨world, .inl (by rw [hbegin])⟩
      | _ => rintro _ ⟨⟩

/-- Writing what a comparison found fails only in foreseen ways. -/
theorem persist_isForeseen {channel : Channel} {options : PersistOptions}
    (hcompare : registry.compare snapshot current filter = .ok changes) (world : ω) :
    ((persist registry dialect channel changes snapshot options).execution environment current
      world).outcome.FailsWithin (Error.IsForeseen False) :=
  persist_failsWithin fun _ => turn_failsWithin hcompare

/-- A synchronization fails as its comparison does, as writing may, or as the executor says. -/
theorem synchronize_failsWithin {config : SyncConfig} {strangers : Prop}
    (hcompare : FailsWithin (Error.IsForeseen strangers)
      (registry.compare snapshot current config.filter)) (world : ω) :
    ((synchronize registry dialect config snapshot).execution environment current
      world).outcome.FailsWithin fun e =>
        e.IsForeseen strangers ∨ environment.FailsTransaction e := by
  rw [synchronize, Task.execution_state_bind]
  refine Task.ofResult_bind_failsWithin (hcompare.mono fun e => .inl) fun changes hchanges =>
    Task.bind_failsWithin ?_ fun _ _ _ _ _ => Outcome.failsWithin_ok _
  refine (inTransaction_failsWithin (persist_isForeseen hchanges) world).mono fun e he => ?_
  exact he.imp_left (Error.IsForeseen.mono False.elim)

end Runs

end AggregateSync
