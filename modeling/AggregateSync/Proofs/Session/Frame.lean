import AggregateSync.Proofs.Session.Writing

/-!
# What writing leaves alone

A turn of writing changes the fields of one member at most, the one that it writes, and
never which members there are.  Along a run this keeps every path readable, and what
stands at an address stays as it is while no turn writes there.
-/

namespace AggregateSync

open Entity (Relabels)

variable {ω : Type} {environment : Environment ω} {registry : Registry} {dialect : Dialect}
  {channel : Channel} {snapshot : Option Entity} {options : PersistOptions} {change : Change}
  {root e : Entity} {mapping : ClassMapping} {address : Address}

theorem Change.StandsIn.relabels_putAt
    (hstands : change.StandsIn registry root mapping e address) {shown : Entity}
    {extra : Option (String × Value)} {foreignKey : Option ForeignKeyValue}
    (htakes : TakesForeignKey mapping e foreignKey shown extra) :
    Relabels address root (root.putAt address shown) :=
  .putAt hstands.at? htakes.type_eq htakes.members_eq

theorem writeBack_relabels (hstands : change.StandsIn registry root mapping e address)
    {assigned : Int} {saved : Entity}
    (hsaved : writeBack registry change assigned root = .ok saved) :
    Relabels address root saved := by
  have hwritten := (writeBack_eq_ok hstands).1 hsaved
  cases hkey : mapping.generatedKey? with
  | none =>
      rw [hkey] at hwritten
      obtain rfl : saved = root := hwritten
      exact .refl address saved
  | some key =>
      rw [hkey] at hwritten
      obtain ⟨shown, _, rfl⟩ := hwritten
      exact .putAt hstands.at? (Entity.type_write e key.field shown)
        (Entity.members_write e key.field shown)

/-- Where a key was written back, no other field of the member is another. -/
theorem writeBack_writes (hstands : change.StandsIn registry root mapping e address)
    {assigned : Int} {saved : Entity}
    (hsaved : writeBack registry change assigned root = .ok saved) :
    ∃ e', saved.at? address = some e' ∧ ∀ field, e'.read field ≠ e.read field →
      ∃ key, mapping.generatedKey? = some key ∧ field = key.field := by
  have hwritten := (writeBack_eq_ok hstands).1 hsaved
  cases hkey : mapping.generatedKey? with
  | none =>
      rw [hkey] at hwritten
      obtain rfl : saved = root := hwritten
      exact ⟨e, hstands.at?, fun field hdiffers => absurd rfl hdiffers⟩
  | some key =>
      rw [hkey] at hwritten
      obtain ⟨shown, _, rfl⟩ := hwritten
      refine ⟨_, Entity.at?_putAt_self _ hstands.at?, ?_⟩
      intro field hdiffers
      refine ⟨key, rfl, ?_⟩
      by_contra hother
      exact hdiffers (Entity.read_write_of_ne hother)

/-- Inserting a member leaves the graph as it was, or with the foreign key of the member set,
or, once its INSERT was answered with a key, with this key as well. -/
inductive InsertLeaves (environment : Environment ω) (registry : Registry) (channel : Channel)
    (snapshot : Option Entity) (change : Change) (root e : Entity) (mapping : ClassMapping)
    (address : Address) (world : ω) (run : Execution (Option Entity) ω Bool) : Prop
  | unchanged (hstate : run.state = some root)
  | linked {link : ParentLink} {shown : Entity} {extra : Option (String × Value)}
      (hlink : parentLink registry change snapshot (some root) true = .ok link)
      (htakes : TakesForeignKey mapping e link.foreignKey shown extra)
      (hstate : run.state = some (root.putAt address shown))
  | assigned {link : ParentLink} {shown saved : Entity} {extra : Option (String × Value)}
      {statement : Statement} {number : Int} {later : ω}
      (hlink : parentLink registry change snapshot (some root) true = .ok link)
      (htakes : TakesForeignKey mapping e link.foreignKey shown extra)
      (hrequests : run.requests = [.insert channel statement])
      (hanswer : environment.answer (.insert channel statement) world = (.ok number, later))
      (hsaved : writeBack registry change number (root.putAt address shown) = .ok saved)
      (hstate : run.state = some saved)

theorem insertMember_leaves (hstands : change.StandsIn registry root mapping e address)
    (world : ω) :
    InsertLeaves environment registry channel snapshot change root e mapping address world
      ((Task.insertMember registry dialect channel snapshot change).execution environment
        (some root) world) := by
  rw [Task.execution_insertMember]
  cases environment.cancelled world with
  | some reason => exact .unchanged rfl
  | none =>
      cases hprepare : prepareInsert registry dialect snapshot change root with
      | error e => exact .unchanged rfl
      | ok prepared =>
          obtain ⟨linked, write⟩ := prepared
          obtain ⟨link, shown, extra, hlink, htakes, rfl, _⟩ :=
            (prepareInsert_eq_ok hstands).1 hprepare
          simp only
          split
          case isFalse => exact .linked hlink htakes rfl
          case isTrue =>
            rw [Task.sendingInsert]
            cases hanswer : environment.answer (.insert channel write.statement) world with
            | mk answer later =>
                cases answer with
                | ok number =>
                    simp only [Outcome.mapError]
                    cases hsaved : writeBack registry change number (root.putAt address shown)
                      with
                    | error e => exact .linked hlink htakes rfl
                    | ok saved => exact .assigned hlink htakes rfl hanswer hsaved rfl
                | _ => exact .linked hlink htakes rfl

/-- Updating a member leaves the graph as it was, or with the foreign key of the member set. -/
theorem updateMember_leaves (hstands : change.StandsIn registry root mapping e address)
    (world : ω) :
    let run := (Task.updateMember registry dialect channel snapshot options change).execution
      environment (some root) world
    run.state = some root ∨ ∃ link shown extra,
      parentLink registry change snapshot (some root) options.onUpdate = .ok link ∧
      TakesForeignKey mapping e link.foreignKey shown extra ∧
      run.state = some (root.putAt address shown) := by
  intro run
  have hrun : run = _ := Task.execution_updateMember root world
  cases hpoll : environment.cancelled world with
  | some reason =>
      rw [hpoll] at hrun
      exact .inl (congrArg Execution.state hrun)
  | none =>
      rw [hpoll] at hrun
      cases hprepare : prepareUpdate registry dialect snapshot options.onUpdate change root with
      | error e =>
          rw [hprepare] at hrun
          exact .inl (congrArg Execution.state hrun)
      | ok prepared =>
          obtain ⟨linked, write?⟩ := prepared
          obtain ⟨link, shown, extra, hlink, htakes, rfl, _⟩ :=
            (prepareUpdate_eq_ok hstands).1 hprepare
          rw [hprepare] at hrun
          refine .inr ⟨link, shown, extra, hlink, htakes, ?_⟩
          cases write? <;> exact congrArg Execution.state hrun

/-- Whatever comes of inserting a member, only the member itself can have changed. -/
theorem insertMember_relabels (hstands : change.StandsIn registry root mapping e address)
    (world : ω) :
    ∃ after, ((Task.insertMember registry dialect channel snapshot change).execution
      environment (some root) world).state = some after ∧ Relabels address root after := by
  cases insertMember_leaves hstands world with
  | unchanged hstate => exact ⟨root, hstate, .refl address root⟩
  | linked _ htakes hstate => exact ⟨_, hstate, hstands.relabels_putAt htakes⟩
  | assigned _ htakes _ _ hsaved hstate =>
      have hshown := hstands.putAt htakes.type_eq htakes.members_eq
      exact ⟨_, hstate, (hstands.relabels_putAt htakes).trans
        (writeBack_relabels hshown hsaved)⟩

/-- Whatever comes of updating a member, only the member itself can have changed. -/
theorem updateMember_relabels (hstands : change.StandsIn registry root mapping e address)
    (world : ω) :
    ∃ after, ((Task.updateMember registry dialect channel snapshot options change).execution
      environment (some root) world).state = some after ∧ Relabels address root after := by
  rcases updateMember_leaves hstands world with hstate | ⟨_, _, _, _, htakes, hstate⟩
  · exact ⟨root, hstate, .refl address root⟩
  · exact ⟨_, hstate, hstands.relabels_putAt htakes⟩

/-- Whatever comes of deleting a member, the current graph stays as it is. -/
theorem deleteMember_state (current : Option Entity) (world : ω) :
    ((Task.deleteMember registry dialect channel snapshot options change).execution
      environment current world).state = current := by
  rw [Task.execution_deleteMember]
  cases environment.cancelled world with
  | some reason => rfl
  | none =>
      cases prepareDelete registry dialect snapshot current options.onDelete change with
      | error e => rfl
      | ok write => rfl

/-- Whatever comes of a turn, only the member that it writes can have changed. -/
theorem writeMember_relabels
    (hstands : change.state ≠ .removed → change.StandsIn registry root mapping e address)
    (world : ω) :
    ∃ after, ((Task.writeMember registry dialect channel snapshot options change).execution
      environment (some root) world).state = some after ∧ Relabels address root after := by
  rw [Task.writeMember]
  cases hstate : change.state with
  | added => exact insertMember_relabels (hstands (by rw [hstate]; simp)) world
  | removed => exact ⟨root, deleteMember_state (some root) world, .refl address root⟩
  | modified => exact updateMember_relabels (hstands (by rw [hstate]; simp)) world
  | unmodified => exact ⟨root, rfl, .refl address root⟩

/-- Along a run, what stands at an address stays as it is unless a turn writes there. -/
theorem afterTurns_frame {items : List Change} {state : Option Entity} {world later : ω}
    (hstands : ∀ change ∈ items, change.state ≠ .removed →
      ∃ mapping e address, change.StandsIn registry root mapping e address)
    (hafter : Task.afterTurns environment
      (Task.writeMember registry dialect channel snapshot options) items (some root) world =
        some (state, later)) :
    ∃ after, state = some after ∧ root.SameShape after ∧
      ∀ place, (∀ change ∈ items, change.state ≠ .removed →
        registry.addressOf? change.path root ≠ some place) →
          (after.at? place).map Entity.label = (root.at? place).map Entity.label := by
  let kept (done : List Change) (state : Option Entity) (_ : ω) : Prop :=
    ∃ after, state = some after ∧ root.SameShape after ∧
      ∀ place, (∀ change ∈ done, change.state ≠ .removed →
        registry.addressOf? change.path root ≠ some place) →
          (after.at? place).map Entity.label = (root.at? place).map Entity.label
  have hkept : kept items state later := by
    apply Task.afterTurns_invariant _ _ hafter
    · exact ⟨root, rfl, .refl root, fun _ _ => rfl⟩
    · rintro done item rest rfl before met ⟨middle, rfl, hshape, helsewhere⟩ issued state
        between requests hturn
      have hitem : item ∈ done ++ item :: rest := List.mem_append_right _ List.mem_cons_self
      by_cases hremoved : item.state = .removed
      case pos =>
        have hstate := congrArg Execution.state hturn
        rw [Task.writeMember, hremoved] at hstate
        rw [deleteMember_state] at hstate
        refine ⟨middle, hstate.symm, hshape, ?_⟩
        intro place hplace
        apply helsewhere
        intro change hchange
        exact hplace change (List.mem_append_left _ hchange)
      case neg =>
        obtain ⟨mapping, e, address, hroot⟩ := hstands item hitem hremoved
        obtain ⟨e', hmiddle, _⟩ := hroot.of_sameShape hshape
        obtain ⟨after, hstate, hrelabels⟩ := @writeMember_relabels ω environment registry
          dialect channel snapshot options item middle e' mapping address (fun _ => hmiddle) met
        rw [hturn] at hstate
        refine ⟨after, hstate, hshape.trans hrelabels.shape, ?_⟩
        intro place hplace
        rw [hrelabels.elsewhere place, helsewhere place]
        · intro change hchange
          exact hplace change (List.mem_append_left _ hchange)
        · intro hsame
          apply hplace item (List.mem_append_right _ List.mem_cons_self) hremoved
          rw [hsame, hroot.address]
  exact hkept

end AggregateSync
