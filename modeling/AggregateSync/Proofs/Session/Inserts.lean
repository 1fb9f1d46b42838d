import AggregateSync.Proofs.Session.Run

/-!
# What an INSERT leaves behind

An added member is settled in its turn: it takes its foreign key from its parent and, if
it awaits one, its key from the database.  No other turn writes it, so whoever looks at
the member later, a member below it or the final graph, finds it as its turn left it.
-/

namespace AggregateSync

variable {ω : Type} {environment : Environment ω} {registry : Registry} {dialect : Dialect}
  {channel : Channel} {snapshot : Option Entity} {options : PersistOptions}
  {filter : PropertyFilter} {changes : List Change} {before after : List Member}
  {root : Entity} {world later : ω} {final : Option Entity}

/-- How the row of a member that shows its foreign key is stored: its key is asked of the
database and shown by the member from then on, or the member has its key already. -/
inductive StoresRow (environment : Environment ω) (channel : Channel) (mapping : ClassMapping)
    (shown : Entity) (statement : Statement) (world : ω) : List Request → Entity → Prop
  | assigned {key : Property} {id : Int} {later : ω} {value : Value}
      (hawaits : mapping.keys.any (ClassMapping.awaits shown) = true)
      (hkey : mapping.generatedKey? = some key)
      (hanswer : environment.answer (.insert channel statement) world = (.ok id, later))
      (hread : key.field.type.read (.bigInt (Int64.ofInt id)) = .ok value) :
      StoresRow environment channel mapping shown statement world
        [.insert channel statement] (shown.write key.field value)
  | given (hawaits : mapping.keys.any (ClassMapping.awaits shown) = false) :
      StoresRow environment channel mapping shown statement world
        [.execute channel statement] shown

/-- A turn that inserts a member and succeeds leaves the member settled. -/
theorem insertMember_settles {change : Change} {met e : Entity} {mapping : ClassMapping}
    {address : Address} (hstands : change.StandsIn registry met mapping e address)
    {issued : Bool} {left : Option Entity} {between : ω} {requests : List Request}
    (hok : (Task.insertMember registry dialect channel snapshot change).execution environment
      (some met) world = ⟨.ok issued, left, between, requests⟩) :
    ∃ link shown extra settled last,
      parentLink registry change snapshot (some met) true = .ok link ∧
      TakesForeignKey mapping e link.foreignKey shown extra ∧
      StoresRow environment channel mapping shown
        ((memberInsert mapping shown extra link.subset).build dialect) world requests settled ∧
      left = some last ∧ met.SameShape last ∧ last.at? address = some settled := by
  obtain ⟨link, shown, extra, hlink, htakes, _, hsent⟩ := insertMember_eq_ok hstands hok
  have hlinked := hstands.putAt htakes.type_eq htakes.members_eq
  have hshape := (hstands.relabels_putAt htakes).shape
  cases hawaits : mapping.keys.any (ClassMapping.awaits shown) with
  | true =>
      simp only [hawaits, if_true] at hsent
      obtain ⟨rfl, id, saved, hanswer, hback, hleft⟩ := hsent
      obtain ⟨key, hkey⟩ := ClassMapping.exists_generatedKey hawaits
      have hwritten := (writeBack_eq_ok hlinked).1 hback
      rw [hkey] at hwritten
      obtain ⟨value, hread, rfl⟩ := hwritten
      have hsaved := hlinked.putAt (Entity.type_write shown key.field value)
        (Entity.members_write shown key.field value)
      exact ⟨link, shown, extra, _, _, hlink, htakes, .assigned hawaits hkey hanswer hread, hleft,
        hshape.trans (writeBack_relabels hlinked hback).shape, hsaved.at?⟩
  | false =>
      simp only [hawaits, Bool.false_eq_true, if_false] at hsent
      obtain ⟨rfl, hleft, _⟩ := hsent
      exact ⟨link, shown, extra, shown, _, hlink, htakes, .given hawaits, hleft, hshape,
        hlinked.at?⟩

/-- A change that may not come after the item of a turn had its own turn before. -/
theorem exists_earlier_turn {current : Option Entity}
    (hdifference : IsDifference filter before after changes) {i : Nat}
    {turn : Turn (Option Entity) ω Change}
    (hturn : (writeTurns environment registry dialect channel changes snapshot options current
      world)[i]? = some turn)
    {change : Change} (hchange : change ∈ schedule changes) (hdiffer : turn.item ≠ change)
    (hnot : ¬ turn.item.MayPrecede change) :
    ∃ (j : Nat) (earlier : Turn (Option Entity) ω Change) (issued : Bool)
        (left : Option Entity) (between : ω) (requests : List Request),
      j < i ∧ (writeTurns environment registry dialect channel changes snapshot options current
        world)[j]? = some earlier ∧
      earlier.item = change ∧ earlier.execution = ⟨.ok issued, left, between, requests⟩ := by
  obtain ⟨hitem, _, _⟩ := Task.afterTurns_take hturn
  obtain ⟨j, hj⟩ := List.mem_iff_getElem?.1 hchange
  have hlt := lt_of_not_mayPrecede hdifference.sorted hitem hj hdiffer hnot
  obtain ⟨earlier, issued, left, between, requests, hearlier, hexecution⟩ :=
    Task.exists_ok_of_reached hturn hlt
  have hsame := (Task.afterTurns_take hearlier).1
  exact ⟨j, earlier, issued, left, between, requests, hlt, hearlier,
    Option.some.inj (hsame.symm.trans hj), hexecution⟩

/-- What the turn of an added member did, and what the member shows in any graph that
writing passes through afterwards. -/
structure IsSettled (environment : Environment ω) (registry : Registry) (dialect : Dialect)
    (channel : Channel) (snapshot : Option Entity) (turn : Turn (Option Entity) ω Change)
    (member : Member) (met e : Entity) (link : ParentLink) (shown : Entity)
    (extra : Option (String × Value)) (settled : Entity) : Prop where
  state : turn.state = some met
  linked : parentLink registry turn.item snapshot (some met) true = .ok link
  unwritten : e.label = member.entity.label
  takes : TakesForeignKey member.mapping e link.foreignKey shown extra
  stores : StoresRow environment channel member.mapping shown
    ((memberInsert member.mapping shown extra link.subset).build dialect) turn.world
    turn.requests settled

/-- The turn of an added member settles it, and where writing goes on for a while the
member shows what its turn left. -/
theorem isSettled_of_turn (htraversal : IsTraversal registry root after)
    (hbefore : (before.map Member.path).Nodup)
    (hdifference : IsDifference filter before after changes) {i : Nat}
    {turn : Turn (Option Entity) ω Change}
    (hturn : (writeTurns environment registry dialect channel changes snapshot options
      (some root) world)[i]? = some turn)
    {member : Member} (hmember : member ∈ after)
    (hdescribes : turn.item.Describes .current member) (hadded : turn.item.state = .added)
    {issued : Bool} {left : Option Entity} {between : ω} {requests : List Request}
    (hexecution : turn.execution = ⟨.ok issued, left, between, requests⟩) :
    ∃ met e link shown extra settled,
      IsSettled environment registry dialect channel snapshot turn member met e link shown extra
        settled ∧ root.SameShape met ∧
      ∀ rest state finished, (∀ change ∈ rest, change ∈ (schedule changes).drop (i + 1)) →
        Task.afterTurns environment
          (Task.writeMember registry dialect channel snapshot options) rest left between =
            some (state, finished) →
        ∃ last found, state = some last ∧ root.SameShape last ∧
          registry.resolve last member.path = .ok found ∧ found.label = settled.label := by
  obtain ⟨met, e, address, hmet, hshape, hstands, hlabel⟩ :=
    standsIn_of_turn htraversal hbefore hdifference hturn hmember hdescribes
  have hrun := (Task.afterTurns_take hturn).2.2
  rw [hmet, hexecution, Task.writeMember, hadded] at hrun
  obtain ⟨link, shown, extra, settled, kept, hlink, htakes, hstores, rfl, hkept, hat⟩ :=
    insertMember_settles hstands hrun.symm
  refine ⟨met, e, link, shown, extra, settled, ⟨hmet, hlink, hlabel, htakes, ?_⟩, hshape, ?_⟩
  · rw [Turn.requests, hexecution]
    exact hstores
  · intro rest state finished hrest hafter
    obtain ⟨last, rfl, hlast, hsame⟩ := label_behind_turn htraversal hbefore hdifference hturn
      hmember hdescribes (hshape.trans hkept) hrest hafter
      ((Registry.addressOf?_of_sameShape hshape).trans hstands.address)
    obtain ⟨found, hfound, _⟩ := hstands.of_sameShape (hkept.trans hlast)
    rw [hat, hfound.at?, Option.map_some, Option.map_some, Option.some.injEq] at hsame
    refine ⟨last, found, rfl, hshape.trans (hkept.trans hlast), ?_, hsame⟩
    rw [← hdescribes.path]
    exact hfound.resolve

end AggregateSync
