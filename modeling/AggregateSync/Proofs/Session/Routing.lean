import AggregateSync.Proofs.Graph.Partition
import AggregateSync.Proofs.Mapping.Hydration
import AggregateSync.Proofs.Session.Planning
import AggregateSync.Proofs.Value.Hashing
import Mathlib.Data.List.Nodup

/-!
# Giving rows to their parents

Every row of a query goes to the parents that gave its foreign key value, and to no
others.  A list of rows is routed row by row; which row is the first that cannot be
given, and why, depends only on the rows before it.  So the routing of a list of rows is
described by what holds after each good row and at the first bad one.
-/

namespace AggregateSync

/-- The parents that have a value: in order, those whose referenced value is not NULL and
equals it in key form. -/
def matchingParents (referenced : Property) (parents : Numbered) (value : Value) : List Nat :=
  (parents.filter fun parent =>
    !(parent.2.read referenced.field).isNull &&
      (parent.2.read referenced.field).keyEqual value).map Prod.fst

namespace Fetch

variable {fetch : Fetch} {child : ClassMapping} {owners : Row → List Nat}
  {done rows rest : List Row} {row : Row}

/-- The parents that a query gives a row to. -/
def ownersOf (fetch : Fetch) (row : Row) : List Nat :=
  entered Value.sameEntry fetch.owners (fetch.foreignKeyOf row)

/-- Rows that can be given to their owners: each can be read and has an owner, and a
relation with a single child gives nobody a second one. -/
structure IsRoutable (fetch : Fetch) (child : ClassMapping) (owners : Row → List Nat)
    (rows : List Row) : Prop where
  readable : ∀ row ∈ rows, ∃ e, child.hydrate row = .ok e
  owned : ∀ row ∈ rows, owners row ≠ []
  single : fetch.relation.cardinality = .oneToOne → (rows.flatMap owners).Nodup

/-- What is wrong with a row that follows rows which could be given.  It has no owner; or
it has one, who has a child already and may have no other; or it cannot be read. -/
inductive Offends (fetch : Fetch) (child : ClassMapping) (owners : Row → List Nat)
    (done : List Row) (row : Row) : Error → Prop
  | unmatched (hnone : owners row = []) :
      Offends fetch child owners done row
        (fetch.rowError .unmatchedForeignKey (fetch.foreignKeyOf row))
  | repeated {first : Nat} {others : List Nat} (hsome : owners row = first :: others)
      (hsingle : fetch.relation.cardinality = .oneToOne)
      (htwice : first ∈ done.flatMap owners ∨
        (∃ e, child.hydrate row = .ok e) ∧ ¬((done ++ [row]).flatMap owners).Nodup) :
      Offends fetch child owners done row
        (fetch.rowError .duplicateOneToOne (fetch.foreignKeyOf row))
  | unreadable {first : Nat} {others : List Nat} {e : Error}
      (hsome : owners row = first :: others)
      (hfree : fetch.relation.cardinality = .oneToOne → first ∉ done.flatMap owners)
      (hread : child.hydrate row = .error e) :
      Offends fetch child owners done row e

/-- The nodes of the children that a row is. -/
def nodesOf (fetch : Fetch) (child : ClassMapping) (owners : Row → List Nat) (row : Row) :
    List LoadedNode :=
  (owners row).map fun owner => ⟨(child.hydrate row).toOption, some owner, fetch.index⟩

theorem isRoutable_nil : fetch.IsRoutable child owners [] :=
  ⟨by simp, by simp, by simp⟩

theorem isRoutable_append : fetch.IsRoutable child owners (done ++ rest) →
    fetch.IsRoutable child owners done := by
  rintro ⟨hreadable, howned, hsingle⟩
  refine ⟨fun row hrow => hreadable row (List.mem_append_left _ hrow),
    fun row hrow => howned row (List.mem_append_left _ hrow), fun hone => ?_⟩
  have hnodup := hsingle hone
  rw [List.flatMap_append] at hnodup
  exact hnodup.of_append_left

/-- After rows that can be given, a row can be given too or offends. -/
theorem isRoutable_or_offends (hdone : fetch.IsRoutable child owners done) (row : Row) :
    fetch.IsRoutable child owners (done ++ [row]) ∨
      ∃ e, fetch.Offends child owners done row e := by
  cases howners : owners row with
  | nil => exact .inr ⟨_, .unmatched howners⟩
  | cons first others =>
      by_cases htaken : fetch.relation.cardinality = .oneToOne ∧ first ∈ done.flatMap owners
      case pos => exact .inr ⟨_, .repeated howners htaken.1 (.inl htaken.2)⟩
      case neg =>
        cases hread : child.hydrate row with
        | error e =>
            exact .inr ⟨e, .unreadable howners (fun hone hmem => htaken ⟨hone, hmem⟩) hread⟩
        | ok e =>
            by_cases hsingle : fetch.relation.cardinality = .oneToOne →
                ((done ++ [row]).flatMap owners).Nodup
            case pos =>
              refine .inl ⟨?_, ?_, hsingle⟩
              · simpa [or_imp, forall_and, hread] using hdone.readable
              · simpa [or_imp, forall_and, howners] using hdone.owned
            case neg =>
              obtain ⟨hone, htwice⟩ := Classical.not_imp.1 hsingle
              exact .inr ⟨_, .repeated howners hone (.inr ⟨⟨e, hread⟩, htwice⟩)⟩

/-- Rows that cannot all be given have a first that offends. -/
theorem exists_offence (done : List Row) (hdone : fetch.IsRoutable child owners done)
    (hrows : ¬fetch.IsRoutable child owners (done ++ rows)) :
    ∃ good row rest e, rows = good ++ row :: rest ∧
      fetch.IsRoutable child owners (done ++ good) ∧
      fetch.Offends child owners (done ++ good) row e := by
  induction rows generalizing done with
  | nil => exact absurd (by simpa using hdone) hrows
  | cons row rest ih =>
      rcases isRoutable_or_offends hdone row with hnext | ⟨e, hoffends⟩
      · rw [List.append_cons] at hrows
        obtain ⟨good, bad, later, e, rfl, hgood, hoffends⟩ := ih (done ++ [row]) hnext hrows
        refine ⟨row :: good, bad, later, e, rfl, ?_, ?_⟩
        · rwa [List.append_cons]
        · rwa [List.append_cons]
      · exact ⟨[], row, rest, e, rfl, by simpa using hdone, by simpa using hoffends⟩

end Fetch

/-! ## One row -/

section Row

variable {fetch : Fetch} {child : ClassMapping} {row : Row} {value : Value}
  {filled given : List Nat}

/-- A row that can be read is given to every owner that is free. -/
theorem giveRow_of_free {e : Entity} (hread : child.hydrate row = .ok e)
    (hfree : fetch.relation.cardinality = .oneToOne → (filled.reverse ++ given).Nodup) :
    giveRow child fetch row value filled given =
      .ok (given.reverse ++ filled, given.map fun owner => ⟨some e, some owner, fetch.index⟩) := by
  induction given generalizing filled with
  | nil => rfl
  | cons owner rest ih =>
      have hfresh : ¬(fetch.relation.cardinality = .oneToOne ∧ owner ∈ filled) := by
        rintro ⟨hone, hmem⟩
        have hnodup := hfree hone
        rw [List.nodup_append] at hnodup
        exact hnodup.2.2 owner (List.mem_reverse.2 hmem) owner List.mem_cons_self rfl
      rw [giveRow, if_neg hfresh, hread]
      simp only [Result.ok_bind]
      rw [ih (by simpa using hfree)]
      simp [Result.ok_bind, pure, Except.pure]

/-- A row that can be read is not given to an owner twice, nor to one that is filled. -/
theorem giveRow_of_taken {e : Entity} (hread : child.hydrate row = .ok e)
    (hsingle : fetch.relation.cardinality = .oneToOne) (hfilled : filled.Nodup)
    (htaken : ¬(filled.reverse ++ given).Nodup) :
    giveRow child fetch row value filled given =
      .error (fetch.rowError .duplicateOneToOne value) := by
  induction given generalizing filled with
  | nil => exact absurd (by simpa using hfilled) htaken
  | cons owner rest ih =>
      rw [giveRow]
      by_cases hmem : owner ∈ filled
      · rw [if_pos ⟨hsingle, hmem⟩]
        rfl
      · rw [if_neg fun hboth => hmem hboth.2, hread]
        simp only [Result.ok_bind]
        rw [ih (List.nodup_cons.2 ⟨hmem, hfilled⟩) (by simpa using htaken)]
        rfl

end Row

/-! ## All rows -/

namespace Fetch

variable {fetch : Fetch} {child : ClassMapping} {owners : Row → List Nat}
  {done rows rest : List Row} {row : Row}

/-- Rows given one after the other, each to the parents that the query has for it. -/
theorem giveRows_cons (hserved : fetch.IsServed) (filled : List Nat) :
    giveRows child fetch filled (row :: rest) =
      if fetch.ownersOf row = [] then
        .error (fetch.rowError .unmatchedForeignKey (fetch.foreignKeyOf row))
      else do
        let (after, given) ←
          giveRow child fetch row (fetch.foreignKeyOf row) filled (fetch.ownersOf row)
        let others ← giveRows child fetch after rest
        return given ++ others := by
  rw [giveRows, ownersOf, entered]
  cases hfind : fetch.owners.find? fun group => group.1.sameEntry (fetch.foreignKeyOf row) with
  | none => rfl
  | some group =>
      have hsome : group.2 ≠ [] := hserved group (List.mem_of_find?_eq_some hfind)
      exact (if_neg hsome).symm

/-- The owners that rows have filled, the last first. -/
private abbrev filledBy (owners : Row → List Nat) (rows : List Row) : List Nat :=
  (rows.flatMap owners).reverse

/-- After rows that could be given, a good row gives its owners a node each. -/
private theorem giveRows_of_isRoutable (hserved : fetch.IsServed)
    (howners : fetch.ownersOf row = owners row)
    (hrow : fetch.IsRoutable child owners (done ++ [row])) :
    giveRows child fetch (filledBy owners done) (row :: rest) =
      (giveRows child fetch (filledBy owners (done ++ [row])) rest).map
        (fetch.nodesOf child owners row ++ ·) := by
  obtain ⟨e, hread⟩ := hrow.readable row (by simp)
  have hfree : fetch.relation.cardinality = .oneToOne →
      ((filledBy owners done).reverse ++ owners row).Nodup := by
    intro hone
    simpa [filledBy] using hrow.single hone
  rw [giveRows_cons hserved, howners, if_neg (hrow.owned row (by simp)),
    giveRow_of_free hread hfree]
  have hfilled : (owners row).reverse ++ filledBy owners done =
      filledBy owners (done ++ [row]) := by
    simp [filledBy]
  simp only [Result.ok_bind, hfilled, nodesOf, hread]
  cases giveRows child fetch (filledBy owners (done ++ [row])) rest <;> rfl

/-- After rows that could be given, a row that offends ends the routing. -/
private theorem giveRows_of_offends (hserved : fetch.IsServed)
    (howners : fetch.ownersOf row = owners row)
    (hdone : fetch.IsRoutable child owners done) {e : Error}
    (hoffends : fetch.Offends child owners done row e) :
    giveRows child fetch (filledBy owners done) (row :: rest) = .error e := by
  rw [giveRows_cons hserved, howners]
  cases hoffends with
  | unmatched hnone => rw [if_pos hnone]
  | @unreadable first others _ hsome hfree hread =>
      have hfresh : ¬(fetch.relation.cardinality = .oneToOne ∧
          first ∈ filledBy owners done) := fun hboth =>
        hfree hboth.1 (List.mem_reverse.1 hboth.2)
      rw [if_neg (by simp [hsome]), hsome, giveRow, if_neg hfresh, hread]
      rfl
  | @repeated first others hsome hsingle htwice =>
      rw [if_neg (by simp [hsome]), hsome]
      rcases htwice with hfirst | ⟨⟨_, hread⟩, htwice⟩
      · rw [giveRow, if_pos ⟨hsingle, List.mem_reverse.2 hfirst⟩]
        rfl
      · rw [giveRow_of_taken hread hsingle (List.nodup_reverse.2 (hdone.single hsingle))
          (by simpa [filledBy, hsome] using htwice)]
        rfl

/-- Rows that can all be given are given, and the routing goes on behind them. -/
private theorem giveRows_append (done rest : List Row) (hserved : fetch.IsServed)
    (howners : ∀ row ∈ rows, fetch.ownersOf row = owners row)
    (hrows : fetch.IsRoutable child owners (done ++ rows)) :
    giveRows child fetch (filledBy owners done) (rows ++ rest) =
      (giveRows child fetch (filledBy owners (done ++ rows)) rest).map
        (rows.flatMap (fetch.nodesOf child owners) ++ ·) := by
  induction rows generalizing done with
  | nil =>
      rw [List.nil_append, List.append_nil]
      cases giveRows child fetch (filledBy owners done) rest <;> rfl
  | cons row later ih =>
      rw [List.forall_mem_cons] at howners
      rw [List.append_cons] at hrows
      rw [List.cons_append, giveRows_of_isRoutable hserved howners.1 (isRoutable_append hrows),
        ih (done ++ [row]) howners.2 hrows, ← List.append_cons]
      cases giveRows child fetch (filledBy owners (done ++ row :: later)) rest <;> simp [Except.map]

/-- The first row that offends ends the routing. -/
private theorem giveRows_stops (hserved : fetch.IsServed)
    (howners : ∀ other ∈ rows ++ row :: rest, fetch.ownersOf other = owners other)
    (hrows : fetch.IsRoutable child owners rows) {e : Error}
    (hoffends : fetch.Offends child owners rows row e) :
    giveRows child fetch [] (rows ++ row :: rest) = .error e := by
  have hgiven := giveRows_append [] (row :: rest) hserved
    (fun other hother => howners other (List.mem_append_left _ hother)) hrows
  rwa [List.nil_append, giveRows_of_offends hserved (howners row (by simp)) hrows
    hoffends] at hgiven

/-- The rows are routed exactly if they can all be given. -/
theorem giveRows_eq_ok (hserved : fetch.IsServed)
    (howners : ∀ row ∈ rows, fetch.ownersOf row = owners row) {nodes : List LoadedNode} :
    giveRows child fetch [] rows = .ok nodes ↔
      fetch.IsRoutable child owners rows ∧ nodes = rows.flatMap (fetch.nodesOf child owners) := by
  have hgiven : fetch.IsRoutable child owners rows →
      giveRows child fetch [] rows = .ok (rows.flatMap (fetch.nodesOf child owners)) := by
    intro hroutable
    simpa [giveRows, Except.map, filledBy] using
      giveRows_append [] [] hserved howners hroutable
  constructor
  · intro hnodes
    by_cases hroutable : fetch.IsRoutable child owners rows
    case pos =>
      rw [hgiven hroutable] at hnodes
      cases hnodes
      exact ⟨hroutable, rfl⟩
    case neg =>
      obtain ⟨good, bad, later, e, rfl, hgood, hoffends⟩ :=
        exists_offence [] isRoutable_nil hroutable
      rw [giveRows_stops hserved howners hgood hoffends] at hnodes
      cases hnodes
  · rintro ⟨hroutable, rfl⟩
    exact hgiven hroutable

/-- The first row that offends decides the error. -/
theorem giveRows_eq_error (hserved : fetch.IsServed)
    (howners : ∀ row ∈ rows, fetch.ownersOf row = owners row) {e : Error} :
    giveRows child fetch [] rows = .error e ↔
      ∃ good row rest, rows = good ++ row :: rest ∧ fetch.IsRoutable child owners good ∧
        fetch.Offends child owners good row e := by
  constructor
  · intro herror
    have hrows : ¬fetch.IsRoutable child owners rows := fun hroutable => by
      rw [(giveRows_eq_ok hserved howners).2 ⟨hroutable, rfl⟩] at herror
      cases herror
    obtain ⟨good, row, rest, other, rfl, hgood, hoffends⟩ :=
      exists_offence [] isRoutable_nil hrows
    rw [giveRows_stops hserved howners hgood hoffends] at herror
    cases herror
    exact ⟨good, row, rest, rfl, hgood, hoffends⟩
  · rintro ⟨good, row, rest, rfl, hgood, hoffends⟩
    exact giveRows_stops hserved howners hgood hoffends

end Fetch

/-- Rows are routed unless the first that offends contradicts the structure or cannot be
read. -/
theorem routeRows_failsWithin {registry : Registry} {fetch : Fetch} {strangers : Prop}
    (hserved : fetch.IsServed) (hchild : ∃ child, registry.find? fetch.child.id = some child)
    (rows : List Row) :
    Result.FailsWithin (Error.IsForeseen strangers) (routeRows registry fetch rows) := by
  obtain ⟨child, hchild⟩ := hchild
  rw [routeRows, Registry.mappingById_eq_ok.2 hchild, Result.ok_bind]
  intro e herror
  obtain ⟨_, row, _, _, _, hoffends⟩ :=
    (Fetch.giveRows_eq_error hserved fun _ _ => rfl).1 herror
  cases hoffends with
  | unmatched => trivial
  | repeated => trivial
  | unreadable _ _ hread => exact (child.hydrate_failsWithin row e hread).isForeseen

/-! ## Rows of a planned query -/

theorem entered_givenValues {referenced : Property} {parents : Numbered} {value : Value}
    (hzero : value.isZeroFree = true) :
    entered Value.sameEntry (grouped Value.sameEntry (givenValues referenced parents)) value =
      matchingParents referenced parents value := by
  rw [entered_grouped Value.sameEntry_comm fun _ _ _ => Value.sameEntry_trans, givenValues,
    matchingParents, List.filter_map, List.map_map, List.filter_filter]
  have hentry : ∀ parent : Nat × Entity,
      ((parent.2.read referenced.field).sameEntry value) =
        (parent.2.read referenced.field).keyEqual value := fun parent =>
    Bool.eq_iff_iff.2 (Value.sameEntry_iff hzero)
  simp only [Function.comp_def, hentry, Bool.and_comm]

namespace Fetch.IsFor

variable {fetch : Fetch} {registry : Registry} {relation : Relation} {index : Nat}
  {target : Target} {parents : Numbered} {foreignKey : ForeignKey}
  {mapping child : ClassMapping} {referenced : Property}

/-- A planned query gives a row to the parents that have its foreign key value. -/
theorem ownersOf_eq (hfor : fetch.IsFor registry relation index target parents foreignKey
    mapping child referenced) {row : Row}
    (hzero : (fetch.foreignKeyOf row).isZeroFree = true) :
    fetch.ownersOf row = matchingParents referenced parents (fetch.foreignKeyOf row) := by
  rw [Fetch.ownersOf, hfor.owners, entered_givenValues hzero]

theorem routeRows_eq (hfor : fetch.IsFor registry relation index target parents foreignKey
    mapping child referenced) (rows : List Row) :
    routeRows registry fetch rows = giveRows child fetch [] rows := by
  rw [routeRows, hfor.child, Registry.mappingById_eq_ok.2 hfor.childMapped, Result.ok_bind]

end Fetch.IsFor

/-- Where parents have different numbers, two rows give nobody two children exactly if
they have no parent in common. -/
theorem nodup_matchingParents {referenced : Property} {parents : Numbered}
    (hnodup : (parents.map Prod.fst).Nodup) {α : Type} (value : α → Value) (rows : List α) :
    (rows.flatMap fun row => matchingParents referenced parents (value row)).Nodup ↔
      rows.Pairwise fun row other =>
        ∀ parent ∈ matchingParents referenced parents (value row),
          parent ∉ matchingParents referenced parents (value other) := by
  have hmatching : ∀ row, (matchingParents referenced parents (value row)).Nodup := fun row =>
    hnodup.sublist (List.filter_sublist.map Prod.fst)
  rw [List.nodup_flatMap, and_iff_right fun row _ => hmatching row]
  rfl

/-- The rows of a planned query are routed exactly if all can be given to the parents
that have their foreign key values, and then they give each of them a node, row by row.
Otherwise the first row that offends decides the error. -/
theorem routeRows_planned {registry : Registry} {dialect : Dialect} {relation : Relation}
    {index : Nat} {target : Target} {parents : Numbered} {fetch : Fetch} {rows : List Row}
    (hplan : planRelation registry dialect relation index target parents =
      .ok (some fetch))
    (hzero : ∀ row ∈ rows, (fetch.foreignKeyOf row).isZeroFree = true) :
    ∃ foreignKey mapping child referenced,
      fetch.IsFor registry relation index target parents foreignKey mapping child
        referenced ∧
      let owners := fun row => matchingParents referenced parents (fetch.foreignKeyOf row)
      (∀ nodes, routeRows registry fetch rows = .ok nodes ↔
        fetch.IsRoutable child owners rows ∧
          nodes = rows.flatMap (fetch.nodesOf child owners)) ∧
      (∀ e, routeRows registry fetch rows = .error e ↔
        ∃ good row rest, rows = good ++ row :: rest ∧ fetch.IsRoutable child owners good ∧
          fetch.Offends child owners good row e) ∧
      ((parents.map Prod.fst).Nodup →
        ((rows.flatMap owners).Nodup ↔
          rows.Pairwise fun row other => ∀ parent ∈ owners row, parent ∉ owners other)) := by
  obtain ⟨foreignKey, mapping, child, referenced, hfor⟩ := planRelation_isFor hplan
  have howners : ∀ row ∈ rows, fetch.ownersOf row =
      matchingParents referenced parents (fetch.foreignKeyOf row) := fun row hrow =>
    hfor.ownersOf_eq (hzero row hrow)
  refine ⟨foreignKey, mapping, child, referenced, hfor, fun nodes => ?_, fun e => ?_,
    fun hnodup => nodup_matchingParents hnodup fetch.foreignKeyOf rows⟩
  · rw [hfor.routeRows_eq]
    exact Fetch.giveRows_eq_ok hfor.isServed howners
  · rw [hfor.routeRows_eq]
    exact Fetch.giveRows_eq_error hfor.isServed howners

namespace Shipping

/-- Two orders without their parcels, numbered. -/
def emptyOrders : Numbered := [(0, orderOf 1 []), (1, orderOf 2 [])]

def parcelsOfOrder : Relation :=
  ⟨"parcels", order, 0, .many parcel (some parentKey), none, []⟩

/-- The query for the parcels of both orders. -/
def parcelQuery : Fetch where
  relation := parcelsOfOrder
  index := 0
  child := parcel
  foreignKeyColumn := "parent_id"
  statement := ⟨"SELECT \"id\", \"parent_id\" FROM \"parcels\" WHERE \"parent_id\" IN (?1, ?2)",
    [.bigInt 1, .bigInt 2]⟩
  owners := [(.bigInt 1, [0]), (.bigInt 2, [1])]

/-- A parcel of the second order, whose number is written in a narrower column. -/
def parcelRow : Row := ⟨["id", "parent_id"], [.bigInt 7, .int 2]⟩

end Shipping

theorem parcel_goes_to_its_order :
    planRelation Shipping.registry .sqlite Shipping.parcelsOfOrder 0
        ⟨Shipping.parcel, some Shipping.parentKey, none⟩ Shipping.emptyOrders =
      .ok (some Shipping.parcelQuery) ∧
    (∀ row ∈ [Shipping.parcelRow], (Shipping.parcelQuery.foreignKeyOf row).isZeroFree = true) ∧
    routeRows Shipping.registry Shipping.parcelQuery [Shipping.parcelRow] =
      .ok [⟨some (Shipping.parcelOf 7 2 []), some 1, 0⟩] := by
  have hplan : planRelation Shipping.registry .sqlite Shipping.parcelsOfOrder 0
      ⟨Shipping.parcel, some Shipping.parentKey, none⟩ Shipping.emptyOrders =
        .ok (some Shipping.parcelQuery) := rfl
  have hzero : ∀ row ∈ [Shipping.parcelRow],
      (Shipping.parcelQuery.foreignKeyOf row).isZeroFree = true := by decide
  obtain ⟨_, _, child, referenced, hfor, hrouted, -, -⟩ := routeRows_planned hplan hzero
  cases hfor.refers
  cases hfor.mapped
  cases hfor.declared
  cases hfor.childMapped
  refine ⟨hplan, hzero, (hrouted _).2 ⟨⟨?_, ?_, ?_⟩, rfl⟩⟩
  · exact List.forall_mem_singleton.2 ⟨_, rfl⟩
  · exact List.forall_mem_singleton.2 (List.cons_ne_nil 1 [])
  · exact fun hone => nomatch hone

end AggregateSync
