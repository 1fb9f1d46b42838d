import AggregateSync.Proofs.Sql.Symbols
import AggregateSync.Proofs.Sql.Truth

/-!
# Precedence

A database does not see the tree of a condition, only its symbols.  It groups them by how tightly
the operators bind: OR, AND, NOT, then comparisons and tests.  Which of the last bind tighter than
others differs between dialects, so it is left open here.  A condition is read that way from left
to right, what waits for its right operand being kept on a stack.  If no operand of the condition
binds looser than its place asks, and no comparison or test stands without brackets as an operand
of another, the reading gives the value of the tree whatever the dialect ranks higher.  Where
they do follow one another, it gives the value if all of them bind alike.
-/

namespace AggregateSync

/-! ## Levels -/

/-- How tightly an operator binds. -/
def BinaryOp.level : BinaryOp → Nat
  | or => 1
  | and => 2
  | eq | ne | lt | le | gt | ge => 4

/-- How tightly the right operand of an operator has to bind.  AND and OR may be nested to the
right, their grouping does not matter. -/
def BinaryOp.rightLevel : BinaryOp → Nat
  | or => 1
  | and => 2
  | eq | ne | lt | le | gt | ge => 5

/-- How tightly the comparisons and tests of a dialect bind, all of them tighter than NOT. -/
structure Ranks where
  comparison : BinaryOp → Nat
  isNull : Nat
  isIn : Nat
  comparison_tight : ∀ op, 4 ≤ comparison op
  isNull_tight : 4 ≤ isNull
  isIn_tight : 4 ≤ isIn

namespace Ranks

/-- All comparisons and tests bind alike. -/
def even : Ranks :=
  ⟨fun _ => 4, 4, 4, fun _ => Nat.le_refl 4, Nat.le_refl 4, Nat.le_refl 4⟩

/-- How tightly an operator binds in the dialect. -/
def level (ranks : Ranks) : BinaryOp → Nat
  | .or => 1
  | .and => 2
  | op => ranks.comparison op

/-- How tightly its right operand has to bind. -/
def rightLevel (ranks : Ranks) : BinaryOp → Nat
  | .or => 1
  | .and => 2
  | op => ranks.comparison op + 1

end Ranks

namespace Expr

/-- How tightly the outermost operator of an expression binds. -/
def level : Expr → Nat
  | binary _ op _ => op.level
  | not _ => 3
  | isIn _ (_ :: _) _ | isNull _ _ => 4
  | isIn _ [] _ | column _ _ | literal _ | paren _ | raw _ => 5

mutual

/-- Does every operand bind as tightly as its place asks?  Comparisons may follow one another
from the left. -/
def isGrouped : Expr → Bool
  | binary left op right =>
    isGrouped left && decide (op.level ≤ left.level) &&
      (isGrouped right && decide (op.rightLevel ≤ right.level))
  | not operand => isGrouped operand && decide (3 ≤ operand.level)
  | isIn _ [] _ => true
  | isIn operand (item :: items) _ =>
    isGrouped operand && decide (4 ≤ operand.level) && (isGrouped item && areGrouped items)
  | isNull operand _ => isGrouped operand && decide (4 ≤ operand.level)
  | paren inner => isGrouped inner
  | column _ _ | literal _ | raw _ => true

/-- Are all of the expressions grouped? -/
def areGrouped : List Expr → Bool
  | [] => true
  | item :: rest => isGrouped item && areGrouped rest

end

/-- Is the expression a column, a value or in brackets?  The constant that is left of membership
in an empty list is none, it is written as a comparison. -/
def isAtom : Expr → Bool
  | column _ _ | literal _ | paren _ | raw _ => true
  | binary _ _ _ | not _ | isIn _ _ _ | isNull _ _ => false

mutual

/-- Are columns, values and what is in brackets the only operands of comparisons and tests? -/
def isUnchained : Expr → Bool
  | binary left op right =>
    isUnchained left && isUnchained right &&
      (decide (op.level < 4) || (left.isAtom && right.isAtom))
  | not operand => isUnchained operand
  | isIn _ [] _ => true
  | isIn operand (item :: items) _ =>
    isUnchained operand && operand.isAtom && (isUnchained item && areUnchained items)
  | isNull operand _ => isUnchained operand && operand.isAtom
  | paren inner => isUnchained inner
  | column _ _ | literal _ | raw _ => true

/-- Is this so in all of the expressions? -/
def areUnchained : List Expr → Bool
  | [] => true
  | item :: rest => isUnchained item && areUnchained rest

end

theorem level_pos (e : Expr) : 1 ≤ e.level := by
  cases e with
  | binary left op right => cases op <;> exact Nat.le_add_left 1 _
  | isIn operand items negated => cases items <;> simp [level]
  | _ => simp [level]

end Expr

/-! ## Reading symbols -/

/-- What waits for an operand. -/
inductive Frame where
  | operator (op : BinaryOp) (left : Value)
  | not
  | group
  /-- A list that the value is sought in, as far as it was read. -/
  | member (sought : Value) (negated : Bool) (found : Truth)

/-- How tightly a frame binds what follows.  Brackets wait for their end. -/
def Frame.level (ranks : Ranks) : Frame → Nat
  | operator op _ => ranks.level op
  | not => 3
  | group | member _ _ _ => 0

/-- An operand that binds at least so tightly belongs to the last frame, unless the frame is of
its own level and may as well get its left operand first. -/
def Yields (ranks : Ranks) (level : Nat) : List Frame → Prop
  | [] => True
  | frame :: rest =>
    frame.level ranks < level ∨ frame.level ranks = level ∧ level < 4 ∧ Yields ranks level rest

namespace Reading

variable (reading : Reading) (ranks : Ranks)

/-- The value of an operator between two values. -/
def combine (op : BinaryOp) (left right : Value) : Value :=
  match op with
  | .and => (left.truth.and right.truth).value
  | .or => (left.truth.or right.truth).value
  | op => (reading.compare op left right).value

/-- The value of a frame that gets its operand. -/
def apply : Frame → Value → Value
  | .operator op left, operand => reading.combine op left operand
  | .not, operand => operand.truth.not.value
  | .group, operand | .member _ _ _, operand => operand

/-- Applies the frames that bind at least so tightly. -/
def reduce (level : Nat) : List Frame → Value → List Frame × Value
  | [], v => ([], v)
  | frame :: rest, v =>
    if level ≤ frame.level ranks then reduce level rest (reading.apply frame v)
    else (frame :: rest, v)

/-- A list in which one more item was read. -/
def extend (found : Truth) (sought item : Value) : Truth :=
  found.or (reading.compare .eq sought item)

/-- The end of brackets, all that stands in them being applied. -/
def close : List Frame × Value → Option (List Frame × Option Value)
  | (.group :: frames, inner) => some (frames, some inner)
  | (.member sought negated found :: frames, item) =>
    let found := reading.extend found sought item
    some (frames, some (if negated then found.not else found).value)
  | _ => none

/-- A comma, all that stands before it in the list being applied. -/
def next : List Frame × Value → Option (List Frame × Option Value)
  | (.member sought negated found :: frames, item) =>
    some (.member sought negated (reading.extend found sought item) :: frames, none)
  | _ => none

/-- Reads a symbol, behind the frames that wait and the operand that was read last. -/
def step : List Frame × Option Value → Symbol → Option (List Frame × Option Value)
  | (frames, none), .column table name => some (frames, some (reading.column table name))
  | (frames, none), .bound v => some (frames, some v)
  | (frames, none), .word .default => some (frames, some .default)
  | (frames, none), .word (.constant truth) => some (frames, some (.bool truth))
  | (frames, none), .word .not => some (.not :: frames, none)
  | (frames, none), .word .opening => some (.group :: frames, none)
  | (frames, some v), .word (.operator op) =>
    let (frames, left) := reading.reduce ranks (ranks.level op) frames v
    some (.operator op left :: frames, none)
  | (frames, some v), .word (.isNull negated) =>
    let (frames, tested) := reading.reduce ranks ranks.isNull frames v
    some (frames, some (.bool (tested.isNull != negated)))
  | (frames, some v), .word (.isIn negated) =>
    let (frames, sought) := reading.reduce ranks ranks.isIn frames v
    some (.member sought negated .no :: frames, none)
  | (frames, some v), .word .comma => reading.next (reading.reduce ranks 1 frames v)
  | (frames, some v), .word .closing => reading.close (reading.reduce ranks 1 frames v)
  | _, _ => none

/-- Reads symbols one after the other. -/
def run (state : List Frame × Option Value) (symbols : List Symbol) :
    Option (List Frame × Option Value) :=
  symbols.foldlM (reading.step ranks) state

/-- The value of symbols that are a whole condition. -/
def read (symbols : List Symbol) : Option Value :=
  match reading.run ranks ([], none) symbols with
  | some (frames, some v) =>
    match reading.reduce ranks 1 frames v with
    | ([], v) => some v
    | _ => none
  | _ => none

/-- Behind the symbols the reading stands as though it had read the value, for every operator
that does not bind tighter than they do. -/
def Leads (frames : List Frame) (symbols : List Symbol) (level : Nat) (v : Value) : Prop :=
  ∃ waiting last, reading.run ranks (frames, none) symbols = some (waiting, some last) ∧
    ∀ lower, 1 ≤ lower → lower ≤ level →
      reading.reduce ranks lower waiting last = reading.reduce ranks lower frames v

end Reading

section Steps

variable {reading : Reading} {ranks : Ranks}

theorem Reading.run_append (state : List Frame × Option Value) (symbols others : List Symbol) :
    reading.run ranks state (symbols ++ others) =
      (reading.run ranks state symbols).bind fun state => reading.run ranks state others :=
  List.foldlM_append

theorem Reading.run_cons (state : List Frame × Option Value) (symbol : Symbol)
    (rest : List Symbol) : reading.run ranks state (symbol :: rest) =
      (reading.step ranks state symbol).bind fun state => reading.run ranks state rest :=
  List.foldlM_cons

@[simp]
theorem Reading.run_singleton (state : List Frame × Option Value) (symbol : Symbol) :
    reading.run ranks state [symbol] = reading.step ranks state symbol :=
  Option.bind_fun_some _

/-! ## Ranks -/

/-- Only AND and OR bind looser than comparisons. -/
theorem Ranks.and_or_of_level_lt {op : BinaryOp} (hop : ranks.level op < 4) :
    op = .and ∨ op = .or := by
  cases op with
  | and => exact .inl rfl
  | or => exact .inr rfl
  | _ => exact absurd hop (Nat.not_lt.2 (ranks.comparison_tight _))

theorem BinaryOp.level_le (op : BinaryOp) (ranks : Ranks) : op.level ≤ ranks.level op := by
  cases op with
  | and => exact Nat.le_refl 2
  | or => exact Nat.le_refl 1
  | _ => exact ranks.comparison_tight _

theorem Ranks.level_pos (ranks : Ranks) (op : BinaryOp) : 1 ≤ ranks.level op := by
  have hpos : 1 ≤ op.level := by cases op <;> decide
  exact Nat.le_trans hpos (op.level_le ranks)

theorem Ranks.level_le_rightLevel (op : BinaryOp) : ranks.level op ≤ ranks.rightLevel op := by
  cases op with
  | and => exact Nat.le_refl 2
  | or => exact Nat.le_refl 1
  | _ => exact Nat.le_succ _

/-- The level of AND and OR is the same in all dialects, and so is that of the others if they all
bind alike. -/
theorem Ranks.levels_eq {op : BinaryOp} (hranks : ranks = .even ∨ op.level < 4) :
    ranks.level op = op.level ∧ ranks.rightLevel op = op.rightLevel := by
  rcases hranks with rfl | hop
  · cases op <;> exact ⟨rfl, rfl⟩
  · cases op with
    | and => exact ⟨rfl, rfl⟩
    | or => exact ⟨rfl, rfl⟩
    | _ => exact absurd hop (by decide)

/-! ## What waits -/

theorem Yields.mono {lower higher : Nat} {frames : List Frame}
    (hyields : Yields ranks lower frames) (hle : lower ≤ higher) :
    Yields ranks higher frames := by
  rcases Nat.eq_or_lt_of_le hle with rfl | hlt
  · exact hyields
  · cases frames with
    | nil => trivial
    | cons frame rest =>
        left
        rcases hyields with hframe | ⟨hframe, _⟩
        · exact Nat.lt_trans hframe hlt
        · exact hframe ▸ hlt

/-- Frames that yield to comparisons are not applied by them. -/
theorem Reading.reduce_eq_self {level : Nat} {frames : List Frame}
    (hyields : Yields ranks level frames) (hlevel : 4 ≤ level) (v : Value) :
    reading.reduce ranks level frames v = (frames, v) := by
  cases frames with
  | nil => rfl
  | cons frame rest =>
      rw [reduce, if_neg]
      rcases hyields with hframe | ⟨_, hlow, _⟩
      · exact Nat.not_le.2 hframe
      · exact absurd hlow (Nat.not_lt.2 hlevel)

/-- What is left after applying frames yields to what comes next. -/
theorem Reading.yields_reduce (level : Nat) (frames : List Frame) (v : Value) :
    Yields ranks level (reading.reduce ranks level frames v).1 := by
  induction frames generalizing v with
  | nil => trivial
  | cons frame rest ih =>
      rw [reduce]
      split
      · exact ih _
      · next hframe => exact .inl (Nat.not_le.1 hframe)

theorem Truth.and_assoc (first second third : Truth) :
    (first.and second).and third = first.and (second.and third) := by
  cases first <;> cases second <;> cases third <;> rfl

theorem Truth.or_assoc (first second third : Truth) :
    (first.or second).or third = first.or (second.or third) := by
  cases first <;> cases second <;> cases third <;> rfl

theorem Truth.no_or (truth : Truth) : Truth.no.or truth = truth := by
  cases truth <;> rfl

theorem Truth.or_no (truth : Truth) : truth.or .no = truth := by
  cases truth <;> rfl

/-- AND and OR may be grouped either way. -/
theorem Reading.combine_assoc {op : BinaryOp} (hop : ranks.level op < 4)
    (first second third : Value) :
    reading.combine op (reading.combine op first second) third =
      reading.combine op first (reading.combine op second third) := by
  rcases Ranks.and_or_of_level_lt hop with rfl | rfl
  · simp only [combine, Truth.truth_value, Truth.and_assoc]
  · simp only [combine, Truth.truth_value, Truth.or_assoc]

/-- A frame of the level of AND or OR is one of the same operator. -/
theorem Frame.eq_operator {op : BinaryOp} {frame : Frame} (hop : ranks.level op < 4)
    (hlevel : frame.level ranks = ranks.level op) : ∃ first, frame = operator op first := by
  cases frame with
  | operator other first =>
      have hsame : ranks.level other = ranks.level op := hlevel
      have hother : ranks.level other < 4 := hsame ▸ hop
      rcases Ranks.and_or_of_level_lt hop with rfl | rfl <;>
        rcases Ranks.and_or_of_level_lt hother with rfl | rfl <;>
        first | exact ⟨first, rfl⟩ | cases hsame
  | not => rcases Ranks.and_or_of_level_lt hop with rfl | rfl <;> cases hlevel
  | group => rcases Ranks.and_or_of_level_lt hop with rfl | rfl <;> cases hlevel
  | member sought negated found =>
      rcases Ranks.and_or_of_level_lt hop with rfl | rfl <;> cases hlevel

/-- An operator whose left operand is completed by what waits has the value of the tree. -/
theorem Reading.reduce_combine {op : BinaryOp} {frames : List Frame} {level : Nat}
    (hyields : Yields ranks (ranks.level op) frames) (hlevel : level ≤ ranks.level op)
    (left right : Value) :
    reading.reduce ranks level (reading.reduce ranks (ranks.level op) frames left).1
        (reading.combine op (reading.reduce ranks (ranks.level op) frames left).2 right) =
      reading.reduce ranks level frames (reading.combine op left right) := by
  induction frames generalizing left with
  | nil => rfl
  | cons frame rest ih =>
      rcases hyields with hframe | ⟨hframe, hlow, hrest⟩
      · rw [reduce, if_neg (Nat.not_le.2 hframe)]
      · obtain ⟨first, rfl⟩ := Frame.eq_operator hlow hframe
        rw [reduce, if_pos (Nat.le_of_eq hframe.symm), ih hrest, reduce,
          if_pos (hframe ▸ hlevel), apply, apply, combine_assoc hlow]

/-! ## Reading a tree -/

theorem Reading.leads_atom {frames : List Frame} {symbol : Symbol} {v : Value}
    (hstep : reading.step ranks (frames, none) symbol = some (frames, some v)) (level : Nat) :
    reading.Leads ranks frames [symbol] level v :=
  ⟨frames, v, (run_singleton _ _).trans hstep, fun _ _ _ => rfl⟩

theorem Reading.Leads.mono {frames : List Frame} {symbols : List Symbol} {lower level : Nat}
    {v : Value} (hleads : reading.Leads ranks frames symbols level v) (hle : lower ≤ level) :
    reading.Leads ranks frames symbols lower v := by
  obtain ⟨waiting, last, hrun, hreduce⟩ := hleads
  exact ⟨waiting, last, hrun, fun lowest hpos hlowest =>
    hreduce lowest hpos (Nat.le_trans hlowest hle)⟩

/-- What an operator waits for on its right belongs to it, if it binds tightly enough. -/
theorem Ranks.yields_operator {op : BinaryOp} {frames : List Frame} {left : Value}
    (hyields : Yields ranks (ranks.level op) frames) :
    Yields ranks (ranks.rightLevel op) (.operator op left :: frames) := by
  cases op with
  | and => exact .inr ⟨rfl, show 2 < 4 by decide, hyields⟩
  | or => exact .inr ⟨rfl, show 1 < 4 by decide, hyields⟩
  | _ => exact .inl (Nat.lt_succ_self _)

theorem Reading.leads_operator {op : BinaryOp} {frames : List Frame}
    {symbols others : List Symbol} {left right : Value}
    (hyields : Yields ranks (ranks.level op) frames)
    (hleft : reading.Leads ranks frames symbols (ranks.level op) left)
    (hothers : ∀ frames, Yields ranks (ranks.rightLevel op) frames →
      reading.Leads ranks frames others (ranks.rightLevel op) right) :
    reading.Leads ranks frames (symbols ++ .word (.operator op) :: others) (ranks.level op)
      (reading.combine op left right) := by
  obtain ⟨waiting, last, hrun, hreduce⟩ := hleft
  have hstep : reading.step ranks (waiting, some last) (.word (.operator op)) =
      some (.operator op (reading.reduce ranks (ranks.level op) frames left).2 ::
        (reading.reduce ranks (ranks.level op) frames left).1, none) := by
    rw [step, hreduce _ (ranks.level_pos op) (Nat.le_refl _)]
  obtain ⟨waiting', last', hrun', hreduce'⟩ :=
    hothers _ (Ranks.yields_operator (yields_reduce _ frames left))
  refine ⟨waiting', last', ?_, fun lower hpos hle => ?_⟩
  · rw [run_append, hrun, Option.bind_some, run_cons, hstep]
    exact hrun'
  · have hlower : lower ≤ ranks.rightLevel op := Nat.le_trans hle (Ranks.level_le_rightLevel op)
    calc reading.reduce ranks lower waiting' last'
        = reading.reduce ranks lower (reading.reduce ranks (ranks.level op) frames left).1
            (reading.combine op (reading.reduce ranks (ranks.level op) frames left).2 right) := by
          rw [hreduce' lower hpos hlower, reduce, Frame.level, if_pos hle, apply]
      _ = reading.reduce ranks lower frames (reading.combine op left right) :=
          reduce_combine hyields hle left right

theorem Reading.leads_not {frames : List Frame} {symbols : List Symbol} {v : Value}
    (hoperand : reading.Leads ranks (.not :: frames) symbols 3 v) :
    reading.Leads ranks frames (.word .not :: symbols) 3 v.truth.not.value := by
  obtain ⟨waiting, last, hrun, hreduce⟩ := hoperand
  refine ⟨waiting, last, (run_cons _ _ _).trans hrun, fun lower hpos hle => ?_⟩
  rw [hreduce lower hpos hle, reduce, Frame.level, if_pos hle, apply]

theorem Reading.leads_isNull {frames : List Frame} {symbols : List Symbol} {v : Value}
    (hyields : Yields ranks ranks.isNull frames)
    (hoperand : reading.Leads ranks frames symbols ranks.isNull v) (negated : Bool) (level : Nat) :
    reading.Leads ranks frames (symbols ++ [.word (.isNull negated)]) level
      (.bool (v.isNull != negated)) := by
  obtain ⟨waiting, last, hrun, hreduce⟩ := hoperand
  have htight := ranks.isNull_tight
  refine ⟨frames, _, ?_, fun _ _ _ => rfl⟩
  rw [run_append, hrun, Option.bind_some, run_singleton, step,
    hreduce _ (Nat.le_trans (by decide) htight) (Nat.le_refl _), reduce_eq_self hyields htight]

theorem Reading.leads_paren {frames : List Frame} {symbols : List Symbol} {v : Value}
    (hinner : reading.Leads ranks (.group :: frames) symbols 1 v) (level : Nat) :
    reading.Leads ranks frames (.word .opening :: (symbols ++ [.word .closing])) level v := by
  obtain ⟨waiting, last, hrun, hreduce⟩ := hinner
  refine ⟨frames, v, ?_, fun _ _ _ => rfl⟩
  refine (run_cons _ _ _).trans ?_
  rw [step, Option.bind_some, run_append, hrun, Option.bind_some, run_singleton, step,
    hreduce 1 (Nat.le_refl 1) (Nat.le_refl 1)]
  rfl

/-- A test against a list is read when the list is. -/
theorem Reading.leads_isIn {frames : List Frame} {symbols items : List Symbol}
    {sought v : Value} {negated : Bool} (hyields : Yields ranks ranks.isIn frames)
    (hoperand : reading.Leads ranks frames symbols ranks.isIn sought)
    (hitems : reading.run ranks (.member sought negated .no :: frames, none) items =
      some (frames, some v)) (level : Nat) :
    reading.Leads ranks frames (symbols ++ .word (.isIn negated) :: items) level v := by
  obtain ⟨waiting, last, hrun, hreduce⟩ := hoperand
  have htight := ranks.isIn_tight
  refine ⟨frames, v, ?_, fun _ _ _ => rfl⟩
  rw [run_append, hrun, Option.bind_some, run_cons, step,
    hreduce _ (Nat.le_trans (by decide) htight) (Nat.le_refl _), reduce_eq_self hyields htight]
  exact hitems

/-- Behind an item of a list, everything up to the list can be applied. -/
theorem Reading.run_item {frames : List Frame} {sought v : Value} {negated : Bool}
    {found : Truth} {symbols : List Symbol}
    (hitem : reading.Leads ranks (.member sought negated found :: frames) symbols 1 v) :
    ∃ waiting last,
      reading.run ranks (.member sought negated found :: frames, none) symbols =
        some (waiting, some last) ∧
      reading.reduce ranks 1 waiting last = (.member sought negated found :: frames, v) := by
  obtain ⟨waiting, last, hrun, hreduce⟩ := hitem
  exact ⟨waiting, last, hrun, hreduce 1 (Nat.le_refl 1) (Nat.le_refl 1)⟩

theorem Expr.value_binary (left : Expr) (op : BinaryOp) (right : Expr) :
    (binary left op right).value reading =
      reading.combine op (left.value reading) (right.value reading) := by
  cases op <;> rfl

/-- The operands of an operator bind as tightly as a dialect asks if they do so by their place,
and where comparisons are ranked they are no comparisons themselves. -/
theorem Ranks.binds_operands {left right : Expr} {op : BinaryOp}
    (hchained : ranks = .even ∨ (Expr.binary left op right).isUnchained = true)
    (hleft : op.level ≤ left.level) (hright : op.rightLevel ≤ right.level) :
    (ranks.level op ≤ left.level ∨ left.isAtom = true) ∧
      (ranks.rightLevel op ≤ right.level ∨ right.isAtom = true) := by
  have hranks : (ranks = .even ∨ op.level < 4) ∨ left.isAtom = true ∧ right.isAtom = true := by
    rcases hchained with heven | hunchained
    · exact .inl (.inl heven)
    · simp only [Expr.isUnchained, Bool.and_eq_true, Bool.or_eq_true, decide_eq_true_eq]
        at hunchained
      exact hunchained.2.imp_left .inr
  rcases hranks with hsame | ⟨hatom, hatom'⟩
  · rw [(levels_eq hsame).1, (levels_eq hsame).2]
    exact ⟨.inl hleft, .inl hright⟩
  · exact ⟨.inr hatom, .inr hatom'⟩

mutual

/-- Reading the symbols of a grouped expression comes to the value of its tree, behind everything
that yields to it. -/
theorem Expr.leads_symbols (e : Expr) (hraw : e.isRawFree = true) (hgrouped : e.isGrouped = true)
    (hchained : ranks = .even ∨ e.isUnchained = true) {level : Nat}
    (hbinds : level ≤ e.level ∨ e.isAtom = true) {frames : List Frame}
    (hyields : Yields ranks level frames) :
    reading.Leads ranks frames e.symbols level (e.value reading) := by
  cases e with
  | column table name => exact Reading.leads_atom rfl level
  | literal v => cases v <;> exact Reading.leads_atom rfl level
  | binary left op right =>
      rw [isRawFree, Bool.and_eq_true] at hraw
      have hparts : ranks = .even ∨ left.isUnchained = true ∧ right.isUnchained = true := by
        refine hchained.imp_right fun hunchained => ?_
        simp only [isUnchained, Bool.and_eq_true] at hunchained
        exact hunchained.1
      simp only [isGrouped, Bool.and_eq_true, decide_eq_true_eq] at hgrouped
      obtain ⟨⟨hleft, hlevel⟩, hright, hrightLevel⟩ := hgrouped
      obtain ⟨hbindsLeft, hbindsRight⟩ := Ranks.binds_operands hchained hlevel hrightLevel
      have hle : level ≤ ranks.level op :=
        Nat.le_trans (hbinds.resolve_right Bool.false_ne_true) (op.level_le ranks)
      rw [value_binary]
      exact (Reading.leads_operator (hyields.mono hle)
        (leads_symbols left hraw.1 hleft (hparts.imp_right And.left) hbindsLeft
          (hyields.mono hle))
        fun frames hframes => leads_symbols right hraw.2 hright (hparts.imp_right And.right)
          hbindsRight hframes).mono hle
  | not operand =>
      simp only [isGrouped, Bool.and_eq_true, decide_eq_true_eq] at hgrouped
      have hle : level ≤ 3 := hbinds.resolve_right Bool.false_ne_true
      have hnot : Yields ranks 3 (.not :: frames) := .inr ⟨rfl, by decide, hyields.mono hle⟩
      exact (Reading.leads_not
        (leads_symbols operand hraw hgrouped.1 hchained (.inl hgrouped.2) hnot)).mono hle
  | isIn operand items negated =>
      rw [isRawFree, Bool.and_eq_true] at hraw
      cases items with
      | nil => exact Reading.leads_atom (by cases negated <;> rfl) level
      | cons item rest =>
          rw [areRawFree, Bool.and_eq_true] at hraw
          simp only [isGrouped, Bool.and_eq_true, decide_eq_true_eq] at hgrouped
          obtain ⟨⟨hoperand, hlevel⟩, hitem, hrest⟩ := hgrouped
          have hparts : ranks = .even ∨ (operand.isUnchained = true ∧ operand.isAtom = true) ∧
              item.isUnchained = true ∧ areUnchained rest = true := by
            refine hchained.imp_right fun hunchained => ?_
            simpa only [isUnchained, Bool.and_eq_true] using hunchained
          have hbindsOperand : ranks.isIn ≤ operand.level ∨ operand.isAtom = true := by
            rcases hparts with rfl | hparts
            · exact .inl hlevel
            · exact .inr hparts.1.2
          have hle : level ≤ ranks.isIn :=
            Nat.le_trans (hbinds.resolve_right Bool.false_ne_true) ranks.isIn_tight
          refine Reading.leads_isIn (hyields.mono hle)
            (leads_symbols operand hraw.1 hoperand (hparts.imp_right fun hparts => hparts.1.1)
              hbindsOperand (hyields.mono hle)) ?_ level
          obtain ⟨waiting, last, hrun, hlast⟩ := Reading.run_item
            (leads_symbols item hraw.2.1 hitem (hparts.imp_right fun hparts => hparts.2.1)
              (.inl item.level_pos) (.inl Nat.one_pos))
          rw [Reading.run_append, hrun, Option.bind_some, run_items rest hraw.2.2 hrest
            (hparts.imp_right fun hparts => hparts.2.2) hlast, Truth.no_or]
          rfl
  | isNull operand negated =>
      simp only [isGrouped, Bool.and_eq_true, decide_eq_true_eq] at hgrouped
      have hparts : ranks = .even ∨ operand.isUnchained = true ∧ operand.isAtom = true := by
        refine hchained.imp_right fun hunchained => ?_
        simpa only [isUnchained, Bool.and_eq_true] using hunchained
      have hbindsOperand : ranks.isNull ≤ operand.level ∨ operand.isAtom = true := by
        rcases hparts with rfl | hparts
        · exact .inl hgrouped.2
        · exact .inr hparts.2
      have hle : level ≤ ranks.isNull :=
        Nat.le_trans (hbinds.resolve_right Bool.false_ne_true) ranks.isNull_tight
      exact Reading.leads_isNull (hyields.mono hle)
        (leads_symbols operand hraw hgrouped.1 (hparts.imp_right And.left) hbindsOperand
          (hyields.mono hle)) negated level
  | paren inner =>
      exact Reading.leads_paren
        (leads_symbols inner hraw hgrouped hchained (.inl inner.level_pos) (.inl Nat.one_pos))
        level
  | raw sql => cases hraw

/-- Behind one item of a list, reading the others comes to the value of membership. -/
theorem Expr.run_items (items : List Expr) (hraw : areRawFree items = true)
    (hgrouped : areGrouped items = true) (hchained : ranks = .even ∨ areUnchained items = true)
    {frames waiting : List Frame} {last sought v : Value} {negated : Bool} {found : Truth}
    (hlast : reading.reduce ranks 1 waiting last = (.member sought negated found :: frames, v)) :
    reading.run ranks (waiting, some last) (symbolsOfItems items ++ [.word .closing]) =
      let found := found.or ((reading.compare .eq sought v).or (anyEqual reading sought items))
      some (frames, some (if negated then found.not else found).value) := by
  cases items with
  | nil =>
      rw [symbolsOfItems, List.nil_append, Reading.run_singleton, Reading.step, hlast, anyEqual,
        Truth.or_no]
      rfl
  | cons item rest =>
      rw [areRawFree, Bool.and_eq_true] at hraw
      rw [areGrouped, Bool.and_eq_true] at hgrouped
      have hparts : ranks = .even ∨ item.isUnchained = true ∧ areUnchained rest = true := by
        refine hchained.imp_right fun hunchained => ?_
        rwa [areUnchained, Bool.and_eq_true] at hunchained
      have hcomma : reading.step ranks (waiting, some last) (.word .comma) =
          some (.member sought negated (reading.extend found sought v) :: frames, none) := by
        rw [Reading.step, hlast, Reading.next]
      obtain ⟨waiting', last', hrun, hlast'⟩ := Reading.run_item
        (leads_symbols item hraw.1 hgrouped.1 (hparts.imp_right And.left) (.inl item.level_pos)
          (.inl Nat.one_pos))
      rw [symbolsOfItems, List.cons_append, List.append_assoc, Reading.run_cons, hcomma,
        Option.bind_some, Reading.run_append, hrun, Option.bind_some,
        run_items rest hraw.2 hgrouped.2 (hparts.imp_right And.right) hlast', Reading.extend,
        Truth.or_assoc, anyEqual]

end

/-- The symbols of a grouped expression are read as its value, by a dialect in which all
comparisons and tests bind alike, and by every dialect if none stands as an operand of another. -/
theorem Expr.read_symbols (e : Expr) (hraw : e.isRawFree = true)
    (hgrouped : e.isGrouped = true) (hchained : ranks = .even ∨ e.isUnchained = true) :
    reading.read ranks e.symbols = some (e.value reading) := by
  have hleads : reading.Leads ranks [] e.symbols 1 (e.value reading) :=
    e.leads_symbols hraw hgrouped hchained (.inl e.level_pos) trivial
  obtain ⟨waiting, last, hrun, hreduce⟩ := hleads
  rw [Reading.read, hrun]
  simp only [hreduce 1 (Nat.le_refl 1) (Nat.le_refl 1), Reading.reduce]

end Steps

end AggregateSync
