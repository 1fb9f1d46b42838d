import AggregateSync.Sql.Expr
import AggregateSync.Value.Convert

/-!
# The truth of conditions

SQL knows three truth values, because what is compared with NULL is neither true nor false.
What the columns hold, what a comparison says of two values and what a fragment of the caller's
own stands for is left open here; the connectives, the tests for NULL and membership follow
from it.
-/

namespace AggregateSync

/-- A truth value. -/
inductive Truth where
  | yes
  | no
  | unknown
  deriving DecidableEq, Repr

namespace Truth

/-- The opposite, if it is known. -/
def not : Truth → Truth
  | yes => no
  | no => yes
  | unknown => unknown

/-- Both.  One that does not hold decides. -/
def and : Truth → Truth → Truth
  | no, _ | _, no => no
  | yes, yes => yes
  | _, _ => unknown

/-- At least one of two.  One that holds decides. -/
def or (left right : Truth) : Truth := (left.not.and right.not).not

/-- The truth value as a value. -/
def value : Truth → Value
  | yes => .bool true
  | no => .bool false
  | unknown => .null

@[simp]
theorem and_eq_yes {left right : Truth} : left.and right = yes ↔ left = yes ∧ right = yes := by
  cases left <;> cases right <;> decide

@[simp]
theorem or_eq_yes {left right : Truth} : left.or right = yes ↔ left = yes ∨ right = yes := by
  cases left <;> cases right <;> decide

end Truth

/-- The truth of a value that stands as a condition. -/
def Value.truth (value : Value) : Truth :=
  match value.asBool? with
  | some true => .yes
  | some false => .no
  | none => .unknown

@[simp]
theorem Truth.truth_value (truth : Truth) : truth.value.truth = truth := by
  cases truth <;> rfl

/-- How a database reads a condition at a row. -/
structure Reading where
  column : Option String → String → Value
  compare : BinaryOp → Value → Value → Truth
  raw : String → Value

namespace Expr

mutual

/-- The value of an expression.  A condition has its truth value. -/
def value (reading : Reading) : Expr → Value
  | column table name => reading.column table name
  | literal value => value
  | binary left .and right => ((value reading left).truth.and (value reading right).truth).value
  | binary left .or right => ((value reading left).truth.or (value reading right).truth).value
  | binary left op right => (reading.compare op (value reading left) (value reading right)).value
  | not operand => (value reading operand).truth.not.value
  | isIn operand items negated =>
    let found := anyEqual reading (value reading operand) items
    (if negated then found.not else found).value
  | isNull operand negated => .bool ((value reading operand).isNull != negated)
  | paren inner => value reading inner
  | raw sql => reading.raw sql

/-- Is a value equal to one of some expressions? -/
def anyEqual (reading : Reading) (sought : Value) : List Expr → Truth
  | [] => .no
  | item :: rest =>
    (reading.compare .eq sought (value reading item)).or (anyEqual reading sought rest)

end

/-- The truth of a condition. -/
def truth (reading : Reading) (condition : Expr) : Truth := (condition.value reading).truth

variable (reading : Reading)

theorem truth_and (left right : Expr) :
    (left.and right).truth reading = (left.truth reading).and (right.truth reading) :=
  Truth.truth_value _

theorem truth_columnIs (name : String) (value : Value) :
    (columnIs name value).truth reading =
      reading.compare .eq (reading.column none name) value :=
  Truth.truth_value _

/-- A value is in a list if it is equal to one of the literals. -/
theorem anyEqual_literals_eq_yes {sought : Value} {values : List Value} :
    anyEqual reading sought (values.map literal) = .yes ↔
      ∃ value ∈ values, reading.compare .eq sought value = .yes := by
  induction values with
  | nil => simp [anyEqual]
  | cons value rest ih => simp [anyEqual, Expr.value, ih]

end Expr

end AggregateSync
