import AggregateSync.Proofs.Database.Commands
import AggregateSync.Proofs.Value.Hashing

/-!
# A database in memory

A list of rows is a database in the sense of `Stores`.  It has some commands prepared, carries
out one of them when it gets its text with its parameters, counts up the keys that it assigns,
and refuses a row whose key it has and everything that is not prepared.
-/

namespace AggregateSync

/-- A database in memory: its rows, those that it had when the transaction began, and the
last key that it assigned. -/
structure Memory where
  records : List Record
  begun : List Record
  assigned : Int64

/-- Is the statement the text of the command, with its parameters? -/
def Command.isWrittenAs (dialect : Dialect) (statement : Statement) (command : Command) : Bool :=
  (command.build dialect).sql == statement.sql &&
    Value.itemsAreZeroFree (command.build dialect).params &&
    Value.equalItems (command.build dialect).params statement.params

theorem Command.build_of_isWrittenAs {dialect : Dialect} {statement : Statement}
    {command : Command} (hwritten : command.isWrittenAs dialect statement = true) :
    command.build dialect = statement := by
  simp only [isWrittenAs, Bool.and_eq_true, beq_iff_eq] at hwritten
  obtain ⟨⟨htext, hzero⟩, hparams⟩ := hwritten
  exact congr (congrArg Statement.mk htext) (Value.eq_of_equalItems hparams hzero)

namespace Memory

variable {registry : Registry} {dialect : Dialect} {prepared : List Command}

/-- The rows that are held. -/
def rows (memory : Memory) : Set Record := {record | record ∈ memory.records}

/-- Carries out a command, unless it is refused. -/
def carryOut (registry : Registry) (memory : Memory) : Command → Option Memory
  | .insert row =>
    match registry.mappings.filter fun mapping => mapping.table == row.table with
    | [mapping] =>
      let id := memory.assigned + 1
      let record := mapping.newRecord row.assignments id
      if id == 0 || memory.records.any (registry.sameKey record) then none
      else some { memory with records := record :: memory.records, assigned := id }
    | _ => none
  | .update change =>
    let written (record : Record) : Record :=
      if Engine.byKeyForm.selects change.table change.filter record then
        record.assign change.assignments
      else record
    some { memory with records := memory.records.map written }
  | .delete removal =>
    some { memory with
      records := memory.records.filter fun record =>
        !Engine.byKeyForm.selects removal.table removal.filter record }

/-- Carries out the prepared command that a statement is the text of. -/
def perform (registry : Registry) (dialect : Dialect) (prepared : List Command)
    (memory : Memory) (statement : Statement) : Option Memory :=
  (prepared.find? fun command => command.isClear && command.isWrittenAs dialect statement).bind
    (memory.carryOut registry)

/-- The error of a statement that is refused. -/
def refusal (statement : Statement) : Error := .query "refused" statement.sql none none

/-- Answers a request. -/
def answer (registry : Registry) (dialect : Dialect) (prepared : List Command) :
    (request : Request) → Memory → Outcome request.Answer × Memory
  | .query _ _, memory => (.ok [], memory)
  | .execute _ statement, memory =>
    match memory.perform registry dialect prepared statement with
    | some later => (.ok 1, later)
    | none => (.err (refusal statement), memory)
  | .insert _ statement, memory =>
    match memory.perform registry dialect prepared statement with
    | some later => (.ok later.assigned.toInt, later)
    | none => (.err (refusal statement), memory)
  | .begin, memory => (.ok (), { memory with begun := memory.records })
  | .commit, memory => (.ok (), memory)
  | .rollback, memory => (.ok (), { memory with records := memory.begun })

/-- The connection to a database in memory. -/
def environment (registry : Registry) (dialect : Dialect) (prepared : List Command) :
    Environment Memory :=
  ⟨answer registry dialect prepared, fun _ => none⟩

/-- What is carried out affects the rows as the command asks. -/
theorem affects_of_carryOut {memory later : Memory} {command : Command}
    (hlater : memory.carryOut registry command = some later) :
    command.Affects .byKeyForm registry later.assigned memory.rows later.rows := by
  cases command with
  | insert row =>
      rw [carryOut] at hlater
      split at hlater
      case h_2 => cases hlater
      case h_1 mapping hmapping =>
        dsimp only at hlater
        split at hlater
        case isTrue => cases hlater
        case isFalse hnew =>
          cases hlater
          rw [Bool.or_eq_true, not_or, Bool.not_eq_true, Bool.not_eq_true, List.any_eq_false]
            at hnew
          intro found hfound htable
          have hmem : found ∈ registry.mappings.filter fun mapping => mapping.table == row.table :=
            List.mem_filter.2 ⟨hfound, beq_iff_eq.2 htable⟩
          rw [hmapping, List.mem_singleton] at hmem
          subst hmem
          refine ⟨fun other hother => Bool.eq_false_iff.2 (hnew.2 other hother), ?_⟩
          ext record
          exact List.mem_cons
  | update change =>
      cases hlater
      ext record
      exact List.mem_map
  | delete removal =>
      cases hlater
      ext record
      change record ∈ List.filter _ _ ↔ _
      rw [List.mem_filter, Bool.not_eq_true']
      rfl

/-- What is carried out affects the rows as each clear command of the text asks. -/
theorem affects_of_perform {memory later : Memory} {command : Command}
    (hclear : command.isClear = true)
    (hlater : memory.perform registry dialect prepared (command.build dialect) = some later) :
    command.Affects .byKeyForm registry later.assigned memory.rows later.rows := by
  obtain ⟨known, hknown, hlater⟩ := Option.bind_eq_some_iff.1 hlater
  have hwritten := List.find?_some hknown
  rw [Bool.and_eq_true] at hwritten
  exact Command.affects_of_build_eq hwritten.1 hclear
    (Command.build_of_isWrittenAs hwritten.2) (affects_of_carryOut hlater)

/-- The key that an INSERT is assigned is not zero. -/
theorem assigned_ne_zero {memory later : Memory} {row : Insert}
    (hlater : memory.perform registry dialect prepared (row.build dialect) = some later) :
    later.assigned ≠ 0 := by
  obtain ⟨known, hknown, hlater⟩ := Option.bind_eq_some_iff.1 hlater
  have hwritten := List.find?_some hknown
  rw [Bool.and_eq_true] at hwritten
  rw [Command.eq_insert_of_build_eq (Command.build_of_isWrittenAs hwritten.2), carryOut] at hlater
  split at hlater
  case h_2 => cases hlater
  case h_1 =>
    dsimp only at hlater
    split at hlater
    case isTrue => cases hlater
    case isFalse hnew =>
      cases hlater
      rw [Bool.or_eq_true, not_or, beq_iff_eq] at hnew
      exact hnew.1

/-- A database in memory stores rows, whatever commands it has prepared. -/
theorem stores (registry : Registry) (dialect : Dialect) (prepared : List Command) :
    Stores (environment registry dialect prepared) registry dialect .byKeyForm rows := by
  constructor
  case insert =>
    intro channel row world assigned later hclear hanswer
    simp only [environment, answer] at hanswer
    cases hperform : world.perform registry dialect prepared (row.build dialect) with
    | none =>
        rw [hperform] at hanswer
        cases hanswer
    | some after =>
        rw [hperform] at hanswer
        cases hanswer
        exact ⟨_, fun _ => ⟨assigned_ne_zero hperform, rfl⟩,
          @affects_of_perform _ _ _ _ _ (.insert row) hclear hperform⟩
  case execute =>
    intro channel command world count later hclear hanswer
    simp only [environment, answer] at hanswer
    cases hperform : world.perform registry dialect prepared (command.build dialect) with
    | none =>
        rw [hperform] at hanswer
        cases hanswer
    | some after =>
        rw [hperform] at hanswer
        cases hanswer
        exact ⟨_, affects_of_perform hclear hperform⟩
  case begin =>
    intro world later hanswer
    cases hanswer
    rfl
  case commit =>
    intro world later hanswer
    cases hanswer
    rfl

end Memory

end AggregateSync
