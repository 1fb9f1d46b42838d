import AggregateSync.Error

/-!
# Kinds of errors

Errors have kinds: a configuration that does not fit, data that contradict the structure, a
value that cannot be converted, a statement that failed.  An error that is only a text of
its own is internal; it would be a fault of the program.

Some of the other errors cannot occur once a registry has accepted its mappings.  What is left
are the foreseen ones; of configuration errors these are the ones about what a registry does
not check, and one about relations, which needs an entity of a class that its relation does
not declare.
-/

namespace AggregateSync

/-- A fault that may be found although a registry accepted the mappings, given whether some
relation holds a stranger. -/
def ConfigurationFault.IsForeseen (strangers : Prop) : ConfigurationFault → Prop
  | .missingForeignKey | .keyGeneration | .invalidDiscriminator => True
  | .invalidRelation => strangers
  | .missingMapping | .missingKey | .typeMismatch | .invalidArgument => False

namespace Error

/-- An error of no kind, only a text. -/
def IsInternal (e : Error) : Prop := ∃ text, e = .custom text

/-- A value that cannot be converted. -/
def IsConversion (e : Error) : Prop := ∃ fault, e = .conversion fault

/-- An error that may occur although a registry accepted the mappings, given whether some
relation holds a stranger. -/
def IsForeseen (strangers : Prop) : Error → Prop
  | .configuration e => e.fault.IsForeseen strangers
  | .custom _ => False
  | _ => True

variable {strangers others : Prop} {e : Error}

theorem IsForeseen.mono (hmore : strangers → others) (he : e.IsForeseen strangers) :
    e.IsForeseen others := by
  cases e with
  | configuration e =>
      obtain ⟨fault, detail, subject, related⟩ := e
      cases fault with
      | invalidRelation => exact hmore he
      | _ => exact he
  | _ => exact he

theorem IsForeseen.not_isInternal (he : e.IsForeseen strangers) : ¬e.IsInternal := by
  rintro ⟨text, rfl⟩
  exact he

theorem IsConversion.isForeseen (he : e.IsConversion) : e.IsForeseen strangers := by
  obtain ⟨fault, rfl⟩ := he
  trivial

end Error

end AggregateSync
