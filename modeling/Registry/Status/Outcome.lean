import Registry.Database.Fault
import Registry.Text.LetterCase

/-! # Outcome — how an import ended

An import ends with success or failure. The words are written in capitals and read in any case. -/

namespace Registry

/-- Why a status cannot be told or kept. -/
inductive StatusFault where
  | database (fault : DatabaseFault)
  | invalidHome (home : String)
  | unknownOutcome (word : String)
  deriving DecidableEq, Repr

def StatusFault.message : StatusFault → String
  | database fault => s!"Status query failed: {fault.message}"
  | invalidHome home => s!"'{home}' cannot be used as a status table prefix"
  | unknownOutcome word => s!"Unknown import outcome '{word}'"

inductive Outcome where
  | success
  | failure
  deriving DecidableEq, Repr

namespace Outcome

def word : Outcome → String
  | success => "SUCCESS"
  | failure => "FAILURE"

/-- The outcome that a word denotes in whatever case of its letters. -/
def ofWord (word : String) : Except StatusFault Outcome :=
  match Text.upperCased word with
  | "SUCCESS" => .ok success
  | "FAILURE" => .ok failure
  | _ => .error (.unknownOutcome word)

theorem ofWord_word (o : Outcome) : ofWord o.word = .ok o := by
  cases o <;> rfl

end Outcome

end Registry
