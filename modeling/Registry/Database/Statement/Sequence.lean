import Registry.Database.Statement.Reader

/-! # Sequence — the statements of a text, one after the other

A text may hold several statements. Each is read when those before it have been run, so a text that
goes wrong in the middle has done what stands in front of that place. The answer counts the rows of
the statements; one that changes no rows counts those of the statement before it once more. -/

namespace Registry.Database

open Registry.Statement

-- How a single statement is run.
abbrev Mode := Database → Statement → Except DatabaseFault Database

/-- The database after the statements in some tokens, and the number of rows that they changed on
top of those before; the bound counts statements and semicolons. -/
def runTokens (mode : Mode) : Nat → Nat → List Token → Database → Except DatabaseFault Nat × Database
  | 0, count, _, db => (.ok count, db)
  | bound + 1, count, tokens, db =>
    match Reader.closed tokens with
    | .error rest => (.error (Reader.complaint rest), db)
    | .ok (none, rest) =>
      if rest.isEmpty then (.ok count, db) else runTokens mode bound count rest db
    | .ok (some statement, rest) =>
      match mode db statement with
      | .error fault => (.error fault, db.refused fault)
      | .ok db => runTokens mode bound (count + db.changed) rest db

/-- The database after the statements of a text, and the number of rows that they changed. -/
def runText (mode : Mode) (text : String) (db : Database) : Except DatabaseFault Nat × Database :=
  let tokens := Token.all text
  runTokens mode (tokens.length + 1) 0 tokens db

end Registry.Database
