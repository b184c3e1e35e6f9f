import Registry.Database.Statement
import Registry.Database.Statement.Phrase

/-! # Reader — statements in tokens

A statement begins with a key word that says what is wanted, and ends with a semicolon or with the
text. Key words are matched whatever the case of their letters. -/

namespace Registry.Statement.Reader

open Registry.Text

/-! ## Columns of a new table -/

/-- What is said of a column behind its type. -/
structure Marks where
  -- The rows of the table are known by the column.
  isPrimary : Bool := false
  isUnique : Bool := false
  required : Bool := false
  keepsCount : Bool := false
  initial : Cell := .null
  parent : Option Parent := none

/-- A column of a new table as it is described. -/
structure Described where
  name : String
  type : String
  marks : Marks

/-- What is to be done when something is against a mark; there may be nothing said. -/
def onConflict : Reader Unit := do
  if ← takesWord "ON" then
    word "CONFLICT"
    let _ ← name

/-- The moment at which a row has to have the one that it refers to, if it is said. -/
def deferral : Reader Bool := do
  let negative := (← seesWord "NOT") && (← peekBehind).any (Token.isWord "DEFERRABLE")
  if negative then advance
  if ← takesWord "DEFERRABLE" then
    if ← takesWord "INITIALLY" then
      if ← takesWord "DEFERRED" then return !negative
      word "IMMEDIATE"
  return false

/-- What is done with the rows that refer to a row that goes; all of it may be said several times. -/
def reactions : Nat → Reader Unit
  | 0 => return ()
  | n + 1 => do
    if ← takesWord "ON" then
      if !(← takesWord "DELETE") then
        if !(← takesWord "UPDATE") then word "INSERT"
      if ← takesWord "SET" then
        if !(← takesWord "NULL") then word "DEFAULT"
      else if ← takesWord "NO" then word "ACTION"
      else if !(← takesWord "CASCADE") then word "RESTRICT"
      reactions n
    else if ← takesWord "MATCH" then
      let _ ← name
      reactions n

/-- The table that a column refers to, behind the key word for it. -/
def parent : Reader Parent := do
  let table ← name
  let columns ← if ← seesMark "(" then inParentheses (commaList name) else pure []
  reactions (← bound)
  return { table, column := columns.headD "", deferred := ← deferral }

def initial : Reader Cell := do
  let cellOf (e : Expression) : Cell := (Query.value Query.depth (.bare .empty) e).cell
  if ← seesMark "(" then return cellOf (← inParentheses wholeExpression)
  let negative ← takesMark "-"
  if !negative then let _ ← takesMark "+"
  let some t ← peek | refuse
  match t.kind, constant? t, nameOf? false t with
  | .number, _, _ =>
    advance
    return numberCell negative t.written
  | _, some cell, _ =>
    advance
    return cell
  | _, none, some s =>
    advance
    return (Table.constant? s).getD (.text s)
  | _, none, none => refuse

def marksWithin : Nat → Marks → Reader Marks
  | 0, _ => refuse
  | n + 1, m => do
    if ← takesWord "CONSTRAINT" then
      let _ ← name
      marksWithin n m
    else if ← takesWord "PRIMARY" then
      word "KEY"
      if !(← takesWord "ASC") then let _ ← takesWord "DESC"
      onConflict
      let keepsCount ← takesWord "AUTOINCREMENT"
      marksWithin n { m with isPrimary := true, keepsCount }
    else if ← takesWord "NOT" then
      if ← seesWord "DEFERRABLE" then refuse
      word "NULL"
      onConflict
      marksWithin n { m with required := true }
    else if ← takesWord "NULL" then
      onConflict
      marksWithin n m
    else if ← takesWord "UNIQUE" then
      onConflict
      marksWithin n { m with isUnique := true }
    else if ← takesWord "CHECK" then
      let _ ← inParentheses wholeExpression
      marksWithin n m
    else if ← takesWord "DEFAULT" then marksWithin n { m with initial := ← initial }
    else if ← takesWord "COLLATE" then
      let _ ← name
      marksWithin n m
    else if ← takesWord "REFERENCES" then marksWithin n { m with parent := some (← parent) }
    else return m

def described : Reader Described := do
  let name ← name
  let type ← type
  return { name, type, marks := ← marksWithin (← bound) {} }

/-! ## New tables -/

/-- What is said of a new table: columns first, then what concerns several of them. -/
structure Sketch where
  columns : List Described := []

namespace Sketch

def mark (s : Sketch) (column : String) (change : Marks → Marks) : Sketch :=
  { s with columns := s.columns.map fun c =>
      if sameName c.name column then { c with marks := change c.marks } else c }

/-- The sketch with the columns that a pair of lists joins to those of another table. -/
def refer (s : Sketch) (columns : List String) (p : Parent) : Sketch :=
  columns.foldl (fun s column => s.mark column fun m => { m with parent := some p }) s

-- The column shows the numbers of the rows.
def isId (c : Described) : Bool := c.marks.isPrimary && sameName c.type "INTEGER"

def column (c : Described) : Column :=
  let affinity := Query.affinityOfType c.type
  { name := c.name, affinity, required := c.marks.required
    initial := affinity.coerce c.marks.initial
    uniqueness :=
      if c.marks.isPrimary then some .primary else if c.marks.isUnique then some .other else none
    parent := c.marks.parent }

def design (s : Sketch) (name : String) : TableDesign :=
  { name
    keepsCount := s.columns.any fun c => c.marks.keepsCount
    idColumn := (s.columns.find? isId).map Described.name
    idPlace := (s.columns.takeWhile fun c => !isId c).length
    columns := (s.columns.filter fun c => !isId c).map column }

end Sketch

def listedColumn : Reader String := do
  let name ← name
  if ← takesWord "COLLATE" then let _ ← Reader.name
  if !(← takesWord "ASC") then let _ ← takesWord "DESC"
  return name

def tableMarks : Nat → Sketch → Reader Sketch
  | 0, _ => refuse
  | n + 1, s => do
    if ← takesWord "CONSTRAINT" then
      let _ ← name
    let s ←
      if ← takesWord "PRIMARY" then
        word "KEY"
        let (columns, keepsCount) ← inParentheses do
          return (← commaList listedColumn, ← takesWord "AUTOINCREMENT")
        onConflict
        match columns with
        | [c] => pure (s.mark c fun m => { m with isPrimary := true, keepsCount })
        | _ => pure s
      else if ← takesWord "UNIQUE" then
        let columns ← inParentheses (commaList listedColumn)
        onConflict
        match columns with
        | [c] => pure (s.mark c fun m => { m with isUnique := true })
        | _ => pure s
      else if ← takesWord "CHECK" then
        let _ ← inParentheses wholeExpression
        onConflict
        pure s
      else if ← takesWord "FOREIGN" then
        word "KEY"
        let columns ← inParentheses (commaList name)
        word "REFERENCES"
        pure (s.refer columns (← parent))
      else refuse
    let _ ← takesMark ","
    if ← seesMark ")" then return s else tableMarks n s

def sketchWithin : Nat → Sketch → Reader Sketch
  | 0, _ => refuse
  | n + 1, s => do
    let c ← described
    let s := { s with columns := s.columns ++ [c] }
    let words := ["CONSTRAINT", "PRIMARY", "UNIQUE", "CHECK", "FOREIGN"]
    if ← takesMark "," then
      let some t ← peek | refuse
      if words.any fun w => Token.isWord w t then tableMarks (← bound) s else sketchWithin n s
    else return s

def tableOptions : Nat → Reader Unit
  | 0 => refuse
  | n + 1 => do
    if ← takesWord "WITHOUT" then
      let _ ← name
    else if ← seesWord "STRICT" then advance
    if ← takesMark "," then tableOptions n

/-- Whether a statement says that it concerns only what is there or what is not. -/
def condition (ws : List String) : Reader Bool := do
  if ← takesWord "IF" then
    words ws
    return true
  else return false

def createTable : Reader Statement := do
  let ifMissing ← condition ["NOT", "EXISTS"]
  let table ← tableName
  let sketch ← inParentheses do sketchWithin (← bound) {}
  tableOptions (← bound)
  return .createTable ifMissing (sketch.design table.name)

def createIndex : Reader Statement := do
  let ifMissing ← condition ["NOT", "EXISTS"]
  let index ← tableName
  word "ON"
  let table ← name
  let columns ← inParentheses (commaList listedColumn)
  let _ ← afterWord? "WHERE" wholeExpression
  return .createIndex ifMissing index.name table columns

def create : Reader Statement := do
  if ← takesWord "UNIQUE" then
    word "INDEX"
    createIndex
  else if ← takesWord "INDEX" then createIndex
  else
    if !(← takesWord "TEMP") then let _ ← takesWord "TEMPORARY"
    word "TABLE"
    createTable

def drop : Reader Statement := do
  if ← takesWord "INDEX" then
    let ifPresent ← condition ["EXISTS"]
    return .dropIndex ifPresent (← tableName).name
  else
    word "TABLE"
    let ifPresent ← condition ["EXISTS"]
    return .dropTable ifPresent (← tableName)

/-! ## Rows -/

/-- What is done with a row that is refused, if it is said behind the first word. -/
def policy : Reader Policy := do
  if ← takesWord "OR" then
    if ← takesWord "REPLACE" then return .replace
    else if ← takesWord "IGNORE" then return .skip
    else if !(← takesWord "ABORT") then
      if !(← takesWord "FAIL") then word "ROLLBACK"
  return .refuse

def otherName : Reader Unit := do
  let _ ← afterWord? "AS" name

def returning : Reader Unit := do
  if ← takesWord "RETURNING" then
    let n ← bound
    let _ ← commaList (item (8 * n))

def insertBehindName (given : Policy) : Reader Statement := do
  word "INTO"
  let table ← tableName
  otherName
  let columns ← if ← seesMark "(" then some <$> inParentheses (commaList name) else pure none
  if ← takesWord "DEFAULT" then
    word "VALUES"
    returning
    return .insert given table (some (columns.getD [])) (.values [[]])
  let q ← wholeQuery
  let policy ←
    if ← takesWord "ON" then
      word "CONFLICT"
      if ← seesMark "(" then
        let _ ← inParentheses (commaList listedColumn)
      words ["DO", "NOTHING"]
      pure Policy.skip
    else pure given
  returning
  return .insert policy table columns q

def assignment : Reader (String × Expression) := do
  let column ← name
  mark "="
  return (column, ← wholeExpression)

def update : Reader Statement := do
  let policy ← policy
  let table ← tableName
  otherName
  word "SET"
  let assignments ← commaList assignment
  let test ← afterWord? "WHERE" wholeExpression
  returning
  return .update policy table assignments test

def delete : Reader Statement := do
  word "FROM"
  let table ← tableName
  otherName
  let test ← afterWord? "WHERE" wholeExpression
  returning
  return .delete table test

/-! ## Statements -/

def statement : Reader Statement := do
  if ← takesWord "CREATE" then create
  else if ← takesWord "DROP" then drop
  else if ← takesWord "INSERT" then insertBehindName (← policy)
  else if ← takesWord "REPLACE" then insertBehindName .replace
  else if ← takesWord "UPDATE" then update
  else if ← takesWord "DELETE" then delete
  else return .query (← wholeQuery)

/-- A statement with the semicolon behind it; without any tokens before that there is none. -/
def closed : Reader (Option Statement) := do
  let some _ ← peek | return none
  if ← takesMark ";" then return none
  let s ← statement
  if (← peek).isSome then mark ";"
  return some s

def complaint : List Token → DatabaseFault
  | [] => .notFinished
  | t :: _ => if t.kind = .broken then .noToken t.written else .notUnderstood t.written

end Registry.Statement.Reader
