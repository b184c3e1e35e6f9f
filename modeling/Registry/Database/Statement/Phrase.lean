import Registry.Database.Query.Basic
import Registry.Database.Statement.Token

/-! # Phrase — expressions and queries in tokens

A reader takes tokens off the front of a list, or says before which tokens it gave up. What it does
next depends on the next token alone, so the first token that fits nothing is the one to complain
about. Operators bind in ten steps; those of one step are taken from the left. -/

namespace Registry.Statement

open Registry.Text

/-- A reader of tokens; in vain, it leaves those that begin with the one that does not fit. -/
abbrev Reader (α : Type) := StateT (List Token) (Except (List Token)) α

namespace Reader

/-! ## Single tokens -/

def refuse {α : Type} : Reader α := fun tokens => .error tokens

def peek : Reader (Option Token) := fun tokens => .ok (tokens.head?, tokens)

def peekBehind : Reader (Option Token) := fun tokens => .ok (tokens.tail.head?, tokens)

def advance : Reader Unit := fun tokens => .ok ((), tokens.tail)

-- Whether the next token passes a test; then it is taken.
def taken (test : Token → Bool) : Reader Bool := do
  let here := (← peek).any test
  if here then advance
  return here

def takesWord (word : String) : Reader Bool := taken (Token.isWord word)

def takesMark (mark : String) : Reader Bool := taken (Token.isMark mark)

def required (test : Token → Bool) : Reader Unit := do
  if !(← taken test) then refuse

def word (w : String) : Reader Unit := required (Token.isWord w)

def words (ws : List String) : Reader Unit := ws.forM word

def mark (m : String) : Reader Unit := required (Token.isMark m)

def seesWord (w : String) : Reader Bool := return (← peek).any (Token.isWord w)

def seesMark (m : String) : Reader Bool := return (← peek).any (Token.isMark m)

-- What follows a key word, if the key word stands next.
def afterWord? {α : Type} (w : String) (reader : Reader α) : Reader (Option α) := do
  if ← takesWord w then return some (← reader) else return none

/-- The bound of all readers: they take no more parts than there are tokens. -/
def bound : Reader Nat := fun tokens => .ok (tokens.length + 1, tokens)

/-- Parts with commas between them, as many as the bound at most. -/
def commaListWithin {α : Type} (part : Reader α) : Nat → Reader (List α)
  | 0 => refuse
  | n + 1 => do
    let first ← part
    if ← takesMark "," then return first :: (← commaListWithin part n) else return [first]

def commaList {α : Type} (part : Reader α) : Reader (List α) := do
  commaListWithin part (← bound)

def inParentheses {α : Type} (reader : Reader α) : Reader α := do
  mark "("
  let a ← reader
  mark ")"
  return a

/-! ## Names -/

def keyWords : List String :=
  ["ADD", "ALL", "ALTER", "AND", "AS", "AUTOINCREMENT", "BETWEEN", "CASE", "CHECK", "COLLATE",
   "COMMIT", "CONSTRAINT", "CREATE", "DEFAULT", "DEFERRABLE", "DELETE", "DISTINCT", "DROP", "ELSE",
   "ESCAPE", "EXCEPT", "EXISTS", "FOREIGN", "FROM", "GROUP", "HAVING", "IN", "INDEX", "INSERT",
   "INTERSECT", "INTO", "IS", "ISNULL", "JOIN", "LIMIT", "NOT", "NOTHING", "NOTNULL", "NULL", "ON",
   "OR", "ORDER", "PRIMARY", "REFERENCES", "RETURNING", "SELECT", "SET", "TABLE", "THEN", "TO",
   "TRANSACTION", "UNION", "UNIQUE", "UPDATE", "USING", "VALUES", "WHEN", "WHERE"]

/-- The words that say how tables are joined; they are names where nothing is joined. -/
def joinWords : List String := ["CROSS", "FULL", "INNER", "LEFT", "NATURAL", "OUTER", "RIGHT"]

/-- The name that a token is, where the words for joins may be names. -/
def nameOf? (joins : Bool) (t : Token) : Option String :=
  match t.kind with
  | .name value => some value
  | .word =>
    if keyWords.any (sameName t.written) || (!joins && joinWords.any (sameName t.written)) then none
    else some t.written
  | _ => none

/-- The name that a token is, where it may be between apostrophes too. -/
def anyNameOf? (joins : Bool) (t : Token) : Option String :=
  match t.kind with
  | .text value => some value
  | _ => nameOf? joins t

def name : Reader String := do
  match (← peek).bind (anyNameOf? true) with
  | some s =>
    advance
    return s
  | none => refuse

/-- A name behind the word for one, or a name alone; there may be none. -/
def alias? : Reader (Option String) := do
  if ← takesWord "AS" then return some (← name)
  match (← peek).bind (anyNameOf? false) with
  | some s =>
    advance
    return some s
  | none => return none

def tableName : Reader TableName := do
  let first ← name
  if ← takesMark "." then return ⟨some first, ← name⟩ else return ⟨none, first⟩

def typeWords : Nat → Reader (List String)
  | 0 => return []
  | n + 1 => do
    match (← peek).bind (anyNameOf? false) with
    | some s =>
      advance
      return s :: (← typeWords n)
    | none => return []

def signedNumber : Reader Unit := do
  if !(← takesMark "-") then let _ ← takesMark "+"
  required fun t => t.kind == .number

def type : Reader String := do
  let ws ← typeWords (← bound)
  if !ws.isEmpty && (← seesMark "(") then
    inParentheses do
      signedNumber
      if ← takesMark "," then signedNumber
  return " ".intercalate ws

/-! ## Constants -/

def numberCell (negative : Bool) (written : String) : Cell :=
  let chars := written.toList.filter (· != '_')
  match chars with
  | '0' :: 'x' :: ds | '0' :: 'X' :: ds =>
    let n := Token.hexNumber ds
    Cell.ofBits (if negative then 2 ^ 64 - n % 2 ^ 64 else n)
  | chars =>
    match Numeral.read? (if negative then '-' :: chars else chars) with
    | some (n, _) => Cell.ofNumeral n
    | none => .null

def constant? (t : Token) : Option Cell :=
  match t.kind with
  | .number => some (numberCell false t.written)
  | .text value => some (.text value)
  | .parameter => some .null
  | .word => if Token.isWord "NULL" t then some .null else none
  | _ => none

/-! ## Operators -/

/-- The operators that are marks, with the step that each binds at. -/
def markOperators : List (String × Nat × Operator) :=
  [("=", 4, .equal), ("==", 4, .equal), ("<>", 4, .unequal), ("!=", 4, .unequal),
   ("<", 5, .below), ("<=", 5, .atMost), (">", 5, .above), (">=", 5, .atLeast),
   ("&", 7, .bitAnd), ("|", 7, .bitOr), ("<<", 7, .shiftLeft), (">>", 7, .shiftRight),
   ("+", 8, .calculate .add), ("-", 8, .calculate .sub), ("*", 9, .calculate .mul),
   ("/", 9, .calculate .div), ("%", 9, .calculate .rem), ("||", 10, .concat)]

/-- The step of equality and of the tests that are written as words. -/
def equalityStep : Nat := 4

-- The step at which the operators behind a negation bind.
def negationStep : Nat := 3

def negatedIf (negative : Bool) (e : Expression) : Expression :=
  if negative then .signed .not e else e

def chosen (subject : Option Expression) (otherwise : Expression) :
    List (Expression × Expression) → Expression
  | [] => otherwise
  | (test, result) :: rest =>
    .choice (subject.elim test fun s => .joined .equal s test) result (chosen subject otherwise rest)

/-! ## Expressions and queries -/

mutual

-- An expression whose operators all bind at a step or tighter.
def expression : Nat → Nat → Reader Expression
  | 0, _ => refuse
  | n + 1, step => do
    continued n step (← operand n)

-- An expression that begins with one that was read already.
def continued : Nat → Nat → Expression → Reader Expression
  | 0, _, _ => refuse
  | n + 1, step, first => do
    let next ← peek
    let operator? := next.bind fun t =>
      if t.kind = .mark then markOperators.lookup t.written else none
    match operator? with
    | some (s, op) =>
      if s < step then return first
      advance
      continued n step (.joined op first (← expression n (s + 1)))
    | none =>
      if (next.any fun t => Token.isWord "OR" t) && step ≤ 1 then
        advance
        continued n step (.joined .or first (← expression n 2))
      else if (next.any fun t => Token.isWord "AND" t) && step ≤ 2 then
        advance
        continued n step (.joined .and first (← expression n 3))
      else if step ≤ equalityStep then
        match ← test? n first with
        | some e => continued n step e
        | none => return first
      else return first

/-- A test that is written with words, of an expression that was read already. -/
def test? : Nat → Expression → Reader (Option Expression)
  | 0, _ => refuse
  | n + 1, e => do
    let tight := expression n (equalityStep + 1)
    if ← takesWord "ISNULL" then return some (.joined .is e (.constant .null))
    else if ← takesWord "NOTNULL" then return some (.joined .isNot e (.constant .null))
    else if ← takesWord "IS" then
      let negative ← takesWord "NOT"
      if ← takesWord "DISTINCT" then
        word "FROM"
        return some (.joined (if negative then .is else .isNot) e (← tight))
      else return some (.joined (if negative then .isNot else .is) e (← tight))
    else
      let negative ← takesWord "NOT"
      let nothing ← if negative then takesWord "NULL" else pure false
      if nothing then return some (.joined .isNot e (.constant .null))
      else if ← takesWord "BETWEEN" then
        let least ← expression n negationStep
        word "AND"
        let most ← tight
        return some (negatedIf negative
          (.joined .and (.joined .atLeast e least) (.joined .atMost e most)))
      else if ← takesWord "LIKE" then
        let pattern ← tight
        let _ ← afterWord? "ESCAPE" (expression n 7)
        return some (negatedIf negative (.joined .like e pattern))
      else if ← takesWord "IN" then
        if ← seesMark "(" then
          inParentheses do
            if (← seesWord "SELECT") || (← seesWord "VALUES") then
              return some (negatedIf negative (.amongAnswers e (← query n)))
            else if ← seesMark ")" then 
              return some (.signed .positive (.constant (Cell.ofBool negative)))
            else return some (negatedIf negative (.among e (← commaList (expression n 1))))
        else
          let q : Query :=
            .select false [.all none] [.table (← tableName) none] none [] none
          return some (negatedIf negative (.amongAnswers e q))
      else if negative then refuse
      else return none

def operand : Nat → Reader Expression
  | 0 => refuse
  | n + 1 => do
    let some t ← peek | refuse
    if ← takesWord "NOT" then return .signed .not (← expression n negationStep)
    else if ← takesMark "-" then
      match ← peek with
      | some next =>
        if next.kind = .number then
          advance
          collated n (.constant (numberCell true next.written))
        else return .signed .negative (← operand n)
      | none => refuse
    else if ← takesMark "+" then return .signed .positive (← operand n)
    else if ← takesMark "~" then return .signed .complement (← operand n)
    else if ← takesMark "(" then
      let e ←
        if (← seesWord "SELECT") || (← seesWord "VALUES") then Expression.answer <$> query n
        else expression n 1
      mark ")"
      collated n e
    else if ← takesWord "CASE" then
      let subject ← if ← seesWord "WHEN" then pure none else some <$> expression n 1
      let first ← case n
      let cases ← moreCases n
      let otherwise ← afterWord? "ELSE" (expression n 1)
      word "END"
      collated n (chosen subject (otherwise.getD (.constant .null)) (first :: cases))
    else if ← takesWord "EXISTS" then return .hasAnswer (← inParentheses (query n))
    else if Token.isWord "CAST" t && (← peekBehind).any (Token.isMark "(") then
      advance
      let (e, type) ← inParentheses do
        let e ← expression n 1
        word "AS"
        return (e, ← type)
      collated n (.cast type e)
    else
      match constant? t with
      | some cell =>
        advance
        collated n (.constant cell)
      | none => collated n (← named n)

/-- An expression behind which a name for an order of texts may stand. -/
def collated : Nat → Expression → Reader Expression
  | 0, _ => refuse
  | n + 1, e => do
    if ← takesWord "COLLATE" then
      let _ ← name
      collated n e
    else return e

def case : Nat → Reader (Expression × Expression)
  | 0 => refuse
  | n + 1 => do
    word "WHEN"
    let test ← expression n 1
    word "THEN"
    return (test, ← expression n 1)

def moreCases : Nat → Reader (List (Expression × Expression))
  | 0 => refuse
  | n + 1 => do
    if ← seesWord "WHEN" then
      let first ← case n
      return first :: (← moreCases n)
    else return []

/-- A name, perhaps with that of a table in front, or the call of a function. -/
def named : Nat → Reader Expression
  | 0 => refuse
  | n + 1 => do
    let some t ← peek | refuse
    let some first := nameOf? true t | refuse
    let quoted := t.kind != .word && t.written.startsWith "\""
    advance
    if ← takesMark "(" then
      let e ←
        if ← takesMark "*" then pure (.callOnRows first)
        else if ← seesMark ")" then pure (.call first false [])
        else
          let distinct ← takesWord "DISTINCT"
          if !distinct then let _ ← takesWord "ALL"
          pure (.call first distinct (← commaList (expression n 1)))
      mark ")"
      return e
    else if ← takesMark "." then
      let second ← name
      if ← takesMark "." then return .name (some ⟨some first, second⟩) (← name) false
      else return .name (some ⟨none, first⟩) second false
    else return .name none first quoted

def query : Nat → Reader Query
  | 0 => refuse
  | n + 1 => do
    let q ← combined n (← simpleQuery n)
    let keys ← afterWord? "ORDER" do
      word "BY"
      commaList do
        let e ← expression n 1
        let descending ← takesWord "DESC"
        if !descending then let _ ← takesWord "ASC"
        if ← takesWord "NULLS" then
          if !(← takesWord "FIRST") then word "LAST"
        return (e, descending)
    let limits ← afterWord? "LIMIT" do
      let first ← expression n 1
      if ← takesMark "," then return (← expression n 1, some first)
      else return (first, ← afterWord? "OFFSET" (expression n 1))
    match keys, limits with
    | none, none => return q
    | keys, limits => return .ordered q (keys.getD []) (limits.map (·.1)) (limits.bind (·.2))

-- Queries that are combined with one that was read already.
def combined : Nat → Query → Reader Query
  | 0, _ => refuse
  | n + 1, q => do
    let how? : Option Combination ←
      if ← takesWord "UNION" then
        if ← takesWord "ALL" then pure (some .append) else pure (some .union)
      else if ← takesWord "EXCEPT" then pure (some .except)
      else if ← takesWord "INTERSECT" then pure (some .intersect)
      else pure none
    match how? with
    | some how => combined n (.combined how q (← simpleQuery n))
    | none => return q

def simpleQuery : Nat → Reader Query
  | 0 => refuse
  | n + 1 => do
    if ← takesWord "VALUES" then
      return .values (← commaList (inParentheses (commaList (expression n 1))))
    word "SELECT"
    let distinct ← takesWord "DISTINCT"
    if !distinct then let _ ← takesWord "ALL"
    let items ← commaList (item n)
    let (origins, joined) ← if ← takesWord "FROM" then origins n else pure ([], none)
    let test ← afterWord? "WHERE" (expression n 1)
    let groups ← afterWord? "GROUP" do
      word "BY"
      commaList (expression n 1)
    let having ← afterWord? "HAVING" (expression n 1)
    return .select distinct items origins (Expression.and? joined test) (groups.getD []) having

def item : Nat → Reader (Item Expression)
  | 0 => refuse
  | n + 1 => do
    if ← takesMark "*" then return .all none
    let behind : Reader (Option Token) := fun tokens => .ok ((tokens.drop 2).head?, tokens)
    let some t ← peek | refuse
    match nameOf? true t, (← peekBehind).any (Token.isMark "."), (← behind).any (Token.isMark "*") with
    | some origin, true, true =>
      advance
      advance
      advance
      return .all (some origin)
    | _, _, _ =>
      let e ← expression n 1
      return .value e (← alias?)

/-- The origins of a query, and the condition under which their rows go together. -/
def origins : Nat → Reader (List (Origin Query) × Option Expression)
  | 0 => refuse
  | n + 1 => do
    let first ← origin n
    let onward : Bool ←
      if ← takesMark "," then pure true
      else
        let some t ← peek | pure false
        if joinWords.any fun w => Token.isWord w t then
          for _ in joinWords do
            let _ ← taken fun t => joinWords.any fun w => Token.isWord w t
          word "JOIN"
          pure true
        else takesWord "JOIN"
    if onward then
      let (others, condition) ← origins n
      return (first.1 ++ others, Expression.and? first.2 condition)
    else return first

-- An origin of a query, and the condition that stands with it.
def origin : Nat → Reader (List (Origin Query) × Option Expression)
  | 0 => refuse
  | n + 1 => do
    let (found, inner) ←
      if ← takesMark "(" then
        if (← seesWord "SELECT") || (← seesWord "VALUES") then
          let q ← query n
          mark ")"
          pure ([.answer q (← alias?)], none)
        else
          let inner ← origins n
          mark ")"
          pure inner
      else
        let table ← tableName
        pure ([.table table (← alias?)], none)
    if ← takesWord "ON" then return (found, Expression.and? inner (some (← expression n 1)))
    else if ← takesWord "USING" then
      let _ ← inParentheses (commaList name)
      return (found, inner)
    else return (found, inner)

end

def wholeExpression : Reader Expression := do expression (8 * (← bound)) 1

def wholeQuery : Reader Query := do query (8 * (← bound))

end Reader

end Registry.Statement
