import Registry.Database.Query.Answer

/-! # Check — why a query is refused before it is answered

First every table that a query names has to be there. Then every name has to stand for one thing,
every function has to be known and take the number of arguments that it is given, and a function of
several rows may stand only where there are groups. -/

namespace Registry.Query

open Registry.Text

/-! ## Tables -/

mutual

/-- The first table that an expression names and that is not there. -/
def absentIn : Nat → Database → Expression → Option DatabaseFault
  | 0, _, _ => none
  | n + 1, db, e =>
    match e with
    | .signed _ a | .cast _ a => absentIn n db a
    | .joined _ a b => (absentIn n db a).or (absentIn n db b)
    | .choice a b c => ((absentIn n db a).or (absentIn n db b)).or (absentIn n db c)
    | .among a choices => (a :: choices).findSome? fun e => absentIn n db e
    | .call _ _ arguments => arguments.findSome? fun e => absentIn n db e
    | .answer q | .hasAnswer q => absent n db q
    | .amongAnswers a q => (absentIn n db a).or (absent n db q)
    | _ => none

def absent : Nat → Database → Query → Option DatabaseFault
  | 0, _, _ => none
  | n + 1, db, q =>
    let inAll (es : List Expression) : Option DatabaseFault := es.findSome? fun e => absentIn n db e
    match q with
    | .values lists => inAll lists.flatten
    | .select _ items origins test groups having =>
      let origin? : Origin Query → Option DatabaseFault
        | .table table _ =>
          match db.named table with
          | .ok _ => none
          | .error fault => some fault
        | .answer q _ => absent n db q
      (origins.findSome? origin?).or
        (inAll (items.filterMap Item.value? ++ test.toList ++ groups ++ having.toList))
    | .combined _ a b => (absent n db b).or (absent n db a)
    | .ordered q keys limit offset =>
      (absent n db q).or (inAll (keys.map (·.1) ++ limit.toList ++ offset.toList))

end

/-! ## Names and functions -/

-- A name as a statement writes it.
def written (origin : Option TableName) (name : String) : String :=
  origin.elim name fun o => o.written ++ "." ++ name

-- Some list has another length than the first one.
def isUneven (lists : List (List Expression)) : Bool :=
  lists.any fun es => es.length != (lists.headD []).length

/-- The fault of a key that stands for a column which the answer does not have. -/
def placeFault? (words : String) (columns : Nat) (keys : List Expression) : Option DatabaseFault :=
  keys.zipIdx.findSome? fun (e, i) =>
    (place? e).bind fun n =>
      if 1 ≤ n && n ≤ columns then none else some (.noSuchColumn (i + 1) words columns)

/-- The fault of a key for the order of combined answers that is none of their columns. -/
def keyFault? (columns : List String) (keys : List Expression) : Option DatabaseFault :=
  (placeFault? "ORDER BY" columns.length keys).or <|
    keys.zipIdx.findSome? fun (e, i) =>
      match place? e, e with
      | some _, _ => none
      | none, .name none name _ =>
        if columns.any (sameName name) then none else some (.unknownKey (i + 1))
      | none, _ => some (.unknownKey (i + 1))

def callFault? (grouped : Bool) (function : String) (count : Nat) : Option DatabaseFault :=
  if Expression.isAggregate function count then
    if 1 < count || (count = 0 && !sameName function "count") then some (.argumentCount function)
    else if grouped then none
    else some (.misusedAggregate function)
  else
    match Cell.function? function with
    | some f =>
      if count < f.least || f.most.any (· < count) then some (.argumentCount function) else none
    | none =>
      some (if (Cell.aggregate? function).isSome then .argumentCount function
        else .noFunction function)

def rowCallFault? (grouped : Bool) (function : String) : Option DatabaseFault :=
  if sameName function "count" then if grouped then none else some (.misusedAggregate function)
  else if (Cell.function? function).isSome || (Cell.aggregate? function).isSome then
    some (.argumentCount function)
  else some (.noFunction function)

/-- The fault of a name, if it stands for nothing or for several things. -/
def nameFault? (s : Surroundings) (origin : Option TableName) (name : String) (quoted : Bool) :
    Option DatabaseFault :=
  match s.meaning origin name with
  | .one _ => none
  | .several => some (.ambiguousColumn (written origin name))
  | .nothing =>
    if (s.alias? origin name).isSome || (Surroundings.unbound? origin name quoted).isSome then none
    else some (.noColumn (written origin name))

/-- The fault of an item that stands for all columns of what is not there. -/
def starFault? : Nat → Query → Option DatabaseFault
  | 0, _ => none
  | n + 1, q =>
    match q with
    | .values _ => none
    | .select _ items origins _ _ _ =>
      let names := origins.map fun
        | .table table name => name.getD table.name
        | .answer _ name => name.getD unnamed
      items.reverse.findSome? fun
        | .all none => if origins.isEmpty then some .noSource else none
        | .all (some name) => if names.any (sameName name) then none else some (.noTable name)
        | .value _ _ => none
    | .combined _ a b => (starFault? n b).or (starFault? n a)
    | .ordered q _ _ _ => starFault? n q

/-- A look at the parts of something: the last fault that was found, and whether the look ends. -/
abbrev Look := Option DatabaseFault × Bool

mutual

/-- A look at an expression when a fault may have been found before. Names are looked up and calls
are looked into all the same, and everything else ends the look. -/
def look : Nat → Bool → Surroundings → Expression → Option DatabaseFault → Look
  | 0, _, _, _, found => (found, true)
  | n + 1, grouped, s, e, found =>
    let parts (es : List Expression) : Look :=
      if found.isSome then (found, true) else lookAtAll n grouped s es none
    match e with
    | .constant _ => parts []
    | .name origin name quoted =>
      match s.meaning origin name, s.alias? origin name with
      | .nothing, some e => look n grouped { s with aliases := [] } e found
      | _, _ =>
        match nameFault? s origin name quoted with
        | some fault => (some fault, true)
        | none => (found, false)
    | .joined .is a (.name origin name quoted) | .joined .isNot a (.name origin name quoted) =>
      match nameFault? s origin name quoted with
      | some fault => (some fault, true)
      | none => parts [a]
    | .signed _ a | .cast _ a => parts [a]
    | .joined .like a b => parts [b, a]
    | .joined _ a b => parts [a, b]
    | .choice a b c => parts [a, b, c]
    | .among a choices => parts (a :: choices)
    | .call function _ arguments =>
      let inside := grouped && !Expression.isAggregate function arguments.length
      let own := callFault? grouped function arguments.length
      ((lookAtAll n inside s arguments (own.or found)).1, false)
    | .callOnRows function => ((rowCallFault? grouped function).or found, false)
    | .answer q | .hasAnswer q =>
      let fault := (starFault? n q).or (faultOf n s [] q)
      (fault.or found, fault.isSome)
    | .amongAnswers a q =>
      match faultOf n s [] q with
      | some fault => (some fault, true)
      | none => parts [a]

def lookAtAll : Nat → Bool → Surroundings → List Expression → Option DatabaseFault → Look
  | 0, _, _, _, found => (found, true)
  | n + 1, grouped, s, es, found =>
    es.foldl (fun l e => if l.2 then l else look n grouped s e l.1) (found, false)

/-- The first fault of a query whose tables are there, with the keys for its order. -/
def faultOf : Nat → Surroundings → List Expression → Query → Option DatabaseFault
  | 0, _, _, _ => none
  | n + 1, s, keys, q =>
    let inAll (grouped : Bool) (s : Surroundings) (es : List Expression) : Option DatabaseFault :=
      es.findSome? fun e => (look n grouped s e none).1
    match q with
    | .values lists =>
      if isUneven lists then some .unevenRows else inAll false s lists.reverse.flatten
    | .select _ items origins test groups having =>
      let origin? : Origin Query → Option DatabaseFault
        | .table _ _ => none
        | .answer q _ => (starFault? n q).or (faultOf n s [] q)
      let frame : Frame := (origins.map fun o => relation n s o).map Relation.shape
      let around := s.within frame (Surroundings.aliasesOf items)
      let values := items.filterMap Item.value?
      let isGrouped := !groups.isEmpty || values.any (Expression.usesGroup n)
      let width := (columns n s q).length
      let inHaving := having.bind fun e =>
        if isGrouped then (look n true around e none).1 else some .unfitHaving
      (((origins.findSome? origin?).or (inAll true { around with aliases := [] } values)).or
        (inHaving.or (inAll isGrouped around test.toList))).or <|
      ((placeFault? "ORDER BY" width keys).or (inAll true around keys)).or <|
      ((placeFault? "GROUP BY" width groups).or (inAll true around groups)).or <|
      (if groups.any (Expression.usesGroup n) then some .aggregateInGroups else none).or <|
      (test.bind (Expression.aggregate? n)).map .aggregateInTest
    | .combined how a b =>
      let names := columns n s a
      ((faultOf n s [] b).or (faultOf n s [] a)).or <|
      (if names.length = (columns n s b).length then none else some (.unevenAnswers how.word)).or <|
      keyFault? names keys
    | .ordered q keys limit offset =>
      let bare := { s with frames := [] :: s.frames, aliases := [] }
      (inAll false bare (limit.toList ++ offset.toList)).or (faultOf n s (keys.map (·.1)) q)

end

-- More than the depth that any statement is nested to.
def depth : Nat := 10000

def fault? (db : Database) (q : Query) : Option DatabaseFault :=
  ((absent depth db q).or (starFault? depth q)).or (faultOf depth (.bare db) [] q)

/-- Why an expression is refused, if it is, where names stand for the columns of a table or for
nothing. -/
def expressionFault? (db : Database) (t : Option Table) (e : Expression) : Option DatabaseFault :=
  let frame : Frame := t.toList.map fun t => (Relation.ofTable t t.name).shape
  (absentIn depth db e).or (look depth false ((Surroundings.bare db).within frame []) e none).1

def cellIn (db : Database) (t : Table) (id : Int) (cells : Cells) (e : Expression) : Cell :=
  let row : NamedRow :=
    { name := t.name, columns := t.names, id := some id
      cells := t.names.map fun name => ⟨t.affinity name, t.read id cells name⟩ }
  (value depth ((Surroundings.bare db).within [row] []) e).cell

def answer (db : Database) (q : Query) : List (List Cell) :=
  (rows depth (.bare db) q).map fun r => r.cells.map (·.cell)

end Registry.Query
