import StarShapes.Sparql.Expression

/-!
Selections: what a query does with the solutions of its pattern.

* `Projection`: the variables that are asked for, which expressions may define.
* `Modifiers`: grouping, conditions on groups, order, slices and further values.
* `select?`: the pattern of a selection. It fails where a variable would be defined twice, where a
  name of no group is asked for and where all variables of groups are asked for.
* `subSelect`: a selection inside of a group.
-/

namespace StarShapes.Sparql

open StarShapes.Parser

/-- A variable that is asked for. -/
inductive Item where
  /-- A variable of the pattern. -/
  | var (name : String)
  /-- A variable that an expression defines. -/
  | defined (e : Expression) (name : String)

/-- What is asked for. -/
inductive Projection where
  /-- Solutions, whatever their variables. -/
  | solutions
  /-- All variables of the pattern. -/
  | all
  /-- These variables. -/
  | items (items : List Item)

/-- Whether duplicates count. -/
inductive Duplicates where
  /-- They stay. -/
  | keep
  /-- They are removed. -/
  | distinct
  /-- They may be removed. -/
  | reduced
  deriving DecidableEq, Repr

/-- How solutions are grouped. -/
structure Grouping where
  /-- The variables that solutions of a group have in common. -/
  names : List String
  /-- Those of them that expressions define. -/
  defined : List String
  deriving DecidableEq, Repr

/-- What happens to the solutions of a pattern. -/
structure Modifiers where
  /-- The grouping. -/
  grouping? : Option Grouping
  /-- Whether there is a condition on groups. -/
  having : Bool
  /-- Whether there is an order. -/
  ordered : Bool
  /-- Whether there is a limit or an offset. -/
  sliced : Bool
  /-- The variables of further values. -/
  values? : Option (List String)

/-! ### The pattern of a selection -/

/-- Apply a constructor under a condition. -/
def GraphPattern.wrapIf (b : Bool) (f : GraphPattern → GraphPattern) (g : GraphPattern) :
    GraphPattern :=
  if b then f g else g

/-- The variables that are asked for, and the pattern with those that are defined on the way.
`visible` are the variables of the pattern, and `grouped` says whether there are groups. -/
def projectItems? (visible : List String) (grouped : Bool) :
    GraphPattern → List String → List Item → Option (GraphPattern × List String)
  | g, names, [] => some (g, names)
  | g, names, .var name :: items =>
    if (grouped && !visible.contains name) || names.contains name then none
    else projectItems? visible grouped g (names ++ [name]) items
  | g, names, .defined e name :: items =>
    if visible.contains name || (grouped && !e.needs.all visible.contains) || names.contains name
    then none
    else projectItems? visible grouped (.extend g name) (names ++ [name]) items

/-- The pattern with a projection, and whether variables are left out. -/
def project? (projection : Projection) (grouped : Bool) (g : GraphPattern) :
    Option (GraphPattern × Option (List String)) :=
  match projection with
  | .solutions => some (g, none)
  | .all => if grouped then none else some (g, some (g.scope))
  | .items items =>
    (projectItems? g.scope grouped g [] items).map fun (g, names) => (g, some names)

/-- The pattern with its groups, the conditions on them and further values. -/
def Modifiers.prepare (m : Modifiers) (aggregates : List String) (body : GraphPattern) :
    GraphPattern :=
  let g : GraphPattern := match m.grouping? with
    | some grouping => .group (grouping.defined.foldl .extend body) (grouping.names ++ aggregates)
    | none => if aggregates.isEmpty then body else .group body aggregates
  let g := g.wrapIf m.having .filter
  m.values?.elim g fun names => g.merge (.values names)

/-- The pattern of a selection, with the variables for its aggregates. -/
def select? (duplicates : Duplicates) (projection : Projection) (m : Modifiers)
    (aggregates : List String) (body : GraphPattern) : Option GraphPattern := do
  let grouped := m.grouping?.isSome || !aggregates.isEmpty
  let (g, names?) ← project? projection grouped (m.prepare aggregates body)
  let g := g.wrapIf m.ordered .orderBy
  let g := names?.elim g g.project
  let g : GraphPattern := match duplicates with
    | .keep => g
    | .distinct => .distinct g
    | .reduced => .reduced g
  some (g.wrapIf m.sliced .slice)

/-- No name is asked for twice. -/
theorem nodup_of_projectItems? {visible : List String} {grouped : Bool} {g g' : GraphPattern}
    {names names' : List String} {items : List Item} (hn : names.Nodup)
    (h : projectItems? visible grouped g names items = some (g', names')) : names'.Nodup := by
  have step (name : String) (names : List String) (hn : names.Nodup) (hc : name ∉ names) :
      (names ++ [name]).Nodup := by
    rw [List.nodup_append]
    exact ⟨hn, by simp, fun a ha b hb e => hc (by rw [List.mem_singleton] at hb; exact hb ▸ e ▸ ha)⟩
  fun_induction projectItems? visible grouped g names items with
  | case1 => cases h; exact hn
  | case2 => cases h
  | case3 _ _ _ _ hc ih => exact ih (step _ _ hn (by simp_all)) h
  | case4 => cases h
  | case5 _ _ _ _ _ hc ih => exact ih (step _ _ hn (by simp_all)) h

/-! ### Reading -/

/-- A value of a data block. -/
def dataValue : Reader Unit :=
  (do let _ ← iri) <|> (do let _ ← literal) <|> keyword "UNDEF"

/-- Given values: the variables. Every row has a value for each. -/
def dataBlock : Reader (List String) :=
  (do
    let name ← variableName
    symbol "\x7b"
    let _ ← many dataValue
    symbol "\x7d"
    pure [name]) <|>
  (do
    symbol "("
    let names ← many variableName
    symbol ")"
    symbol "\x7b"
    let rows ← many do
      symbol "("
      let row ← many dataValue
      symbol ")"
      pure row
    symbol "\x7d"
    guard (rows.all fun row => row.length = names.length)
    pure names)

/-- A variable that is asked for, or the definition of one. -/
def item (group : Reader GraphPattern) : Reader Item :=
  (.var <$> variableName) <|>
  (do
    symbol "("
    let e ← expression group
    keyword "AS"
    let name ← variableName
    symbol ")"
    pure (.defined e name))

/-- What a selection starts with. -/
def selectClause (group : Reader GraphPattern) : Reader (Duplicates × Projection) := do
  keyword "SELECT"
  Parser.modify Session.openSelection
  let duplicates ←
    (do keyword "DISTINCT"; pure .distinct) <|> (do keyword "REDUCED"; pure .reduced) <|> pure .keep
  let projection ← (do symbol "*"; pure .all) <|> (.items <$> many1 (item group))
  pure (duplicates, projection)

/-- A part of a grouping: an expression and the variable that it defines. -/
def groupCondition (group : Reader GraphPattern) : Reader (Expression × Option String) :=
  (do let e ← builtInCall (expression group) group; pure (e, none)) <|>
  (do let e ← iriCall (expression group); pure (e, none)) <|>
  (do
    symbol "("
    let e ← expression group
    let name? ← optional? do
      keyword "AS"
      variableName
    symbol ")"
    pure (e, name?)) <|>
  (do let name ← variableName; pure (.var name, none))

/-- The grouping that some expressions with their variables make; a variable stands for itself. -/
def makeGrouping : List (Expression × Option String) → Reader Grouping
  | [] => pure ⟨[], []⟩
  | (e, name?) :: conditions => do
    match e.bare? with
    | some name =>
      let g ← makeGrouping conditions
      pure { g with names := name :: g.names }
    | none =>
      let name ← (ofOption name?) <|> fresh
      let g ← makeGrouping conditions
      pure ⟨name :: g.names, name :: g.defined⟩

/-- A grouping. -/
def groupClause (group : Reader GraphPattern) : Reader Grouping := do
  keyword "GROUP"
  keyword "BY"
  makeGrouping (← many1 (groupCondition group))

/-- Conditions on groups. Between two of them there are no blanks. -/
def havingClause (group : Reader GraphPattern) : Reader Unit := do
  keyword "HAVING"
  let _ ← constraint group
  let _ ← many do
    let apart ← nextIs fun c => isSpace c || c = '#'
    guard !apart
    constraint group

/-- A part of an order. -/
def orderCondition (group : Reader GraphPattern) : Reader Unit :=
  (do
    keyword "ASC"
    let _ ← bracketed (expression group)) <|>
  (do
    keyword "DESC"
    let _ ← bracketed (expression group)) <|>
  (do let _ ← constraint group) <|>
  (do let _ ← variableName)

/-- An order. -/
def orderClause (group : Reader GraphPattern) : Reader Unit := do
  keyword "ORDER"
  keyword "BY"
  let _ ← many1 (orderCondition group)

/-- A number of solutions after a keyword; it fits into 64 bits. -/
def countClause (name : String) : Reader Unit := do
  keyword name
  let cs ← token (takeWhile1 Char.isDigit)
  guard (cs.foldl (fun n c => 10 * n + (c.toNat - '0'.toNat)) 0 < 18446744073709551616)

/-- A limit, an offset or both. -/
def sliceClause : Reader Unit :=
  (do countClause "LIMIT"; countClause "OFFSET" <|> pure ()) <|>
  (do countClause "OFFSET"; countClause "LIMIT" <|> pure ())

/-- What comes after the pattern of a selection. -/
def modifiers (group : Reader GraphPattern) : Reader Modifiers := do
  let grouping? ← optional? (groupClause group)
  let having ← present (havingClause group)
  let ordered ← present (orderClause group)
  let sliced ← present sliceClause
  let values? ← optional? do
    keyword "VALUES"
    dataBlock
  pure { grouping?, having, ordered, sliced, values? }

/-- The pattern of a selection whose parts have been read, with the aggregates that were met. -/
def finishSelection (duplicates : Duplicates) (projection : Projection) (m : Modifiers)
    (body : GraphPattern) : Reader GraphPattern := do
  let s ← Parser.get
  let (aggregates, s) := s.closeSelection
  Parser.modify fun _ => s
  ofOption (select? duplicates projection m aggregates body)

/-- A group with an optional keyword before it. -/
def whereClause (group : Reader GraphPattern) : Reader GraphPattern := do
  keyword "WHERE" <|> pure ()
  group

/-- A selection inside of a group. -/
def subSelect (group : Reader GraphPattern) : Reader GraphPattern := do
  let (duplicates, projection) ← selectClause group
  let body ← whereClause group
  let m ← modifiers group
  finishSelection duplicates projection m body

end StarShapes.Sparql
