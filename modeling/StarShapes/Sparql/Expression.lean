import StarShapes.Sparql.Term

/-!
Expressions as they are written, and what the form of a query depends on in them.

* `Expression`: the variable that an expression is, if it is nothing else, and the variables that it
  needs. A test for a value, a choice of the first value and a test of a pattern need none.
* `expression`: the operators from `||` down to signs, function calls, literals and variables.
* `aggregate`: an aggregate, which a variable of the innermost selection stands for.
* `constraint`: the expressions that can stand without parentheses of their own.
-/

namespace StarShapes.Sparql

open StarShapes.Parser

/-- What matters of an expression. -/
structure Expression where
  /-- The variable that it is. -/
  bare? : Option String
  /-- The variables without which it has no value. -/
  needs : List String
  deriving DecidableEq, Repr

namespace Expression

/-- A variable. -/
def var (name : String) : Expression := ⟨some name, [name]⟩

/-- An expression that needs no variable. -/
def closed : Expression := ⟨none, []⟩

/-- An expression that needs what its parts need. -/
def of (parts : List Expression) : Expression := ⟨none, parts.flatMap needs⟩

end Expression

/-! ### Functions -/

/-- The functions after whose names there may be blanks, and how many arguments they have. Of
several numbers, the first that fits counts. -/
def functions : List (String × List Nat) :=
  [("STR", [1]), ("LANG", [1]), ("LANGMATCHES", [2]), ("DATATYPE", [1]), ("IRI", [1]),
    ("URI", [1]), ("RAND", [0]), ("ABS", [1]), ("CEIL", [1]), ("FLOOR", [1]), ("ROUND", [1]),
    ("SUBSTR", [3, 2]), ("STRLEN", [1]), ("REPLACE", [4, 3]), ("UCASE", [1]), ("LCASE", [1]),
    ("CONTAINS", [2]), ("STRSTARTS", [2]), ("STRENDS", [2]), ("STRBEFORE", [2]), ("STRAFTER", [2]),
    ("YEAR", [1]), ("MONTH", [1]), ("DAY", [1]), ("HOURS", [1]), ("MINUTES", [1]), ("SECONDS", [1]),
    ("TIMEZONE", [1]), ("TZ", [1]), ("NOW", [0]), ("UUID", [0]), ("STRUUID", [0]), ("IF", [3]),
    ("STRLANG", [2]), ("STRDT", [2]), ("ISIRI", [1]), ("ISURI", [1]), ("REGEX", [3, 2])]

/-- The functions whose arguments come right after their names. -/
def tightFunctions : List (String × List Nat) :=
  [("BNODE", [1, 0]), ("ENCODE_FOR_URI", [1]), ("MD5", [1]), ("SHA1", [1]), ("SHA256", [1]),
    ("SHA384", [1]), ("SHA512", [1]), ("SAMETERM", [2]), ("ISBLANK", [1]), ("ISLITERAL", [1]),
    ("ISNUMERIC", [1])]

/-- The functions that combine the values of an expression to one value. -/
def aggregates : List String := ["SUM", "MIN", "MAX", "AVG", "SAMPLE"]

/-- Expressions between parentheses, with commas between them. -/
def expressionList (expression : Reader Expression) : Reader (List Expression) :=
  (do
    symbol "("
    let es ← sepBy1 expression (symbol ",")
    symbol ")"
    pure es) <|>
  (do emptyParentheses; pure [])

/-- A number of expressions between parentheses, with commas between them. -/
def arguments (expression : Reader Expression) : Nat → Reader (List Expression)
  | 0 => do
    emptyParentheses
    pure []
  | n + 1 => do
    symbol "("
    let first ← expression
    let more ← (List.replicate n expression).mapM fun e => do
      symbol ","
      e
    symbol ")"
    pure (first :: more)

/-- A call of a function. Every number of arguments is tried from the start. -/
def functionCall (expression : Reader Expression) (name : String) (arities : List Nat) :
    Reader Expression := do
  keyword name
  .of <$> oneOf (arities.map (arguments expression))

/-- Something in parentheses without blanks before them. -/
def adjoining {α : Type} (p : Reader α) : Reader α := do
  let follows ← nextIs (· = '(')
  guard follows
  p

/-- A call of a function whose arguments come right after its name. -/
def tightCall (expression : Reader Expression) (name : String) (arities : List Nat) :
    Reader Expression := do
  keyword name
  .of <$> adjoining (oneOf (arities.map (arguments expression)))

/-- What an aggregate is computed of, between parentheses. -/
def inAggregate (isDistinct : Bool) (content : Reader Unit) : Reader Unit := do
  symbol "("
  if isDistinct then keyword "DISTINCT"
  content
  symbol ")"

/-- What an aggregate is computed of, with or without duplicates. -/
def aggregated (content : Reader Unit) : Reader Unit :=
  inAggregate true content <|> inAggregate false content

/-- The text between the values of a concatenation. -/
def separatorClause : Reader Unit := do
  symbol ";"
  keyword "SEPARATOR"
  symbol "="
  let _ ← stringValue

/-- An aggregate as it is written. A concatenation is tried with a separator before it is tried
without. -/
def aggregateCall (expression : Reader Expression) : Reader Unit :=
  let item : Reader Unit := do
    let _ ← expression
  (do
    keyword "COUNT"
    aggregated (symbol "*" <|> item)) <|>
  oneOf (aggregates.map fun name => do
    keyword name
    aggregated item) <|>
  (do
    keyword "GROUP_CONCAT"
    oneOf ([true, false].map fun isDistinct =>
      inAggregate isDistinct (do item; separatorClause) <|> inAggregate isDistinct item)) <|>
  (do
    let _ ← iri
    aggregated item)

/-- An aggregate: a variable of the innermost selection stands for it. -/
def aggregate (expression : Reader Expression) : Reader Expression := do
  aggregateCall expression
  let name ← fresh
  let s ← Parser.get
  let s ← ofOption (s.addAggregate? name)
  Parser.modify fun _ => s
  pure (.var name)

/-- An aggregate, a function of the language or a test of a pattern. -/
def builtInCall (expression : Reader Expression) (group : Reader GraphPattern) :
    Reader Expression :=
  aggregate expression <|>
  oneOf (functions.map fun (name, arities) => functionCall expression name arities) <|>
  oneOf (tightFunctions.map fun (name, arities) => tightCall expression name arities) <|>
  (do
    keyword "BOUND"
    symbol "("
    let _ ← variableName
    symbol ")"
    pure .closed) <|>
  (do
    keyword "CONCAT"
    .of <$> adjoining (expressionList expression)) <|>
  (do
    keyword "COALESCE"
    let _ ← adjoining (expressionList expression)
    pure .closed) <|>
  (do
    keyword "EXISTS"
    let _ ← group
    pure .closed) <|>
  (do
    keyword "NOT"
    keyword "EXISTS"
    let _ ← group
    pure .closed)

/-! ### Operators -/

/-- An expression between parentheses. -/
def bracketed (expression : Reader Expression) : Reader Expression := do
  symbol "("
  let e ← expression
  symbol ")"
  pure e

/-- The call of a function by its IRI. -/
def iriCall (expression : Reader Expression) : Reader Expression := do
  let _ ← iri
  .of <$> expressionList expression

/-- An expression without operators. -/
def primary (expression : Reader Expression) (group : Reader GraphPattern) : Reader Expression :=
  bracketed expression <|>
  iriCall expression <|>
  (do let _ ← iri; pure .closed) <|>
  (.var <$> variableName) <|>
  (do let _ ← literal; pure .closed) <|>
  builtInCall expression group

/-- An expression with a sign or a negation. -/
def unary (expression : Reader Expression) (group : Reader GraphPattern) : Reader Expression :=
  (do
    symbol "!" <|> symbol "+" <|> symbol "-"
    let e ← primary expression group
    pure (.of [e])) <|>
  primary expression group

/-- Operands with operators between them. -/
def operands (operand : Reader Expression) (operator : Reader Unit) : Reader Expression := do
  let first ← operand
  let more ← many do
    operator
    operand
  pure (if more.isEmpty then first else .of (first :: more))

/-- A sum of products. -/
def numeric (expression : Reader Expression) (group : Reader GraphPattern) : Reader Expression :=
  operands (operands (unary expression group) (symbol "*" <|> symbol "/"))
    (symbol "+" <|> symbol "-")

/-- A comparison of two values or with a list of values. -/
def comparison (expression : Reader Expression) (group : Reader GraphPattern) :
    Reader Expression := do
  let left ← numeric expression group
  let right? ← optional? <|
    (do
      oneOf (["=", "!=", ">=", ">", "<=", "<"].map symbol)
      let e ← numeric expression group
      pure [e]) <|>
    (do
      keyword "IN"
      expressionList expression) <|>
    (do
      keyword "NOT"
      keyword "IN"
      expressionList expression)
  pure (right?.elim left fun right => .of (left :: right))

/-- An expression, beside the groups that patterns are written in. -/
def expression (group : Reader GraphPattern) : Reader Expression := nested fun inside =>
  operands (operands (comparison inside group) (symbol "&&")) (symbol "||")

/-- An expression that can stand without parentheses of its own. -/
def constraint (group : Reader GraphPattern) : Reader Expression :=
  bracketed (expression group) <|> iriCall (expression group) <|>
    builtInCall (expression group) group

end StarShapes.Sparql
