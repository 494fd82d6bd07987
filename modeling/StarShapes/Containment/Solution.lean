import StarShapes.Binding.Binder
import StarShapes.Containment.Grounding
import StarShapes.Containment.Verdict

/-!
Containment of a query in a set of shapes.

* `Problem`: a query, the shapes that its stars are classified against, further shapes that rules
  may name, and possibly a set of deciding shapes.
* `Problem.table`: the bindings of every star against every shape, found with one memory.
* `Problem.verdicts`: the verdicts on the rows of the table; then stars explained by the ray of
  another star depend on it, and deciding shapes turn containment into partial containment.
* `Problem.links`: the named nodes that no binding accounts for.
* `Problem.solve`: all of it.
-/

namespace StarShapes

/-- A query and the shapes to explain it. -/
structure Problem where
  /-- The query. -/
  query : Query
  /-- The shapes that stars are classified against. -/
  shapes : List Shape
  /-- Shapes that are used only where a rule names them. -/
  dependent : List Shape
  /-- Shapes that decide containment only in part. -/
  deciding? : Option (List String)

/-- A named node that can only be looked up directly. -/
structure ConditionalLink where
  /-- The IRI of the node. -/
  iri : String
  /-- The star of the triple with this object. -/
  star : String
  deriving DecidableEq, Repr

/-- What is found about a star. -/
structure Containment where
  /-- The verdict. -/
  verdict : Verdict
  /-- The bindings against each shape. -/
  bindings : Dict String Bindings

/-- What is found about a query. -/
structure Solution where
  /-- What is found about each star. -/
  containments : List (String × Containment)
  /-- Whether the data of each shape is worth fetching. -/
  visits : Dict String Bool
  /-- The named nodes that no binding accounts for. -/
  links : List ConditionalLink
  /-- The shapes found missing. -/
  unresolved : List Unresolved

/-- The shapes of a list by name, the first of a name. -/
def firstByName (shapes : List Shape) : Keyed Shape.name :=
  shapes.foldl (fun m s => if m.contains s.name then m else m.insert s) .empty

namespace Problem

/-- The scene in which the stars are matched: of several shapes of one name the first counts. -/
def scene (p : Problem) : Scene := ⟨p.query, firstByName (p.shapes ++ p.dependent)⟩

/-- The bindings of a star against each of the shapes. -/
def bindRow (scene : Scene) (name : String) : List Shape → Memory → List Bindings × Memory
  | [], m => ([], m)
  | s :: rest, m =>
    let (b?, m) := m.bind scene s name
    let (row, m) := bindRow scene name rest m
    (b?.toList ++ row, m)

/-- The bindings of each of the stars against each of the shapes. -/
def bindRows (scene : Scene) (shapes : List Shape) :
    List String → Memory → List (String × List Bindings)
  | [], _ => []
  | n :: rest, m =>
    let (row, m) := bindRow scene n shapes m
    (n, row) :: bindRows scene shapes rest m

/-- The bindings of every star against every shape, row by row. -/
def table (p : Problem) : List (String × List Bindings) :=
  bindRows p.scene p.shapes p.query.names .empty

/-- The bindings in a table, in order. -/
def entries (table : List (String × List Bindings)) : List Bindings := table.flatMap Prod.snd

/-- The verdicts on the rows of a table by themselves. -/
def rowVerdicts (table : List (String × List Bindings)) : Dict String Verdict :=
  .ofList (table.map fun (n, row) => (n, Verdict.ofRow row))

/-- The dependencies that a table reports, each once. -/
def dependencies (table : List (String × List Bindings)) : List Dependency :=
  distinct ((entries table).flatMap Bindings.dependencies)

/-- Whether a star counts by itself: it is contained or aligned. -/
def isReady (verdicts : Dict String Verdict) (name : String) : Bool :=
  (verdicts.find? name).any fun v => v.result = .contained || v.result = .aligned

/-- The verdict on a star once other stars may explain it; containment stays. -/
def explain (edges : List Dependency) (verdicts : Dict String Verdict) (name : String)
    (v : Verdict) : Verdict :=
  if v.result = .contained then v
  else
    match groundedTargets edges (isReady verdicts) (dependencyStars edges) name with
    | [] => v
    | targets => .depend targets

/-- The final verdicts on the stars of a table. -/
def verdicts (table : List (String × List Bindings)) (deciding? : Option (List String)) :
    List (String × Verdict) :=
  let first := rowVerdicts table
  let edges := dependencies table
  first.toList.map fun (n, v) =>
    let v := explain edges first n v
    (n, match deciding? with
      | some deciding => v.restrict deciding
      | none => v)

/-- Whether each shape binds some triple of some star. -/
def visits (shapes : List Shape) (table : List (String × List Bindings)) : Dict String Bool :=
  ((entries table).filter Bindings.isWorthVisiting).foldl (fun d b => d.set b.shape true)
    (.ofList (shapes.map fun s => (s.name, false)))

/-- The triples that some binding of a table accounts for. -/
def consumed (containments : List (String × Containment)) : List Triple :=
  (containments.flatMap fun (_, c) => c.bindings.values).flatMap fun b => b.bound ++ b.nestedBound

/-- The named nodes among the objects of triples that are not accounted for. -/
def conditionalLinks (query : Query) (consumed : List Triple) : List ConditionalLink :=
  distinct <| query.triplesBySubject.flatMap fun (n, triples) =>
    (triples.filter fun t => !consumed.contains t).filterMap fun t =>
      t.object.iri?.map fun iri => ⟨iri, n⟩

/-- Classify the stars of the query, tell which shapes are worth visiting and which named nodes
are left to look up. -/
def solve (p : Problem) : Solution :=
  let table := p.table
  let containments := (verdicts table p.deciding?).map fun (n, v) =>
    (n, { verdict := v, bindings := .ofList (((table.find? (·.1 = n)).map Prod.snd).getD []
            |>.map fun b => (b.shape, b)) : Containment })
  { containments
    visits := visits p.shapes table
    links := if p.shapes.isEmpty then [] else conditionalLinks p.query (consumed containments)
    unresolved := distinct ((entries table).flatMap Bindings.unresolved) }

end Problem

end StarShapes
