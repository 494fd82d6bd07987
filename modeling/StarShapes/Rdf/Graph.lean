import StarShapes.Collection.Distinct
import StarShapes.Rdf.Triple

/-!
Graphs: lists of triples, read by the names of their nodes.

* `Graph.objects`, `Graph.object?`: the objects of a node for a predicate, and the first of them.
* `Graph.hasType`, `Graph.nodesOfType`: the classes of nodes.
* `Graph.first?`, `Graph.rest?`: the parts of a list cell; if a graph states one of them several
  times, the last statement counts.
-/

namespace StarShapes

/-- A graph: its triples, in the order in which they are stated. -/
structure Graph where
  /-- The triples. -/
  triples : List Triple
  deriving DecidableEq

namespace Graph

/-- The objects of a node for a predicate, in order. -/
def objects (g : Graph) (node predicate : String) : List Term :=
  (g.triples.filter fun t => t.subject = node ∧ t.predicate = predicate).map Triple.object

/-- The first object of a node for a predicate. -/
def object? (g : Graph) (node predicate : String) : Option Term :=
  (g.objects node predicate).head?

/-- Whether a node is stated to be of a class. -/
def hasType (g : Graph) (node cls : String) : Bool :=
  (g.objects node Vocabulary.rdfType).any fun t => t.iri? = some cls

/-- The nodes of which anything but the parts of a list cell is stated, in order. -/
def nodes (g : Graph) : List String :=
  distinct <| (g.triples.filter fun t =>
    t.predicate ≠ Vocabulary.rdfFirst ∧ t.predicate ≠ Vocabulary.rdfRest).map Triple.subject

/-- The nodes of a class, in order. -/
def nodesOfType (g : Graph) (cls : String) : List String :=
  g.nodes.filter fun n => g.hasType n cls

/-- The element of a list cell. -/
def first? (g : Graph) (cell : String) : Option Term :=
  (g.objects cell Vocabulary.rdfFirst).getLast?

/-- What follows a list cell. -/
def rest? (g : Graph) (cell : String) : Option Term :=
  (g.objects cell Vocabulary.rdfRest).getLast?

/-- An object of a node is that of one of its triples. -/
theorem mem_objects {g : Graph} {n p : String} {o : Term} :
    o ∈ g.objects n p ↔ ∃ t ∈ g.triples, t.subject = n ∧ t.predicate = p ∧ t.object = o := by
  simp only [objects, List.mem_map, List.mem_filter, decide_eq_true_eq]
  exact ⟨fun ⟨t, ⟨ht, hn, hp⟩, ho⟩ => ⟨t, ht, hn, hp, ho⟩,
    fun ⟨t, ht, hn, hp, ho⟩ => ⟨t, ⟨ht, hn, hp⟩, ho⟩⟩

theorem exists_triple_of_first? {g : Graph} {cell : String} {o : Term}
    (h : g.first? cell = some o) :
    ∃ t ∈ g.triples, t.predicate = Vocabulary.rdfFirst ∧ t.subject = cell := by
  obtain ⟨t, ht, hn, hp, _⟩ := mem_objects.1 (List.mem_of_getLast? h)
  exact ⟨t, ht, hp, hn⟩

theorem exists_triple_of_hasType {g : Graph} {node cls : String} (h : g.hasType node cls = true) :
    ∃ t ∈ g.triples, t.predicate = Vocabulary.rdfType ∧ t.subject = node := by
  obtain ⟨o, ho, _⟩ := List.any_eq_true.1 h
  obtain ⟨t, ht, hn, hp, _⟩ := mem_objects.1 ho
  exact ⟨t, ht, hp, hn⟩

/-- The nodes of a class are all those that are stated to be of it. -/
theorem mem_nodesOfType {g : Graph} {node cls : String} :
    node ∈ g.nodesOfType cls ↔ g.hasType node cls = true := by
  rw [nodesOfType, List.mem_filter, and_iff_right_iff_imp]
  intro h
  obtain ⟨t, ht, hp, hn⟩ := exists_triple_of_hasType h
  rw [nodes, mem_distinct]
  refine List.mem_map.2 ⟨t, List.mem_filter.2 ⟨ht, ?_⟩, hn⟩
  rw [hp]
  decide

/-! ### Walking through a graph -/

/-- The number of statements with a predicate about nodes that were not visited. -/
def unvisited (g : Graph) (predicate : String) (visited : List String) : Nat :=
  (g.triples.filter fun t => t.predicate = predicate ∧ t.subject ∉ visited).length

/-- A visit to a new node leaves fewer statements. -/
theorem unvisited_cons_lt {g : Graph} {predicate node : String} {visited : List String}
    (h : ∃ t ∈ g.triples, t.predicate = predicate ∧ t.subject = node) (hn : node ∉ visited) :
    g.unvisited predicate (node :: visited) < g.unvisited predicate visited := by
  obtain ⟨t, ht, hp, rfl⟩ := h
  unfold unvisited
  have e : (g.triples.filter fun t' => t'.predicate = predicate ∧ t'.subject ∉ t.subject :: visited)
      = (g.triples.filter fun t' => t'.predicate = predicate ∧ t'.subject ∉ visited).filter
        fun t' => t'.subject ≠ t.subject := by
    rw [List.filter_filter]
    congr 1
    funext t'
    simp only [List.mem_cons, not_or]
    by_cases h1 : t'.predicate = predicate <;> by_cases h2 : t'.subject = t.subject <;>
      by_cases h3 : t'.subject ∈ visited <;> simp [h1, h2, h3]
  rw [e]
  exact List.length_filter_lt_length_iff_exists.2
    ⟨t, List.mem_filter.2 ⟨ht, by simp [hp, hn]⟩, by simp⟩

end Graph

end StarShapes
