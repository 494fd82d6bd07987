import Mathlib.Data.List.Nodup
import StarShapes.Proofs.Schema.References

/-!
Naming: the shapes that are read all at once are those that are read one by one, each under its
name.

* `Graph.nameOf_eq_or`: a node has its own name, or that of a declaration that wraps it.
* `Graph.DeclaresApart`: no node is both a shape and a declaration. Then the name of a shape leads
  back to its node (`DeclaresApart.shapeNamed_nameOf`), and no two shapes have the same name
  (`DeclaresApart.injOn_nameOf`).
* `shapeNamed_of_shapes`: the names of the shapes that are read are distinct, and under each of them
  the same shape is read by itself.
-/

namespace StarShapes

namespace Graph

open Vocabulary

variable {g : Graph}

/-- A node has its own name, or that of a declaration that wraps it. -/
lemma nameOf_eq_or (g : Graph) (node : String) :
    g.nameOf node = node ∨ g.hasType (g.nameOf node) (shex "ShapeDecl") = true ∧
      g.declaredNode? (g.nameOf node) = some node := by
  cases hd : declaredName? g.declarations node with
  | none => exact .inl (by rw [nameOf, hd, Option.getD_none])
  | some d =>
      have hname : g.nameOf node = d := by rw [nameOf, hd, Option.getD_some]
      rw [hname]
      exact .inr (mem_declarations.mp (mem_wrapping_iff.mp (List.mem_of_getLast? hd)))

/-- No node is both a shape and a declaration. -/
def DeclaresApart (g : Graph) : Prop :=
  ∀ node, g.hasType node (shex "Shape") = true → g.hasType node (shex "ShapeDecl") = false

namespace DeclaresApart

/-- The name of a shape leads back to its node. -/
lemma shapeNamed_nameOf (h : g.DeclaresApart) {node : String}
    (hnode : g.hasType node (shex "Shape") = true) :
    g.shapeNamed (g.nameOf node) = g.shapeAt node (g.nameOf node) := by
  rcases g.nameOf_eq_or node with hown | ⟨hdeclares, hwraps⟩
  · rw [hown, shapeNamed, if_pos hnode]
  · have hno : g.hasType (g.nameOf node) (shex "Shape") ≠ true := by
      intro hshape
      rw [h _ hshape] at hdeclares
      cases hdeclares
    rw [shapeNamed, if_neg hno, hwraps]

/-- Shapes at different nodes have different names: a declaration wraps one node only, and its name
is not that of a shape. -/
lemma injOn_nameOf (h : g.DeclaresApart) :
    Set.InjOn g.nameOf {node | g.hasType node (shex "Shape") = true} := by
  -- where one of the two keeps its own name, the other cannot have it from a declaration
  have hmixed : ∀ m n, g.hasType m (shex "Shape") = true → g.nameOf m = g.nameOf n →
      g.nameOf m = m → m = n := by
    intro m n hm he hown
    rcases g.nameOf_eq_or n with hown' | ⟨hdeclares, -⟩
    · rw [← hown, he, hown']
    · rw [← he, hown, h m hm] at hdeclares
      cases hdeclares
  intro m hm n hn he
  rcases g.nameOf_eq_or m with hown | ⟨-, hwraps⟩
  · exact hmixed m n hm he hown
  · rcases g.nameOf_eq_or n with hown' | ⟨-, hwraps'⟩
    · exact (hmixed n m hn he.symm hown').symm
    · rw [he, hwraps'] at hwraps
      exact (Option.some.inj hwraps).symm

end DeclaresApart

/-- The names of the shapes that are read are those of their nodes. -/
lemma map_name_shapes {shapes : List Shape} (h : g.shapes = .ok shapes) :
    shapes.map Shape.name = (g.nodesOfType (shex "Shape")).map g.nameOf := by
  have hnames : List.Forall₂ (fun node s => g.nameOf node = s.name)
      (g.nodesOfType (shex "Shape")) shapes :=
    (shapes_eq_ok_iff.mp h).imp fun _ _ hread => (name_of_shapeAt hread).symm
  rw [← List.forall₂_eq_eq_eq, List.forall₂_map_left_iff, List.forall₂_map_right_iff]
  exact hnames.flip.imp fun _ _ he => he.symm

/-- **The two ways to read a shape agree.** If no node is both a shape and a declaration, the shapes
of a description have distinct names, and each of them is what is read under its name. -/
theorem shapeNamed_of_shapes (hapart : g.DeclaresApart) {shapes : List Shape}
    (h : g.shapes = .ok shapes) :
    (shapes.map Shape.name).Nodup ∧ ∀ s ∈ shapes, g.shapeNamed s.name = .ok s := by
  constructor
  · rw [map_name_shapes h]
    refine List.Nodup.map_on (fun m hm n hn he => ?_) (nodup_nodesOfType (shex "Shape"))
    exact hapart.injOn_nameOf (mem_nodesOfType.mp hm) (mem_nodesOfType.mp hn) he
  · intro s hs
    obtain ⟨node, hnode, hread⟩ := (mem_shapes_iff h).mp hs
    rw [name_of_shapeAt hread, hapart.shapeNamed_nameOf hnode, hread]

/-- Two declarations of a blank node, the first of which lists an IRI, too, and a shape that nothing
wraps. -/
def twiceDeclared : Graph := stating [
  ("D", rdfType, .named (shex "ShapeDecl")),
  ("D", shex "shapeExpr", .blank "s"),
  ("D", shex "shapeExpr", .named "T"),
  ("T", rdfType, .named (shex "Shape")),
  ("T", shex "closed", .literal (.simple "true")),
  ("_:s", rdfType, .named (shex "Shape")),
  ("_:s", shex "expression", .blank "e"),
  ("_:e", rdfType, .named (shex "TripleConstraint")),
  ("_:e", shex "predicate", .named "p"),
  ("E", rdfType, .named (shex "ShapeDecl")),
  ("E", shex "shapeExpr", .blank "s")]

/-- The blank node is read under the name of its last declaration, the IRI under its own name. -/
theorem twiceDeclared_named : twiceDeclared.DeclaresApart ∧
    ∃ shapes, twiceDeclared.shapes = .ok shapes ∧ shapes.map Shape.name = ["T", "E"] ∧
      (shapes.map Shape.name).Nodup ∧ ∀ s ∈ shapes, twiceDeclared.shapeNamed s.name = .ok s := by
  have hnodes : ∀ node ∈ twiceDeclared.nodesOfType (shex "Shape"),
      twiceDeclared.hasType node (shex "ShapeDecl") = false := by decide +kernel
  have hapart : twiceDeclared.DeclaresApart := fun node hnode =>
    hnodes node (mem_nodesOfType.mpr hnode)
  have hread : twiceDeclared.shapes.toOption.map (List.map Shape.name) = some ["T", "E"] := by
    decide +kernel
  obtain ⟨shapes, hs, hnames⟩ := Option.map_eq_some_iff.mp hread
  rw [toOption_eq_some_iff] at hs
  exact ⟨hapart, shapes, hs, hnames, shapeNamed_of_shapes hapart hs⟩

end Graph

end StarShapes
