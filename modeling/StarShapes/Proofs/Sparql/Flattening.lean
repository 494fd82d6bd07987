import StarShapes.Proofs.Collection.Distinct
import StarShapes.Sparql.Draft

/-!
Flattening: the query that a graph pattern asks for, told from the triples that occur in it.

* `Occurrence`: a triple where it occurs in a pattern. Several occurrences make one star for each
  subject, with one ray for each predicate (`Occurrence.stars`).
* `GraphPattern.outer`: the triples of a pattern outside of every union, from left to right.
* `GraphPattern.leaves`: the patterns between which unions directly inside of one another choose.
  `GraphPattern.groups`: the groups of branches in a pattern.
* `FillsDraft`, `FillsUnion`: what a pattern adds to a draft and to the branches of a union, and that
  every pattern does (`fills`).
* `ofPattern_eq_new`: the query of a pattern has the stars of its outer triples, and its groups.
-/

namespace StarShapes.Sparql

/-- A triple where it occurs in a pattern. -/
structure Occurrence where
  /-- The triple. -/
  triple : Triple
  /-- Whether its subject stands for nodes that the query does not name. -/
  isVariable : Bool

namespace Occurrence

/-- The occurrence of a triple, unless its subject is a literal. -/
def of? (isOptional : Bool) (subject : Term) (predicate : String) (object : Term) :
    Option Occurrence :=
  subject.name?.map fun name => ⟨⟨name, predicate, object, isOptional⟩, subject.iri?.isNone⟩

/-! ### The stars of some occurrences -/

/-- The ray of a predicate: the last triple that has it. -/
def ray? (xs : List Occurrence) (predicate : String) : Option Ray :=
  (xs.filter (·.triple.predicate = predicate)).getLast?.map fun x => ⟨x.triple, none⟩

lemma predicate_of_ray? {xs : List Occurrence} (predicate : String) (r : Ray)
    (h : ray? xs predicate = some r) : r.predicate = predicate := by
  obtain ⟨x, hx, rfl⟩ := Option.map_eq_some_iff.mp h
  exact of_decide_eq_true (List.mem_filter.mp (List.mem_of_getLast? hx)).2

/-- One ray for each predicate, in the order in which these come up. -/
def rays (xs : List Occurrence) : Keyed Ray.predicate :=
  .tabulate (ray? xs) predicate_of_ray? (xs.map (·.triple.predicate))

/-- The star of a subject: its first triple tells whether it is a variable. -/
def star? (xs : List Occurrence) (name : String) : Option Star :=
  let own := xs.filter (·.triple.subject = name)
  own.head?.map fun first => ⟨name, first.isVariable, rays own⟩

lemma name_of_star? {xs : List Occurrence} (name : String) (s : Star)
    (h : star? xs name = some s) : s.name = name := by
  obtain ⟨x, -, rfl⟩ := Option.map_eq_some_iff.mp h
  rfl

/-- One star for each subject, in the order in which these come up. -/
def stars (xs : List Occurrence) : Branch :=
  .tabulate (star? xs) name_of_star? (xs.map (·.triple.subject))

/-- A key that occurs has occurrences of its own. -/
lemma filter_ne_nil {f : Occurrence → String} {xs : List Occurrence} {k : String}
    (h : k ∈ xs.map f) : xs.filter (f · = k) ≠ [] := by
  obtain ⟨x, hx, he⟩ := List.mem_map.mp h
  exact List.ne_nil_of_mem (List.mem_filter.mpr ⟨hx, decide_eq_true he⟩)

/-- One more triple takes the place of its predicate among the rays. -/
lemma rays_append_singleton (xs : List Occurrence) (x : Occurrence) :
    rays (xs ++ [x]) = (rays xs).insert ⟨x.triple, none⟩ := by
  rw [rays, List.map_append, List.map_singleton]
  refine Keyed.tabulate_append_singleton ?_ ?_ fun hmem => ?_
  · simp [ray?]
  · intro l hl
    simp [ray?, Ne.symm hl]
  · rw [ray?, Option.isSome_map, List.getLast?_isSome]
    exact filter_ne_nil hmem

/-- The star of a subject is found there. -/
lemma get?_stars (xs : List Occurrence) (name : String) :
    (stars xs).get? name = star? xs name := by
  refine Keyed.get?_tabulate fun hmem => ?_
  have hown : xs.filter (·.triple.subject = name) = [] :=
    List.filter_eq_nil_iff.mpr fun x hx he =>
      hmem (List.mem_map.mpr ⟨x, hx, of_decide_eq_true he⟩)
  rw [star?, hown]
  rfl

/-- One more triple goes to the star of its subject, or to a new one. -/
lemma star?_append_singleton (xs : List Occurrence) (x : Occurrence) :
    star? (xs ++ [x]) x.triple.subject = some
      (((star? xs x.triple.subject).getD (Star.new x.triple.subject x.isVariable)).insert
        x.triple none) := by
  have hown : (xs ++ [x]).filter (·.triple.subject = x.triple.subject) =
      xs.filter (·.triple.subject = x.triple.subject) ++ [x] := by simp
  rw [star?, star?, hown, rays_append_singleton]
  cases xs.filter (·.triple.subject = x.triple.subject) with
  | nil => rfl
  | cons first rest => rfl

/-- One more triple takes the place of its subject among the stars. -/
lemma stars_append_singleton (xs : List Occurrence) (x : Occurrence) :
    stars (xs ++ [x]) = (stars xs).insert
      ((((stars xs).get? x.triple.subject).getD (Star.new x.triple.subject x.isVariable)).insert
        x.triple none) := by
  rw [stars, List.map_append, List.map_singleton, get?_stars]
  refine Keyed.tabulate_append_singleton (star?_append_singleton xs x) ?_ fun hmem => ?_
  · intro l hl
    simp [star?, Ne.symm hl]
  · rw [star?, Option.isSome_map, List.isSome_head?]
    exact filter_ne_nil hmem

end Occurrence

/-! ### The triples that occur in a pattern -/

/-- The occurrence of a triple with variables, unless its predicate is one. -/
def TriplePattern.occurrence? (isOptional : Bool) (t : TriplePattern) : Option Occurrence :=
  match t.predicate with
  | .iri predicate => Occurrence.of? isOptional t.subject predicate t.object
  | .var _ => none

namespace GraphPattern

/-- The triples outside of every union, from left to right; those on the right side of a left join
are optional, as all are if the pattern is. -/
def outer (isOptional : Bool) : GraphPattern → List Occurrence
  | basic triples => triples.filterMap (TriplePattern.occurrence? isOptional)
  | path subject (.predicate predicate) object =>
    (Occurrence.of? isOptional subject predicate object).toList
  | path _ _ _ => []
  | join left right => left.outer isOptional ++ right.outer isOptional
  | leftJoin left right => left.outer isOptional ++ right.outer true
  | minus left right => left.outer isOptional ++ right.outer isOptional
  | union _ _ => []
  | filter inner | graph _ inner | extend inner _ | orderBy inner | project inner _
  | distinct inner | reduced inner | slice inner | group inner _ => inner.outer isOptional
  | values _ => []
  | service _ _ => []

/-- The patterns between which a union chooses, where those directly inside of it count as parts
of it, from left to right. -/
def leaves : GraphPattern → List GraphPattern
  | union left right => left.leaves ++ right.leaves
  | g => [g]

lemma sizeOf_leaf_le {g leaf : GraphPattern} (h : leaf ∈ g.leaves) : sizeOf leaf ≤ sizeOf g := by
  induction g with
  | union left right ihl ihr =>
      rw [union.sizeOf_spec]
      rcases List.mem_append.mp h with h | h
      · have := ihl h
        omega
      · have := ihr h
        omega
  | _ => exact (List.mem_singleton.mp h) ▸ le_rfl

lemma sizeOf_leaf_lt {left right leaf : GraphPattern} (h : leaf ∈ (union left right).leaves) :
    sizeOf leaf < sizeOf (union left right) := by
  rw [union.sizeOf_spec]
  rcases List.mem_append.mp h with h | h
  · have := sizeOf_leaf_le h
    omega
  · have := sizeOf_leaf_le h
    omega

/-- The groups in a pattern: one for every union that is not directly inside of another, with one
branch for each of its leaves, after the groups inside of these. -/
def groups (isOptional : Bool) : GraphPattern → List (List Branch)
  | union left right =>
    let leaves := (union left right).leaves
    leaves.attach.flatMap (fun ⟨leaf, _⟩ => leaf.groups isOptional) ++
      [leaves.map fun leaf => Occurrence.stars (leaf.outer isOptional)]
  | join left right => left.groups isOptional ++ right.groups isOptional
  | leftJoin left right => left.groups isOptional ++ right.groups true
  | minus left right => left.groups isOptional ++ right.groups isOptional
  | filter inner | graph _ inner | extend inner _ | orderBy inner | project inner _
  | distinct inner | reduced inner | slice inner | group inner _ => inner.groups isOptional
  | basic _ => []
  | path _ _ _ => []
  | values _ => []
  | service _ _ => []
termination_by g => sizeOf g
decreasing_by
  all_goals first | exact sizeOf_leaf_lt ‹_› | decreasing_tactic

/-- The group of a union comes after the groups inside of its leaves. -/
lemma groups_union (isOptional : Bool) (left right : GraphPattern) :
    (union left right).groups isOptional =
      (union left right).leaves.flatMap (groups isOptional) ++
        [(union left right).leaves.map fun leaf => Occurrence.stars (leaf.outer isOptional)] := by
  rw [groups]
  dsimp only
  rw [List.flatMap_subtype (g := groups isOptional) fun _ _ => rfl, List.unattach_attach]

end GraphPattern

/-! ### Reading a pattern -/

lemma addPattern_stars (xs : List Occurrence) (unions : List (List Branch)) (p : Position)
    (subject : Term) (predicate : String) (object : Term) :
    (Draft.mk (Occurrence.stars xs) unions).addPattern p subject predicate object =
      ⟨Occurrence.stars
        (xs ++ (Occurrence.of? p.isOptional subject predicate object).toList), unions⟩ := by
  rw [Draft.addPattern, Occurrence.of?]
  cases subject.name? with
  | none => simp
  | some name => simp [Draft.addTriple, Occurrence.stars_append_singleton]

/-- Basic patterns add the triples that occur in them. -/
lemma foldl_addTriplePattern_stars (triples : List TriplePattern) (xs : List Occurrence)
    (unions : List (List Branch)) (p : Position) :
    triples.foldl (Draft.addTriplePattern p) ⟨Occurrence.stars xs, unions⟩ =
      ⟨Occurrence.stars (xs ++ triples.filterMap (TriplePattern.occurrence? p.isOptional)),
        unions⟩ := by
  induction triples generalizing xs with
  | nil => simp
  | cons t triples ih =>
      have hadd : (Draft.mk (Occurrence.stars xs) unions).addTriplePattern p t =
          ⟨Occurrence.stars (xs ++ (t.occurrence? p.isOptional).toList), unions⟩ := by
        rw [Draft.addTriplePattern, TriplePattern.occurrence?]
        cases t.predicate with
        | iri predicate => exact addPattern_stars xs unions p t.subject predicate t.object
        | var _ => simp
      rw [List.foldl_cons, hadd, ih, List.append_assoc]
      cases ht : t.occurrence? p.isOptional with
      | none => rw [List.filterMap_cons_none ht]; rfl
      | some x => rw [List.filterMap_cons_some ht]; rfl

/-- Reading a pattern adds its outer triples to a draft, and its groups. -/
def FillsDraft (g : GraphPattern) : Prop :=
  ∀ xs unions p, (Draft.mk (Occurrence.stars xs) unions).read p g =
    ⟨Occurrence.stars (xs ++ g.outer p.isOptional), unions ++ g.groups p.isOptional⟩

/-- Reading a pattern as a part of a union adds a branch for each of its leaves, and the groups
inside of these. -/
def FillsUnion (g : GraphPattern) : Prop :=
  ∀ branches inner p, (Branches.mk branches inner).read p g =
    ⟨branches ++ g.leaves.map fun leaf => Occurrence.stars (leaf.outer p.isOptional),
      inner ++ g.leaves.flatMap (GraphPattern.groups p.isOptional)⟩

/-- A pattern that is no union is one branch of its own. -/
lemma fills_of_ne_union {g : GraphPattern} (hg : ∀ left right, g ≠ .union left right)
    (h : FillsDraft g) : FillsDraft g ∧ FillsUnion g := by
  refine ⟨h, fun branches inner p => ?_⟩
  have hempty : Draft.empty = ⟨Occurrence.stars [], []⟩ := rfl
  rw [Branches.read, GraphPattern.leaves, hempty, h]
  · simp [Branches.add]
  all_goals exact hg

/-- The branches of both sides of a union make one group, which comes last. -/
lemma fills_union {left right : GraphPattern} (hl : FillsUnion left) (hr : FillsUnion right) :
    FillsDraft (.union left right) ∧ FillsUnion (.union left right) := by
  constructor
  · intro xs unions p
    rw [Draft.read, Branches.empty, hl, hr, GraphPattern.groups_union]
    simp [GraphPattern.outer, GraphPattern.leaves]
  · intro branches inner p
    rw [Branches.read, hl, hr]
    simp [GraphPattern.leaves]

/-- What a pattern adds where it is read. -/
lemma fills (g : GraphPattern) : FillsDraft g ∧ FillsUnion g := by
  induction g with
  | basic triples =>
      refine fills_of_ne_union (by simp) fun xs unions p => ?_
      rw [Draft.read, foldl_addTriplePattern_stars]
      simp [GraphPattern.outer, GraphPattern.groups]
  | path subject path object =>
      refine fills_of_ne_union (by simp) fun xs unions p => ?_
      cases path with
      | predicate predicate =>
          rw [Draft.read, Draft.addPath, addPattern_stars]
          simp [GraphPattern.outer, GraphPattern.groups]
      | _ =>
          rw [Draft.read]
          simp [Draft.addPath, GraphPattern.outer, GraphPattern.groups]
  | join left right ihl ihr | leftJoin left right ihl ihr | minus left right ihl ihr =>
      refine fills_of_ne_union (by simp) fun xs unions p => ?_
      rw [Draft.read, ihl.1, ihr.1]
      simp [GraphPattern.outer, GraphPattern.groups]
  | union left right ihl ihr => exact fills_union ihl.2 ihr.2
  | filter inner ih | graph _ inner ih | extend inner _ ih | orderBy inner ih
  | project inner _ ih | distinct inner ih | reduced inner ih | slice inner ih
  | group inner _ ih =>
      refine fills_of_ne_union (by simp) fun xs unions p => ?_
      rw [Draft.read, ih.1]
      simp [GraphPattern.outer, GraphPattern.groups]
  | values _ | service _ _ _ =>
      refine fills_of_ne_union (by simp) fun xs unions p => ?_
      rw [Draft.read]
      simp [GraphPattern.outer, GraphPattern.groups]

end StarShapes.Sparql

namespace StarShapes.Query

open Sparql

/-- **The query of a pattern**, told from the triples that occur in it: those outside of every union
make the stars, every union makes a group after those inside of it, and each ray is linked in the
scope of its star. -/
theorem ofPattern_eq_new (g : GraphPattern) :
    ofPattern g = new (Occurrence.stars (g.outer false)) (g.groups false) := by
  have hempty : Draft.empty = ⟨Occurrence.stars [], []⟩ := rfl
  rw [ofPattern, hempty, (fills g).1, Position.isOptional_root, List.nil_append,
    List.nil_append]

example : (ofPattern (.leftJoin (.basic [⟨.var "x", .iri "p", .var "y"⟩])
    (.union (.basic [⟨.var "y", .iri "q", .var "z"⟩])
      (.join (.union .nothing .nothing) (.basic [⟨.var "z", .iri "r", .var "y"⟩]))))).unions.map
        (List.map fun b => b.toList.flatMap Star.triples) =
    [[[], []], [[⟨"y", "q", .var "z", true⟩], [⟨"z", "r", .var "y", true⟩]]] := by
  cbv

end StarShapes.Query
