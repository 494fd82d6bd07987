import Mathlib.Logic.Relation
import Mathlib.Order.FixedPoints
import Mathlib.Order.CompletePartialOrder
import StarShapes.Proofs.Binding.Tally

/-!
Conformance: which stars conform to which shapes, said without trail or memory.

* `Scene.conform`: one round. A task is done if some candidate of its star has
  rays, and the shape is open or its rules admit each of them, where a rule
  that asks for a shape at the other end counts the tasks done so far.
* `Scene.Conforms`: the greatest fixed point of this operator, so that stars
  and shapes that ask for each other in a circle conform together.
* `Scene.Leads`: a candidate of a task has a ray that is left to another task.
* `conforms_of_subset`: a set of tasks each of which is done by one round on
  the set and on conforming tasks conforms.
* `conform_local`: one round looks at the tasks that a task leads to, no others.
* `Scene.Hinges`: a task fails, but only because others on a circle with it
  fail.
-/

namespace StarShapes

/-! ### One round -/

/-- The member of a set of one is all that the set has. -/
lemma NameSet.single?_eq_some_iff {s : NameSet} {a : String} :
    s.single? = some a ↔ s.toList = [a] := by
  rw [NameSet.single?]
  split <;> simp_all

/-- What a rule asks of a ray, where the tasks in `X` count as done: it is not
a prohibition, and a literal has a datatype that is listed, and at the other
end of the ray the one shape that the rule names is met. The last is waived if
the ray leads nowhere, the shape is not loaded or the query has no such star. -/
def Rule.Admits (scene : Scene) (X : Set Task) (rule : Rule) (ray : Ray) : Prop :=
  rule.isNegative = false ∧
    match rule.constraint? with
    | none => True
    | some (.datatype types) => ∀ d, ray.triple.object.datatype? = some d → d ∈ types
    | some (.shape targets) => ∀ target link next, targets.toList = [target] →
        ray.link? = some link → scene.shapes.get? target = some next →
          link ∈ scene.query.names → ⟨next, link⟩ ∈ X

/-- A star meets a shape, where the tasks in `X` count as done: it has rays,
and the shape is open or has for each of them a rule that admits it. -/
def Star.Meets (scene : Scene) (X : Set Task) (shape : Shape) (star : Star) : Prop :=
  star.rays.toList ≠ [] ∧ (shape.closed = false ∨ ∀ ray ∈ star.rays.toList,
    ∃ rule, shape.get? ray.predicate = some rule ∧ rule.Admits scene X ray)

lemma Rule.Admits.mono {scene : Scene} {X Y : Set Task} (h : X ⊆ Y) {rule : Rule} {ray : Ray}
    (hr : rule.Admits scene X ray) : rule.Admits scene Y ray := by
  refine ⟨hr.1, ?_⟩
  have h2 := hr.2
  cases hc : rule.constraint? with
  | none => trivial
  | some c =>
      rw [hc] at h2
      cases c with
      | datatype types => exact h2
      | shape targets =>
          exact fun target link next ht hl hs hn => h (h2 target link next ht hl hs hn)

lemma Star.Meets.mono {scene : Scene} {X Y : Set Task} (h : X ⊆ Y) {shape : Shape} {star : Star}
    (hm : star.Meets scene X shape) : star.Meets scene Y shape := by
  refine ⟨hm.1, hm.2.imp_right fun hall ray hray => ?_⟩
  obtain ⟨rule, hr, ha⟩ := hall ray hray
  exact ⟨rule, hr, ha.mono h⟩

namespace Scene

/-- One round: the tasks that are done if those in `X` are. -/
def conform (scene : Scene) : Set Task →o Set Task where
  toFun X := {t | ∃ c ∈ scene.query.candidates t.star, c.Meets scene X t.shape}
  monotone' := fun _ _ h _ ⟨c, hc, hm⟩ => ⟨c, hc, hm.mono h⟩

/-- A task conforms if it is in the greatest set that one round reproduces. -/
def Conforms (scene : Scene) (t : Task) : Prop := t ∈ OrderHom.gfp scene.conform

variable {scene : Scene} {X Y : Set Task} {t u : Task}

lemma mem_conform : t ∈ scene.conform X ↔
    ∃ c ∈ scene.query.candidates t.star, c.Meets scene X t.shape := Iff.rfl

/-- A rule that is there and admits a ray, in terms of what the shape makes of
the ray. -/
lemma admits_iff {shape : Shape} {ray : Ray} (hc : shape.closed = true) :
    (∃ rule, shape.get? ray.predicate = some rule ∧ rule.Admits scene X ray) ↔
      shape.demand ray ≠ .settled false ∧ ∀ u, scene.next? shape ray = some u → u ∈ X := by
  rw [next?, hc, Shape.demand]
  cases shape.get? ray.predicate with
  | none => simp
  | some rule =>
      simp only [Option.some.injEq, exists_eq_left', Rule.Admits, Rule.demand]
      cases rule.isNegative with
      | true => simp
      | false =>
          cases rule.constraint? with
          | none => simp
          | some c =>
              cases c with
              | datatype types =>
                  simp only [NameSet.admits]
                  cases ray.triple.object.datatype? <;> simp
              | shape targets =>
                  simp only [← NameSet.single?_eq_some_iff]
                  cases targets.single? with
                  | none => simp
                  | some target =>
                      cases ray.link? with
                      | none => simp
                      | some link =>
                          have hall : (∀ target' link' next, some target = some target' →
                              some link = some link' → scene.shapes.get? target' = some next →
                                link' ∈ scene.query.names → (⟨next, link'⟩ : Task) ∈ X) ↔
                              (link ∈ scene.query.names → ∀ next,
                                scene.shapes.get? target = some next → ⟨next, link⟩ ∈ X) := by
                            refine ⟨fun h hl next hs => h target link next rfl rfl hs hl, ?_⟩
                            rintro h _ _ next ⟨⟩ ⟨⟩ hs hl
                            exact h hl next hs
                          rw [hall]
                          by_cases hl : link ∈ scene.query.names <;> simp [hl]

/-- A star meets a shape if it has rays, none is refused, and each that is left
to another task finds it done. -/
lemma meets_iff {shape : Shape} {star : Star} :
    star.Meets scene X shape ↔ star.rays.toList ≠ [] ∧ ∀ ray ∈ star.rays.toList,
      (shape.closed = true → shape.demand ray ≠ .settled false) ∧
        ∀ u, scene.next? shape ray = some u → u ∈ X := by
  rw [Star.Meets]
  cases hc : shape.closed with
  | false => simp [next?_of_open hc]
  | true => simp [admits_iff hc]

/-! ### From task to task -/

/-- Some candidate of a task has a ray that its shape leaves to the other
task. -/
def Leads (scene : Scene) (t u : Task) : Prop :=
  ∃ c ∈ scene.query.candidates t.star, ∃ ray ∈ c.rays.toList, scene.next? t.shape ray = some u

/-- One round looks at the tasks that a task leads to, no others. -/
lemma conform_local (h : t ∈ scene.conform X) : t ∈ scene.conform {u ∈ X | scene.Leads t u} := by
  obtain ⟨c, hc, hm⟩ := h
  obtain ⟨hne, hall⟩ := meets_iff.mp hm
  refine ⟨c, hc, meets_iff.mpr ⟨hne, fun ray hray => ⟨(hall ray hray).1, fun u hu => ?_⟩⟩⟩
  exact ⟨(hall ray hray).2 u hu, c, hc, ray, hray, hu⟩

/-- The conforming tasks are those that one round on them gives. -/
lemma conforms_iff_mem_conform :
    scene.Conforms t ↔ t ∈ scene.conform {u | scene.Conforms u} := by
  have h := OrderHom.map_gfp scene.conform
  rw [Conforms, ← h]
  exact Iff.rfl

/-- Tasks that one round gives on them and on conforming tasks conform. -/
lemma conforms_of_subset (h : X ⊆ scene.conform (X ∪ {u | scene.Conforms u})) (ht : t ∈ X) :
    scene.Conforms t := by
  have hpost : X ∪ {u | scene.Conforms u} ≤ scene.conform (X ∪ {u | scene.Conforms u}) := by
    rintro u (hu | hu)
    · exact h hu
    · exact scene.conform.monotone Set.subset_union_right (conforms_iff_mem_conform.mp hu)
  exact OrderHom.le_gfp _ hpost (Or.inl ht)

/-! ### Conformance on assumptions -/

/-- A task conforms if those in `A` are taken to: it belongs to a set of tasks
that one round gives on this set and on `A`. -/
def ConformsIf (scene : Scene) (A : Set Task) (t : Task) : Prop :=
  ∃ P, t ∈ P ∧ P ⊆ scene.conform (P ∪ A)

lemma ConformsIf.mono {A B : Set Task} (h : A ⊆ B) (ht : scene.ConformsIf A t) :
    scene.ConformsIf B t := by
  obtain ⟨P, htP, hP⟩ := ht
  exact ⟨P, htP, hP.trans (scene.conform.monotone (Set.union_subset_union_right P h))⟩

/-- A task conforms on assumptions if one round gives it on itself, on these and
on tasks that conform where it is assumed, too. -/
lemma conformsIf_of_mem_conform {A N : Set Task}
    (hN : ∀ u ∈ N, scene.ConformsIf (insert t A) u) (ht : t ∈ scene.conform (insert t (N ∪ A))) :
    scene.ConformsIf A t := by
  choose! P huP hP using hN
  refine ⟨insert t {v | ∃ u ∈ N, v ∈ P u}, Or.inl rfl, ?_⟩
  rintro v (rfl | ⟨u, hu, hv⟩)
  · refine scene.conform.monotone ?_ ht
    rintro w (rfl | hw | hw)
    · exact Or.inl (Or.inl rfl)
    · exact Or.inl (Or.inr ⟨w, hw, huP w hw⟩)
    · exact Or.inr hw
  · refine scene.conform.monotone ?_ (hP u hu hv)
    rintro w (hw | rfl | hw)
    · exact Or.inl (Or.inr ⟨u, hu, hw⟩)
    · exact Or.inl (Or.inl rfl)
    · exact Or.inr hw

/-- Assumptions that hold can be left out. -/
lemma ConformsIf.conforms {A : Set Task} (ht : scene.ConformsIf A t)
    (hA : ∀ u ∈ A, scene.Conforms u) : scene.Conforms t := by
  obtain ⟨P, htP, hP⟩ := ht
  exact conforms_of_subset
    (hP.trans (scene.conform.monotone (Set.union_subset_union_right P hA))) htP

/-- An assumption counts only if the task leads to it, in one step or more. -/
lemma ConformsIf.reachable {A : Set Task} (ht : scene.ConformsIf A t) :
    scene.ConformsIf {u ∈ A | Relation.TransGen scene.Leads t u} t := by
  obtain ⟨P, htP, hP⟩ := ht
  refine ⟨{u ∈ P | Relation.ReflTransGen scene.Leads t u}, ⟨htP, .refl⟩, ?_⟩
  rintro u ⟨huP, htu⟩
  refine scene.conform.monotone ?_ (conform_local (hP huP))
  rintro v ⟨hv, huv⟩
  rcases hv with hv | hv
  · exact Or.inl ⟨hv, htu.tail huv⟩
  · exact Or.inr ⟨hv, Relation.TransGen.tail' htu huv⟩

/-- The tasks on a circle with a task. -/
def mates (scene : Scene) (t : Task) : Set Task :=
  {u | u ≠ t ∧ Relation.TransGen scene.Leads t u ∧ Relation.TransGen scene.Leads u t}

/-- What conforms on assumptions that all lead to it conforms if the others on
its circles do. -/
lemma ConformsIf.mates {A : Set Task} (ht : scene.ConformsIf A t)
    (hA : ∀ u ∈ A, Relation.TransGen scene.Leads u t) : scene.ConformsIf (scene.mates t) t := by
  obtain ⟨P, htP, hP⟩ := ht.reachable
  refine ⟨P, htP, hP.trans (scene.conform.monotone ?_)⟩
  rintro u (hu | ⟨huA, htu⟩)
  · exact Or.inl hu
  · by_cases he : u = t
    · exact Or.inl (he ▸ htP)
    · exact Or.inr ⟨he, htu, hA u huA⟩

/-- A task hinges on its circle if it does not conform, but would if the other
tasks on a circle with it did. -/
def Hinges (scene : Scene) (t : Task) : Prop :=
  ¬ scene.Conforms t ∧ scene.ConformsIf (scene.mates t) t

end Scene

end StarShapes
