import StarShapes.Proofs.Binding.Descent

/-!
Asking: a match sees no other shapes than those that rules ask for.

* `Shape.AsksFor`: a rule of a shape names another, and it alone.
* `Scene.AlikeFor`: two scenes have the same query, and the shapes of a set find the same shapes of
  the set where they ask for one.
* `Memory.bind_of_alike`, `Memory.bindAll_of_alike`: in such scenes a star is matched against a
  shape of the set in the same way, whatever else is loaded. What carries this through the recursion
  is the descent, whose states do not mention a scene (`Descent.bindStar_of_alike`).
-/

namespace StarShapes

/-! ### Shapes that are asked for -/

/-- A rule that is asked for names this shape and no other. -/
def Shape.AsksFor (s : Shape) (name : String) : Prop :=
  ∃ r ∈ s.positive.toList, r.constraint?.bind Constraint.target? = some name

instance (s : Shape) (name : String) : Decidable (s.AsksFor name) :=
  inferInstanceAs (Decidable (∃ r ∈ s.positive.toList, _))

/-- A shape that leaves a ray to another shape asks for it. -/
lemma Shape.asksFor_of_demand {s : Shape} {ray : Ray} {target link : String}
    (h : s.demand ray = .conform target link) : s.AsksFor target := by
  obtain ⟨r, targets, hrule, hnegative, hconstraint, htarget, -⟩ := demand_eq_conform_iff.mp h
  refine ⟨r, ?_, by rw [hconstraint]; exact htarget⟩
  rw [get?, Option.or_eq_some_iff] at hrule
  rcases hrule with hrule | ⟨-, hrule⟩
  · exact Keyed.mem_of_get? hrule
  · rw [s.isNegative_negative r (Keyed.mem_of_get? hrule)] at hnegative
    cases hnegative

/-- Two scenes in which the shapes of a set are matched alike. -/
structure Scene.AlikeFor (scene scene' : Scene) (known : Set Shape) : Prop where
  /-- The query is the same. -/
  query : scene'.query = scene.query
  /-- What a shape of the set asks for is looked up alike. -/
  asked : ∀ s ∈ known, ∀ name, s.AsksFor name → scene'.shapes.get? name = scene.shapes.get? name
  /-- What is found is in the set. -/
  found : ∀ name s, scene.shapes.get? name = some s → s ∈ known

variable {scene scene' : Scene} {known : Set Shape} {shape : Shape}

/-! ### Matching in two scenes -/

namespace Descent

/-- One ray, if stars one level further down are matched alike. -/
lemma followRay_of_alike (h : scene.AlikeFor scene' known) (hshape : shape ∈ known)
    {bindNext bindNext' : Shape → Star → Descent → Option (Bindings × Descent)}
    (hnext : ∀ next ∈ known, bindNext' next = bindNext next) :
    followRay scene' bindNext' shape = followRay scene bindNext shape := by
  funext p ray
  rw [followRay, followRay]
  cases hd : shape.demand ray with
  | settled binds => rfl
  | conform target link =>
      dsimp only
      rw [h.asked shape hshape target (Shape.asksFor_of_demand hd)]
      cases hs : scene.shapes.get? target with
      | none => rfl
      | some next =>
          dsimp only
          rw [hnext next (h.found target next hs), h.query]

/-- A star against a shape. -/
lemma bindStar_of_alike (h : scene.AlikeFor scene' known) (fuel : Nat) (hshape : shape ∈ known) :
    bindStar scene' fuel shape = bindStar scene fuel shape := by
  induction fuel generalizing shape with
  | zero => rfl
  | succ fuel ih =>
      funext star d
      rw [bindStar, bindStar, followRay_of_alike h hshape fun next hnext => ih hnext]

/-- The stars of a name against a shape. -/
lemma bind_of_alike (h : scene.AlikeFor scene' known) (fuel : Nat) (hshape : shape ∈ known)
    (name : String) : bind scene' fuel shape name = bind scene fuel shape name := by
  funext d
  rw [bind, bind, bindStar_of_alike h fuel hshape, h.query]

end Descent

namespace Memory

variable {m : Memory}

/-- The stars of a name against a shape, with what was remembered so far. -/
theorem bind_of_alike (h : scene.AlikeFor scene' known) (hshape : shape ∈ known) (name : String)
    (hm : m.Labelled scene) : m.bind scene' shape name = m.bind scene shape name := by
  have hm' : m.Labelled scene' := fun g b hb => h.query ▸ hm g b hb
  have hbounded : ∀ scene, (⟨[], m, [[]]⟩ : Descent).Bounded scene := fun scene =>
    Descent.bounded_start
  -- enough fuel for either scene
  obtain ⟨fuel, hfuel, hfuel'⟩ : ∃ fuel,
      scene.shapes.size * scene.query.names.length < fuel ∧
        scene'.shapes.size * scene'.query.names.length < fuel :=
    ⟨_, Nat.lt_succ_of_le (Nat.le_max_left _ _), Nat.lt_succ_of_le (Nat.le_max_right _ _)⟩
  obtain ⟨d, hd, hmemory, -⟩ :=
    Descent.imitates_bind hfuel shape name ⟨[], m, [[]]⟩ rfl hm (hbounded scene)
  obtain ⟨d', hd', hmemory', -⟩ :=
    Descent.imitates_bind hfuel' shape name ⟨[], m, [[]]⟩ rfl hm' (hbounded scene')
  rw [Descent.bind_of_alike h fuel hshape, hd] at hd'
  obtain ⟨hanswer, rfl⟩ := Prod.mk.inj (Option.some.inj hd')
  exact Prod.ext hanswer.symm (hmemory'.symm.trans hmemory)

/-- A sequence of calls. -/
lemma bindAll_of_alike (h : scene.AlikeFor scene' known) {calls : List Task}
    (hcalls : ∀ t ∈ calls, t.shape ∈ known) (hm : m.Labelled scene) :
    m.bindAll scene' calls = m.bindAll scene calls := by
  induction calls generalizing m with
  | nil => rfl
  | cons t calls ih =>
      obtain ⟨-, hlabelled, -⟩ := Scene.keeps_bind t.shape t.star hm
      rw [bindAll, bindAll, bind_of_alike h (hcalls t List.mem_cons_self) t.star hm]
      dsimp only
      rw [ih (fun u hu => hcalls u (List.mem_cons_of_mem _ hu)) hlabelled]

end Memory

end StarShapes
