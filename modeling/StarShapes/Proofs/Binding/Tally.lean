import StarShapes.Binding.Binder
import StarShapes.Proofs.Collection.Dictionaries

/-!
What the rays of a star add up to, once it is known what was found at their
other ends.

* `Task`: a star to be matched against a shape. `Scene.next?` is the task that
  a shape leaves a ray to (`Shape.demand_eq_conform_iff`).
* `Scene.tally`: the bindings of a star, where `reply` gives the bindings found
  at the other end of a ray, or nothing if the ray was taken unseen.
* `full_tally_iff`, `slots_tally`, `bound_tally_perm`, `unbound_tally`, `count_tally`,
  `mem_unresolved_tally`, `mem_dependencies_tally`, `exists_ray_of_mem_nested`,
  `mem_nestedBound_tally`: the parts of these bindings, ray by ray.
-/

namespace StarShapes

/-- A star to be matched against a shape: as a `Goal`, but with the shape
itself in place of its name. -/
@[ext]
structure Task where
  /-- The shape. -/
  shape : Shape
  /-- The name of the star. -/
  star : String
  deriving DecidableEq

/-- A task by name, as it stands on the trail. -/
def Task.goal (t : Task) : Goal := ⟨t.shape.name, t.star⟩

/-- A shape leaves a ray to another one if the rule for its predicate asks for that shape alone and
the ray is linked. -/
lemma Shape.demand_eq_conform_iff {shape : Shape} {ray : Ray} {target link : String} :
    shape.demand ray = .conform target link ↔ ∃ rule targets,
      shape.get? ray.predicate = some rule ∧ rule.isNegative = false ∧
        rule.constraint? = some (.shape targets) ∧ targets.single? = some target ∧
          ray.link? = some link := by
  rw [demand]
  cases shape.get? ray.predicate with
  | none => simp
  | some rule =>
      simp only [Option.some.injEq, exists_and_left, exists_eq_left', Rule.demand]
      cases rule.isNegative with
      | true => simp
      | false =>
          rcases rule.constraint? with _ | ⟨targets⟩ | ⟨types⟩
          · simp
          · cases ht : targets.single? <;> cases ray.link? <;> simp [ht]
          · simp

namespace Scene

variable (scene : Scene) (shape : Shape) (reply : Ray → Option Bindings)

/-- The task that a closed shape leaves a ray to: the shape asked for is loaded
and the query has the star. -/
def next? (ray : Ray) : Option Task :=
  match shape.closed, shape.demand ray with
  | true, .conform target link =>
    if link ∈ scene.query.names then (scene.shapes.get? target).map (⟨·, link⟩) else none
  | _, _ => none

/-- The shape that a closed shape asks for in vain. -/
def missing? (ray : Ray) : Option String :=
  match shape.closed, shape.demand ray with
  | true, .conform target _ => if scene.shapes.get? target = none then some target else none
  | _, _ => none

/-- The bindings that were found at the other end of a ray. -/
def heard (ray : Ray) : Option Bindings := (scene.next? shape ray).bind fun _ => reply ray

/-- Whether a ray is bound: the shape binds it, or nothing against it was found
at its other end. An open shape binds them all. -/
def binds (ray : Ray) : Bool :=
  match shape.closed, shape.demand ray with
  | true, .settled binds => binds
  | _, _ => (scene.heard shape reply ray).all Bindings.full

/-- The report with what was found at the other end of a ray. -/
def report (b : Bindings) (ray : Ray) : Bindings :=
  match scene.missing? shape ray, scene.next? shape ray, scene.heard shape reply ray with
  | some target, _, _ => b.recordMissing ray target
  | none, some u, some n => b.recordNested ray u.shape.name u.star n
  | none, _, _ => b

/-- One more ray. -/
def tallyRay (b : Bindings) (ray : Ray) : Bindings :=
  (scene.report shape reply b ray).settle shape ray (scene.binds shape reply ray)

/-- The bindings of a star, given what was found at the other ends of its
rays. -/
def tally (star : Star) : Bindings :=
  if shape.closed then
    (star.rays.toList.foldl (scene.tallyRay shape reply) (.start shape star.name)).finish star
  else .ofOpen shape star

variable {scene shape reply}

/-! ### The task behind a ray -/

lemma next?_eq_some_iff {ray : Ray} {u : Task} :
    scene.next? shape ray = some u ↔ shape.closed = true ∧
      shape.demand ray = .conform u.shape.name u.star ∧
        scene.shapes.get? u.shape.name = some u.shape ∧ u.star ∈ scene.query.names := by
  rw [next?]
  cases hc : shape.closed with
  | false => simp
  | true =>
      cases hd : shape.demand ray with
      | settled binds => simp
      | conform target link =>
          obtain ⟨s, n⟩ := u
          simp only [true_and, Demand.conform.injEq]
          constructor
          · intro h
            split at h
            · rename_i hl
              obtain ⟨s', hs, he⟩ := Option.map_eq_some_iff.mp h
              obtain ⟨rfl, rfl⟩ := Task.mk.inj he
              have hn : s'.name = target := Keyed.key_of_get? hs
              exact ⟨⟨hn.symm, rfl⟩, hn ▸ hs, hl⟩
            · cases h
          · rintro ⟨⟨rfl, rfl⟩, hs, hl⟩
            rw [if_pos hl, hs]
            rfl

/-- Which task a ray is left to depends on the shapes and on the names of the stars. -/
lemma next?_congr {scene' : Scene}
    (hshapes : ∀ name, scene'.shapes.get? name = scene.shapes.get? name)
    (hnames : ∀ n, n ∈ scene'.query.names ↔ n ∈ scene.query.names) (ray : Ray) :
    scene'.next? shape ray = scene.next? shape ray := by
  ext u
  rw [next?_eq_some_iff, next?_eq_some_iff, hshapes, hnames]

/-- A ray that is left to another task is linked to its star. -/
lemma link?_of_next? {ray : Ray} {u : Task} (h : scene.next? shape ray = some u) :
    ray.link? = some u.star := by
  obtain ⟨rule, targets, -, -, -, -, hlink⟩ :=
    Shape.demand_eq_conform_iff.mp (next?_eq_some_iff.mp h).2.1
  exact hlink

lemma missing?_eq_some_iff {ray : Ray} {target : String} :
    scene.missing? shape ray = some target ↔ shape.closed = true ∧
      (∃ link, shape.demand ray = .conform target link) ∧ scene.shapes.get? target = none := by
  rw [missing?]
  cases hc : shape.closed with
  | false => simp
  | true =>
      cases shape.demand ray with
      | settled binds => simp
      | conform target' link =>
          dsimp only
          by_cases hn : scene.shapes.get? target' = none
          · rw [if_pos hn]
            constructor
            · intro h
              obtain rfl := Option.some.inj h
              exact ⟨rfl, ⟨link, rfl⟩, hn⟩
            · rintro ⟨_, ⟨_, he⟩, _⟩
              rw [(Demand.conform.inj he).1]
          · rw [if_neg hn]
            constructor
            · intro h
              cases h
            · rintro ⟨_, ⟨_, he⟩, h⟩
              rw [(Demand.conform.inj he).1] at hn
              exact absurd h hn

/-- The shape behind a ray is loaded. -/
lemma missing?_of_next? {ray : Ray} {u : Task} (h : scene.next? shape ray = some u) :
    scene.missing? shape ray = none := by
  obtain ⟨hc, hd, hs, _⟩ := next?_eq_some_iff.mp h
  rw [missing?, hc, hd]
  simp [hs]

lemma heard_eq_some_iff {ray : Ray} {n : Bindings} :
    scene.heard shape reply ray = some n ↔
      (∃ u, scene.next? shape ray = some u) ∧ reply ray = some n := by
  rw [heard, Option.bind_eq_some_iff]
  simp

/-- A ray that is not left to another task is bound unless the shape refuses
it. -/
lemma binds_of_next?_eq_none {ray : Ray} (h : scene.next? shape ray = none) :
    scene.binds shape reply ray = true ↔
      (shape.closed = true → shape.demand ray ≠ .settled false) := by
  rw [binds, heard, h]
  cases shape.closed <;> cases shape.demand ray <;> simp

/-- A ray that is left to another task is bound unless bindings found there
leave something unbound. -/
lemma binds_of_next?_eq_some {ray : Ray} {u : Task} (h : scene.next? shape ray = some u) :
    scene.binds shape reply ray = true ↔ ∀ n, reply ray = some n → n.full = true := by
  rw [binds, heard, h, (next?_eq_some_iff.mp h).2.1]
  cases shape.closed <;> cases reply ray <;> simp

/-! ### One ray -/

/-- A report is about the other ends of rays, and changes nothing else. -/
lemma report_eq (b : Bindings) (ray : Ray) :
    scene.report shape reply b ray =
      { b with
        nested := (scene.report shape reply b ray).nested
        nestedBound := (scene.report shape reply b ray).nestedBound
        dependencies := (scene.report shape reply b ray).dependencies
        unresolved := (scene.report shape reply b ray).unresolved } := by
  rw [report]
  split <;> simp only [Bindings.recordMissing, Bindings.recordNested]
  split <;> rfl

@[simp]
lemma shape_report (b : Bindings) (ray : Ray) :
    (scene.report shape reply b ray).shape = b.shape := by
  rw [report_eq]

@[simp]
lemma star_report (b : Bindings) (ray : Ray) :
    (scene.report shape reply b ray).star = b.star := by
  rw [report_eq]

@[simp]
lemma slots_report (b : Bindings) (ray : Ray) :
    (scene.report shape reply b ray).slots = b.slots := by
  rw [report_eq]

@[simp]
lemma unbound_report (b : Bindings) (ray : Ray) :
    (scene.report shape reply b ray).unbound = b.unbound := by
  rw [report_eq]

lemma mem_unresolved_report {b : Bindings} {ray : Ray} {x : Unresolved} :
    x ∈ (scene.report shape reply b ray).unresolved ↔ x ∈ b.unresolved ∨
      (∃ target, scene.missing? shape ray = some target ∧
        x = ⟨b.star, ray.predicate, target⟩) ∨
      ∃ n, scene.heard shape reply ray = some n ∧ x ∈ n.unresolved := by
  rw [report]
  cases hm : scene.missing? shape ray with
  | some target =>
      have hh : scene.heard shape reply ray = none := by
        cases hu : scene.next? shape ray with
        | none => rw [heard, hu]; rfl
        | some u => rw [missing?_of_next? hu] at hm; cases hm
      simp [Bindings.recordMissing, hh]
  | none =>
      cases hu : scene.next? shape ray with
      | none => simp [heard, hu]
      | some u =>
          cases hr : reply ray with
          | none => simp [heard, hu, hr]
          | some n =>
              simp only [heard, hu, hr, Option.bind_some, Bindings.recordNested]
              split <;> simp

lemma mem_dependencies_report {b : Bindings} {ray : Ray} {d : Dependency} :
    d ∈ (scene.report shape reply b ray).dependencies ↔ d ∈ b.dependencies ∨
      ∃ u n, scene.next? shape ray = some u ∧ reply ray = some n ∧
        (d = ⟨b.star, ray.predicate, u.star, u.shape.name, n.full⟩ ∨
          d ∈ n.dependencies) := by
  rw [report]
  cases hu : scene.next? shape ray with
  | none =>
      cases hm : scene.missing? shape ray <;> simp [Bindings.recordMissing]
  | some u =>
      rw [missing?_of_next? hu]
      cases hr : reply ray with
      | none => simp [heard, hu, hr]
      | some n =>
          simp only [heard, hu, hr, Option.bind_some, Bindings.recordNested]
          split <;> simp

/-- A star is listed at the predicate of a ray only if bindings found for it are full. -/
lemma exists_of_mem_nested_report {b : Bindings} {ray : Ray} {x : String × String}
    (h : x ∈ (scene.report shape reply b ray).nested.toList) : x ∈ b.nested.toList ∨
      ∃ u n, scene.next? shape ray = some u ∧ reply ray = some n ∧ n.full = true ∧
        x = (ray.predicate, u.star) := by
  rw [report] at h
  cases hu : scene.next? shape ray with
  | none =>
      cases hm : scene.missing? shape ray <;> simp [hu, hm, Bindings.recordMissing] at h <;>
        exact Or.inl h
  | some u =>
      rw [missing?_of_next? hu] at h
      cases hr : reply ray with
      | none => exact Or.inl (by simpa [heard, hu, hr] using h)
      | some n =>
          simp only [heard, hu, hr, Option.bind_some, Bindings.recordNested] at h
          split at h
          · rename_i hfull
            rcases Dict.mem_set.mp h with rfl | ⟨hmem, -⟩
            · exact Or.inr ⟨u, n, rfl, rfl, hfull, rfl⟩
            · exact Or.inl hmem
          · exact Or.inl h

lemma mem_nestedBound_report {b : Bindings} {ray : Ray} {t : Triple} :
    t ∈ (scene.report shape reply b ray).nestedBound ↔ t ∈ b.nestedBound ∨
      ∃ u n, scene.next? shape ray = some u ∧ reply ray = some n ∧ n.full = true ∧
        (t ∈ n.bound ∨ t ∈ n.nestedBound) := by
  rw [report]
  cases hu : scene.next? shape ray with
  | none =>
      cases hm : scene.missing? shape ray <;> simp [Bindings.recordMissing]
  | some u =>
      rw [missing?_of_next? hu]
      cases hr : reply ray with
      | none => simp [heard, hu, hr]
      | some n =>
          simp only [heard, hu, hr, Option.bind_some, Bindings.recordNested]
          split <;> simp_all

/-- A ray that the shape decides on is bound or refused. -/
lemma tallyRay_of_settled {ray : Ray} {binds : Bool} (hc : shape.closed = true)
    (hd : shape.demand ray = .settled binds) (b : Bindings) :
    scene.tallyRay shape reply b ray = b.settle shape ray binds := by
  simp [tallyRay, report, Scene.binds, missing?, next?, heard, hc, hd]

/-- A ray whose shape is missing is reported and bound. -/
lemma tallyRay_of_missing? {ray : Ray} {target : String}
    (h : scene.missing? shape ray = some target) (b : Bindings) :
    scene.tallyRay shape reply b ray = (b.recordMissing ray target).take shape ray := by
  obtain ⟨hc, ⟨link, hd⟩, hs⟩ := missing?_eq_some_iff.mp h
  simp [tallyRay, report, Scene.binds, h, heard, next?, hc, hd, hs, Bindings.settle]

/-- A ray with nothing found at its other end is bound. -/
lemma tallyRay_of_unheard {ray : Ray} {target link : String}
    (hd : shape.demand ray = .conform target link) (hm : scene.missing? shape ray = none)
    (hh : scene.heard shape reply ray = none) (b : Bindings) :
    scene.tallyRay shape reply b ray = b.take shape ray := by
  have hbinds : scene.binds shape reply ray = true := by
    rw [Scene.binds, hh, hd]
    cases shape.closed <;> rfl
  rw [tallyRay, hbinds, report, hm, hh]
  cases scene.next? shape ray <;> rfl

/-- A ray with bindings found at its other end is bound if these are full. -/
lemma tallyRay_of_heard {ray : Ray} {u : Task} {n : Bindings}
    (hu : scene.next? shape ray = some u) (hr : reply ray = some n) (b : Bindings) :
    scene.tallyRay shape reply b ray =
      (b.recordNested ray u.shape.name u.star n).settle shape ray n.full := by
  have hh : scene.heard shape reply ray = some n := heard_eq_some_iff.mpr ⟨⟨u, hu⟩, hr⟩
  have hbinds : scene.binds shape reply ray = n.full := by
    rw [Scene.binds, hh, (next?_eq_some_iff.mp hu).2.1]
    cases shape.closed <;> rfl
  rw [tallyRay, hbinds, report, missing?_of_next? hu, hu, hh]

/-- One ray looks at its own reply alone. -/
lemma tallyRay_congr {reply' : Ray → Option Bindings} {ray : Ray}
    (h : reply ray = reply' ray) (b : Bindings) :
    scene.tallyRay shape reply b ray = scene.tallyRay shape reply' b ray := by
  rw [tallyRay, tallyRay, report, report, Scene.binds, Scene.binds, heard, heard, h]

@[simp]
lemma star_tallyRay (b : Bindings) (ray : Ray) :
    (scene.tallyRay shape reply b ray).star = b.star := by
  rw [tallyRay, Bindings.settle]
  split <;> exact star_report b ray

@[simp]
lemma shape_tallyRay (b : Bindings) (ray : Ray) :
    (scene.tallyRay shape reply b ray).shape = b.shape := by
  rw [tallyRay, Bindings.settle]
  split <;> exact shape_report b ray

lemma unresolved_tallyRay (b : Bindings) (ray : Ray) :
    (scene.tallyRay shape reply b ray).unresolved =
      (scene.report shape reply b ray).unresolved := by
  rw [tallyRay, Bindings.settle]
  split <;> rfl

lemma dependencies_tallyRay (b : Bindings) (ray : Ray) :
    (scene.tallyRay shape reply b ray).dependencies =
      (scene.report shape reply b ray).dependencies := by
  rw [tallyRay, Bindings.settle]
  split <;> rfl

lemma nested_tallyRay (b : Bindings) (ray : Ray) :
    (scene.tallyRay shape reply b ray).nested = (scene.report shape reply b ray).nested := by
  rw [tallyRay, Bindings.settle]
  split <;> rfl

lemma nestedBound_tallyRay (b : Bindings) (ray : Ray) :
    (scene.tallyRay shape reply b ray).nestedBound =
      (scene.report shape reply b ray).nestedBound := by
  rw [tallyRay, Bindings.settle]
  split <;> rfl

/-! ### All rays -/

lemma shape_foldl (rays : List Ray) (b : Bindings) :
    (rays.foldl (scene.tallyRay shape reply) b).shape = b.shape := by
  induction rays generalizing b with
  | nil => rfl
  | cons ray rays ih => rw [List.foldl_cons, ih, shape_tallyRay]

lemma star_foldl (rays : List Ray) (b : Bindings) :
    (rays.foldl (scene.tallyRay shape reply) b).star = b.star := by
  induction rays generalizing b with
  | nil => rfl
  | cons ray rays ih => rw [List.foldl_cons, ih, star_tallyRay]

/-- The triples refused are those of the rays that are not bound. -/
lemma unbound_foldl (rays : List Ray) (b : Bindings) :
    (rays.foldl (scene.tallyRay shape reply) b).unbound =
      b.unbound ++ (rays.filter fun r => !scene.binds shape reply r).map Ray.triple := by
  induction rays generalizing b with
  | nil => simp
  | cons ray rays ih =>
      rw [List.foldl_cons, ih, tallyRay]
      cases hb : scene.binds shape reply ray with
      | false => simp [Bindings.settle, Bindings.refuse, hb]
      | true => simp [Bindings.settle, Bindings.take, hb]

/-- The slots filled are those of the rays that are bound. -/
lemma slots_foldl (rays : List Ray) (b : Bindings) :
    (rays.foldl (scene.tallyRay shape reply) b).slots =
      (rays.filter (scene.binds shape reply)).foldl
        (fun d r => d.set r.predicate (some r.triple)) b.slots := by
  induction rays generalizing b with
  | nil => rfl
  | cons ray rays ih =>
      rw [List.foldl_cons, ih, tallyRay]
      cases hb : scene.binds shape reply ray with
      | false => simp [Bindings.settle, Bindings.refuse, hb]
      | true => simp [Bindings.settle, Bindings.take, hb]

/-! ### The whole star -/

/-- An open shape leaves no ray to another task. -/
lemma next?_of_open (hc : shape.closed = false) (ray : Ray) : scene.next? shape ray = none := by
  rw [next?, hc]

/-- An open shape binds every ray. -/
lemma binds_of_open (hc : shape.closed = false) (ray : Ray) :
    scene.binds shape reply ray = true := by
  rw [binds_of_next?_eq_none (next?_of_open hc ray), hc]
  simp

@[simp]
lemma shape_tally (star : Star) : (scene.tally shape reply star).shape = shape.name := by
  rw [tally]
  split
  · exact shape_foldl _ _
  · rfl

lemma star_tally (star : Star) : (scene.tally shape reply star).star = star.name := by
  rw [tally]
  split
  · exact star_foldl _ _
  · rfl

/-- A star is bound in full if it has rays and all of them are bound. -/
lemma full_tally_iff {star : Star} :
    (scene.tally shape reply star).full = true ↔ star.rays.toList ≠ [] ∧
      ∀ ray ∈ star.rays.toList, scene.binds shape reply ray = true := by
  have hempty : star.isEmpty = false ↔ star.rays.toList ≠ [] := by
    simp [Star.isEmpty, Keyed.isEmpty]
  rw [tally]
  cases hc : shape.closed with
  | false =>
      simp [Bindings.ofOpen, hempty, binds_of_open hc]
  | true =>
      simp only [if_true, Bindings.finish, unbound_foldl, Bindings.start, List.nil_append,
        Bool.and_eq_true, Bool.not_eq_true', hempty, List.isEmpty_iff, List.map_eq_nil_iff,
        List.filter_eq_nil_iff, Bool.not_eq_true', Bool.not_eq_false]
      exact and_comm

/-- No slot is filled before the first ray. -/
lemma notMem_slots_start (shape : Shape) (name p : String) (w : Triple) :
    (p, some w) ∉ (Bindings.start shape name).slots.toList := by
  intro h
  obtain ⟨r, _, he⟩ := List.mem_map.mp (Keyed.mem_of_mem_ofList h)
  cases he

/-- The slots filled are those of the rays that are bound. -/
lemma slots_tally (star : Star) :
    (scene.tally shape reply star).slots =
      (star.rays.toList.filter (scene.binds shape reply)).foldl
        (fun d r => d.set r.predicate (some r.triple)) (Bindings.start shape star.name).slots := by
  rw [tally]
  cases hc : shape.closed with
  | true => exact slots_foldl _ _
  | false =>
      have hall : star.rays.toList.filter (scene.binds shape reply) = star.rays.toList :=
        List.filter_eq_self.mpr fun ray _ => binds_of_open hc ray
      rw [hall]
      simp only [Bool.false_eq_true, if_false, Bindings.ofOpen, Star.triples, List.foldl_map]
      rfl

/-- The triples bound are those of the rays that are bound. -/
lemma bound_tally_perm (star : Star) :
    (scene.tally shape reply star).bound.Perm
      ((star.rays.toList.filter (scene.binds shape reply)).map Ray.triple) := by
  have hstart : (Bindings.start shape star.name).slots.filled = [] := by
    rw [Dict.filled, Dict.values, List.filterMap_map, List.filterMap_eq_nil_iff]
    intro p hp
    obtain ⟨k, w?⟩ := p
    cases w? with
    | none => rfl
    | some w => exact absurd hp (notMem_slots_start shape star.name k w)
  have hnodup : ((star.rays.toList.filter (scene.binds shape reply)).map Ray.predicate).Nodup :=
    star.rays.nodup.sublist (List.filter_sublist.map _)
  have hfree : ∀ ray ∈ star.rays.toList.filter (scene.binds shape reply), ∀ w,
      (ray.predicate, some w) ∉ (Bindings.start shape star.name).slots.toList :=
    fun ray _ w => notMem_slots_start shape star.name ray.predicate w
  have hfilled := Dict.filled_foldl_set_perm _ Ray.triple hnodup hfree
  rw [← slots_tally, hstart, List.append_nil] at hfilled
  exact hfilled

/-- The triples refused are those of the other rays, in order. -/
lemma unbound_tally (star : Star) :
    (scene.tally shape reply star).unbound =
      (star.rays.toList.filter fun r => !scene.binds shape reply r).map Ray.triple := by
  rw [tally]
  cases hc : shape.closed with
  | true => exact (unbound_foldl _ _).trans (List.nil_append _)
  | false =>
      have hnone : (star.rays.toList.filter fun r => !scene.binds shape reply r) = [] :=
        List.filter_eq_nil_iff.mpr fun ray _ => by simp [binds_of_open hc]
      rw [hnone]
      rfl

/-- As many triples are bound as there are rays that are bound. -/
lemma count_tally (star : Star) :
    (scene.tally shape reply star).count =
      (star.rays.toList.filter (scene.binds shape reply)).length :=
  (bound_tally_perm star).length_eq.trans (List.length_map _)

/-- If all rays are bound, so are the triples of the star. -/
lemma bound_tally_perm_triples {star : Star}
    (h : ∀ ray ∈ star.rays.toList, scene.binds shape reply ray = true) :
    (scene.tally shape reply star).bound.Perm star.triples := by
  have hall : star.rays.toList.filter (scene.binds shape reply) = star.rays.toList :=
    List.filter_eq_self.mpr h
  exact (bound_tally_perm star).trans (.of_eq (by rw [hall]; rfl))

/-- The triples bound are triples of the star. -/
lemma mem_triples_of_mem_bound_tally {star : Star} {t : Triple}
    (h : t ∈ (scene.tally shape reply star).bound) : t ∈ star.triples := by
  rw [(bound_tally_perm star).mem_iff] at h
  exact (List.filter_sublist.map Ray.triple).subset h

/-- What is bound in full has a bound triple. -/
lemma count_pos_of_full {star : Star} (h : (scene.tally shape reply star).full = true) :
    0 < (scene.tally shape reply star).count := by
  obtain ⟨hne, hall⟩ := full_tally_iff.mp h
  rw [count_tally, List.filter_eq_self.mpr hall]
  exact List.length_pos_iff.mpr hne

/-- The shapes found missing: those that rays of the star ask for, and those
reported from the other ends of its rays. -/
lemma mem_unresolved_tally {star : Star} {x : Unresolved} :
    x ∈ (scene.tally shape reply star).unresolved ↔ ∃ ray ∈ star.rays.toList,
      (∃ target, scene.missing? shape ray = some target ∧
        x = ⟨star.name, ray.predicate, target⟩) ∨
      ∃ n, scene.heard shape reply ray = some n ∧ x ∈ n.unresolved := by
  rw [tally]
  cases hc : shape.closed with
  | true =>
      refine (mem_foldl_iff Bindings.unresolved (fun b => b.star = star.name)
        (fun b ray hb => (star_tallyRay b ray).trans hb) (fun b ray hb => ?_) _ rfl).trans
        (or_iff_right List.not_mem_nil)
      rw [unresolved_tallyRay, mem_unresolved_report, hb]
  | false =>
      have hm : ∀ ray, scene.missing? shape ray = none := fun ray => by rw [missing?, hc]
      simp [Bindings.ofOpen, Bindings.start, heard, next?_of_open hc, hm]

/-- The dependencies: the rays of the star that were left to other tasks, and
those reported from the other ends. -/
lemma mem_dependencies_tally {star : Star} {d : Dependency} :
    d ∈ (scene.tally shape reply star).dependencies ↔ ∃ ray ∈ star.rays.toList,
      ∃ u n, scene.next? shape ray = some u ∧ reply ray = some n ∧
        (d = ⟨star.name, ray.predicate, u.star, u.shape.name, n.full⟩ ∨
          d ∈ n.dependencies) := by
  rw [tally]
  cases hc : shape.closed with
  | true =>
      refine (mem_foldl_iff Bindings.dependencies (fun b => b.star = star.name)
        (fun b ray hb => (star_tallyRay b ray).trans hb) (fun b ray hb => ?_) _ rfl).trans
        (or_iff_right List.not_mem_nil)
      rw [dependencies_tallyRay, mem_dependencies_report, hb]
  | false =>
      simp [Bindings.ofOpen, Bindings.start, next?_of_open hc]

/-- The stars listed at predicates: those behind rays that were answered by full bindings. -/
lemma exists_ray_of_mem_nested {star : Star} {x : String × String}
    (h : x ∈ (scene.tally shape reply star).nested.toList) : ∃ ray ∈ star.rays.toList, ∃ u n,
      scene.next? shape ray = some u ∧ reply ray = some n ∧ n.full = true ∧
        x = (ray.predicate, u.star) := by
  rw [tally] at h
  split at h
  · refine (exists_of_mem_foldl (fun b : Bindings => b.nested.toList) (fun b ray hx => ?_)
      h).resolve_left List.not_mem_nil
    exact exists_of_mem_nested_report (nested_tallyRay b ray ▸ hx)
  · cases h

/-- The triples bound elsewhere: those that full bindings found at the other ends have bound, or
report as bound elsewhere. -/
lemma mem_nestedBound_tally {star : Star} {t : Triple} :
    t ∈ (scene.tally shape reply star).nestedBound ↔ ∃ ray ∈ star.rays.toList, ∃ u n,
      scene.next? shape ray = some u ∧ reply ray = some n ∧ n.full = true ∧
        (t ∈ n.bound ∨ t ∈ n.nestedBound) := by
  rw [tally]
  cases hc : shape.closed with
  | true =>
      refine (mem_foldl_iff Bindings.nestedBound (fun _ => True) (fun _ _ _ => trivial)
        (fun b ray _ => ?_) _ trivial).trans (or_iff_right List.not_mem_nil)
      rw [nestedBound_tallyRay, mem_nestedBound_report]
  | false =>
      simp [Bindings.ofOpen, Bindings.start, next?_of_open hc]

end Scene

end StarShapes
