import StarShapes.Proofs.Binding.Calls

/-!
Certificates: what full bindings report about other stars is true.

* `Finds.certified`: each dependency that full bindings report is full itself, and its task
  conforms, if the tasks that were assumed do.
* `Scene.BindsInFull`: a memory binds a task in full, whatever it was asked before. For a loaded
  shape this is conformance (`bindsInFull_iff`).
* `certified_bindAll`: the dependencies that calls answer with full bindings are all full, and
  their stars are bound in full by their targets.
-/

namespace StarShapes

namespace Scene

variable {scene : Scene} {roots A : Set Task} {known : Set Shape} {t : Task} {b : Bindings}

/-! ### The dependencies of full bindings -/

/-- Where the tasks assumed conform, a dependency that full bindings report is full, and its task
conforms. -/
lemma Finds.certified (h : scene.Finds roots A t b) (hfull : b.full = true)
    (hA : ∀ a ∈ A, scene.Conforms a) {d : Dependency} (hd : d ∈ b.dependencies) :
    d.full = true ∧ ∃ u : Task, u.star = d.nested ∧ scene.shapes.get? d.target = some u.shape ∧
      scene.Conforms u := by
  induction h with
  | @intro A t b tried rest hcandidates hpick hrest hunseen hreached hfound ih =>
      have hconf : scene.Conforms t := by
        have hfinds : scene.Finds roots A t b :=
          .intro tried rest hcandidates hpick hrest hunseen hreached hfound
        exact (hfinds.conformsIf hfull).conforms hA
      -- the task itself was assumed while its rays were followed, and now it holds
      have hA' : ∀ a ∈ insert t A, scene.Conforms a := by
        rintro a (rfl | ha)
        · exact hconf
        · exact hA a ha
      obtain ⟨x, hx, rfl⟩ := exists_trial hpick
      obtain ⟨-, hbinds⟩ := full_tally_iff.mp hfull
      obtain ⟨ray, hray, u, n, hu, hn, hd⟩ := mem_dependencies_tally.mp hd
      have hnfull : n.full = true := (binds_of_next?_eq_some hu).mp (hbinds ray hray) n hn
      rcases hd with rfl | hd
      · have huconf : scene.Conforms u :=
          ((hfound x hx ray hray u n hu hn).conformsIf hnfull).conforms hA'
        exact ⟨hnfull, u, rfl, (next?_eq_some_iff.mp hu).2.2.1, huconf⟩
      · exact ih x hx ray hray u n hu hn hnfull hA' hd

/-! ### Bound in full by itself -/

/-- Whatever a memory was asked before, it binds a task in full. Shapes are told apart by their
names. -/
def BindsInFull (scene : Scene) (t : Task) : Prop :=
  ∀ calls : List Task,
    Set.InjOn Shape.name {s | s ∈ scene.shapes.toList ∨ ∃ u ∈ calls, u.shape = s} →
      ((Memory.empty.bindAll scene calls).2.bind scene t.shape t.star).1.any Bindings.full = true

/-- Calls keep a memory sound. -/
lemma sound_bindAll (hknown : Set.InjOn Shape.name known)
    (hloaded : ∀ name s, scene.shapes.get? name = some s → s ∈ known) {calls : List Task}
    (hcalls : ∀ t ∈ calls, t ∈ roots ∧ t.shape ∈ known) {m : Memory}
    (hm : m.Sound scene roots known) : (m.bindAll scene calls).2.Sound scene roots known := by
  induction calls generalizing m with
  | nil => exact hm
  | cons t calls ih =>
      obtain ⟨hroot, hshape⟩ := hcalls t List.mem_cons_self
      obtain ⟨hsound, -⟩ := finds_bind hknown hloaded hroot hshape hm
      exact ih (fun u hu => hcalls u (List.mem_cons_of_mem _ hu)) hsound

/-- Whatever a memory was asked before, it binds a task in full exactly if the task conforms. Shapes
are told apart by their names. -/
lemma any_full_bind_iff {calls : List Task} (hnames : Set.InjOn Shape.name
      {s | s ∈ scene.shapes.toList ∨ ∃ u ∈ t :: calls, u.shape = s}) :
    ((Memory.empty.bindAll scene calls).2.bind scene t.shape t.star).1.any Bindings.full = true ↔
      scene.Conforms t := by
  have hloaded : ∀ name s, scene.shapes.get? name = some s →
      s ∈ {s | s ∈ scene.shapes.toList ∨ ∃ u ∈ t :: calls, u.shape = s} :=
    fun _ _ hs => Or.inl (Keyed.mem_of_get? hs)
  have hcalls : ∀ u ∈ calls, u ∈ (Set.univ : Set Task) ∧
      u.shape ∈ {s | s ∈ scene.shapes.toList ∨ ∃ u ∈ t :: calls, u.shape = s} :=
    fun u hu => ⟨trivial, Or.inr ⟨u, List.mem_cons_of_mem t hu, rfl⟩⟩
  have hsound := sound_bindAll hnames hloaded hcalls Memory.sound_empty
  obtain ⟨-, -, hfinds, hsome⟩ :=
    finds_bind hnames hloaded (Set.mem_univ t) (Or.inr ⟨t, List.mem_cons_self, rfl⟩) hsound
  rw [Option.any_eq_true]
  constructor
  · rintro ⟨b, hb, hfull⟩
    exact (hfinds b hb).full_iff_conforms.mp hfull
  · intro hconf
    obtain ⟨c, hc, -⟩ := mem_conform.mp (conforms_iff_mem_conform.mp hconf)
    obtain ⟨b, hb⟩ := hsome (Query.candidates_ne_nil_iff.mp (List.ne_nil_of_mem hc))
    exact ⟨b, hb, (hfinds b hb).full_iff_conforms.mpr hconf⟩

/-- A star is bound in full by a loaded shape exactly if it conforms to it. -/
lemma bindsInFull_iff (hs : t.shape ∈ scene.shapes.toList) :
    scene.BindsInFull t ↔ scene.Conforms t := by
  have hknown : ∀ {calls : List Task},
      Set.InjOn Shape.name {s | s ∈ scene.shapes.toList ∨ ∃ u ∈ calls, u.shape = s} →
        Set.InjOn Shape.name {s | s ∈ scene.shapes.toList ∨ ∃ u ∈ t :: calls, u.shape = s} := by
    intro calls hnames
    refine hnames.mono ?_
    rintro s (hs' | ⟨u, hu, rfl⟩)
    · exact Or.inl hs'
    · rcases List.mem_cons.mp hu with rfl | hu
      · exact Or.inl hs
      · exact Or.inr ⟨u, hu, rfl⟩
  constructor
  · intro h
    have hnames : Set.InjOn Shape.name
        {s | s ∈ scene.shapes.toList ∨ ∃ u ∈ ([] : List Task), u.shape = s} :=
      injOn_of_loaded (by simp)
    exact (any_full_bind_iff (hknown hnames)).mp (h [] hnames)
  · exact fun hconf calls hnames => (any_full_bind_iff (hknown hnames)).mpr hconf

/-! ### What calls report -/

/-- **The dependencies of full bindings are a certificate**, whatever the memory was asked before:
each of them is full, its target is loaded, and its star is bound in full by the target in its own
right. Shapes are told apart by their names. -/
theorem certified_bindAll (scene : Scene) (calls : List Task)
    (hnames : Set.InjOn Shape.name {s | s ∈ scene.shapes.toList ∨ ∃ t ∈ calls, t.shape = s}) :
    List.Forall₂ (fun _ b? => ∀ b, b? = some b → b.full = true → ∀ d ∈ b.dependencies,
      d.full = true ∧ ∃ s, scene.shapes.get? d.target = some s ∧
        scene.BindsInFull ⟨s, d.nested⟩) calls (Memory.empty.bindAll scene calls).1 := by
  refine (finds_calls hnames).imp ?_
  intro t b? hanswer b hb hfull d hd
  obtain ⟨hdfull, ⟨s, n⟩, rfl, hs, hconf⟩ :=
    (hanswer.1 b hb).certified hfull (fun a ha => absurd ha (Set.notMem_empty a)) hd
  exact ⟨hdfull, s, hs, (bindsInFull_iff (Keyed.mem_of_get? hs)).mpr hconf⟩

/-- A call on the circle reports stars that were bound in full while each other was assumed: by
itself, either is bound in full by its shape. -/
theorem circle_certified :
    (∃ b, (Memory.empty.bindAll circle circleCalls).1[1]? = some (some b) ∧ b.full = true ∧
      b.dependencies = [⟨"d", "p", "c", "T", true⟩, ⟨"c", "r", "b", "S", true⟩]) ∧
    circle.BindsInFull ⟨.asking "T" [("r", some "S")], "c"⟩ ∧
      circle.BindsInFull ⟨.asking "S" [("p", some "T")], "b"⟩ := by
  have hcalls : ∀ t ∈ circleCalls, t.shape ∈ circle.shapes.toList := by decide +kernel
  have hanswers := certified_bindAll circle circleCalls (injOn_of_loaded hcalls)
  have hreport : (Memory.empty.bindAll circle circleCalls).1[1]?.map
      (Option.map fun b => (b.full, b.dependencies)) =
        some (some (true, [⟨"d", "p", "c", "T", true⟩, ⟨"c", "r", "b", "S", true⟩])) := by
    decide +kernel
  have hS : circle.shapes.get? "S" = some (.asking "S" [("p", some "T")]) := by decide +kernel
  have hT : circle.shapes.get? "T" = some (.asking "T" [("r", some "S")]) := by decide +kernel
  generalize (Memory.empty.bindAll circle circleCalls).1 = answers at hanswers hreport ⊢
  rcases hanswers with _ | ⟨-, _ | ⟨hd, -⟩⟩
  simp only [List.getElem?_cons_succ, List.getElem?_cons_zero, Option.map_some,
    Option.some.injEq, Option.map_eq_some_iff, Prod.mk.injEq] at hreport
  obtain ⟨b, rfl, hfull, hdependencies⟩ := hreport
  have hd := hd b rfl hfull
  rw [hdependencies] at hd
  obtain ⟨-, s, hs, hc⟩ := hd _ List.mem_cons_self
  obtain ⟨-, s', hs', hb⟩ := hd _ (List.mem_cons_of_mem _ List.mem_cons_self)
  obtain rfl := Option.some.inj (hT.symm.trans hs)
  obtain rfl := Option.some.inj (hS.symm.trans hs')
  exact ⟨⟨b, rfl, hfull, hdependencies⟩, hc, hb⟩

end Scene

end StarShapes
