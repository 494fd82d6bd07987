import StarShapes.Proofs.Containment.Classification
import StarShapes.Proofs.Containment.Loading
import StarShapes.Proofs.Containment.Shuffling

/-!
Appending: what further shapes to classify against do to a problem.

* `Problem.append`: the problem with more shapes after its own.
* `Problem.Ignores`: the shapes of a problem neither bear the names of further shapes nor ask for
  one of them. Then their tasks conform as before (`Ignores.conforms_iff`).
* `shapesOf_full_eq`: the shapes that bind a star in full, in the order of the problem.
* `contained_of_append`: a star that is contained stays contained, and the further shapes that
  contain it come after those that did.
-/

namespace StarShapes

/-- The rule found for a predicate is one of the rules. -/
lemma Shape.mem_rules_of_get? {s : Shape} {predicate : String} {r : Rule}
    (h : s.get? predicate = some r) : r ∈ s.rules := by
  rw [get?, Option.or_eq_some_iff] at h
  rcases h with h | ⟨-, h⟩
  · exact List.mem_append_left _ (Keyed.mem_of_get? h)
  · exact List.mem_append_right _ (Keyed.mem_of_get? h)

namespace Problem

variable {p : Problem} {ts : List Shape} {n : String}

/-- The problem with further shapes to classify against. -/
def append (p : Problem) (ts : List Shape) : Problem := { p with shapes := p.shapes ++ ts }

/-- The further shapes have new names, and no constraint of a shape of the problem names one of
them alone. -/
structure Ignores (p : Problem) (ts : List Shape) : Prop where
  /-- The names are new. -/
  fresh : ∀ t ∈ ts, t.name ∉ p.loaded
  /-- No constraint names one of them alone. -/
  unasked : ∀ s ∈ p.shapes ++ p.dependent, ∀ r ∈ s.rules, ∀ c ∈ r.constraint?, ∀ t ∈ ts,
    c.target? ≠ some t.name

namespace Ignores

/-- A name that was there stands for the same shape. -/
lemma own?_eq (h : p.Ignores ts) {name : String} (hname : name ∈ p.loaded) :
    (p.append ts).own? name = p.own? name := by
  have hnone : ts.find? (fun t => t.name = name) = none := by
    rw [List.find?_eq_none]
    intro t ht he
    have he : t.name = name := by simpa using he
    exact h.fresh t ht (he ▸ hname)
  rw [own?, own?, append]
  dsimp only
  rw [List.append_assoc, List.find?_append, List.find?_append, hnone, List.find?_append]
  rfl

/-- No shape is lost. -/
lemma extends_scene (h : p.Ignores ts) : p.scene.Extends (p.append ts).scene where
  query := rfl
  shapes name s hs := by
    rw [get?_scene] at hs ⊢
    rw [h.own?_eq (mem_loaded_of_own? hs), hs]

/-- The shapes of the problem leave their rays to the same tasks. -/
lemma next?_eq_some (h : p.Ignores ts) {s : Shape} (hs : s ∈ p.shapes ++ p.dependent) {ray : Ray}
    {u : Task} (hu : (p.append ts).scene.next? s ray = some u) :
    p.scene.next? s ray = some u := by
  refine (h.extends_scene.next? hu).resolve_right fun hmissing => ?_
  obtain ⟨-, hdemand, hloaded, -⟩ := Scene.next?_eq_some_iff.mp hu
  obtain ⟨-, -, hnone⟩ := Scene.missing?_eq_some_iff.mp hmissing
  -- the shape asked for would be one of the further shapes
  have hts : u.shape ∈ ts := by
    rw [get?_scene] at hloaded hnone
    obtain ⟨hmem, -⟩ := mem_of_own? hloaded
    rw [append, List.append_assoc, List.mem_append, List.mem_append] at hmem
    have hold : u.shape ∉ p.shapes ++ p.dependent := fun hold => by
      have hne := List.find?_eq_none.mp hnone u.shape hold
      simp at hne
    rw [List.mem_append, not_or] at hold
    exact (hmem.resolve_left hold.1).resolve_right hold.2
  obtain ⟨rule, targets, hrule, -, hconstraint, htarget, -⟩ :=
    Shape.demand_eq_conform_iff.mp hdemand
  exact h.unasked s hs rule (Shape.mem_rules_of_get? hrule) (.shape targets) hconstraint u.shape hts
    htarget

/-- A task of a shape of the problem conforms with the further shapes exactly if it did without
them. -/
lemma conforms_iff (h : p.Ignores ts) {t : Task} (ht : t.shape ∈ p.shapes ++ p.dependent) :
    (p.append ts).scene.Conforms t ↔ p.scene.Conforms t := by
  refine ⟨h.extends_scene.conforms, fun hconf => ?_⟩
  refine Scene.conforms_of_subset
    (X := {u | p.scene.Conforms u ∧ u.shape ∈ p.shapes ++ p.dependent}) ?_ ⟨hconf, ht⟩
  rintro u ⟨hconf, hu⟩
  obtain ⟨c, hc, hmeets⟩ := Scene.mem_conform.mp (Scene.conforms_iff_mem_conform.mp hconf)
  obtain ⟨hne, hall⟩ := Scene.meets_iff.mp hmeets
  refine Scene.mem_conform.mpr ⟨c, hc, Scene.meets_iff.mpr ⟨hne, fun ray hray =>
    ⟨(hall ray hray).1, fun v hv => Or.inl ?_⟩⟩⟩
  have hnext := h.next?_eq_some hu hv
  have hloaded := (Scene.next?_eq_some_iff.mp hnext).2.2.1
  rw [get?_scene] at hloaded
  exact ⟨(hall ray hray).2 v hnext, (mem_of_own? hloaded).1⟩

end Ignores

/-! ### The shapes that bind a star in full -/

open Classical in
/-- The shapes that bind the star of a row in full, in the order of the problem. -/
lemma shapesOf_full_eq {row : List Bindings} (h : (n, row) ∈ p.table) :
    Verdict.shapesOf Bindings.full row =
      distinct ((p.shapes.map Shape.name).filter fun s => s ∈ p.full n) := by
  rw [Verdict.shapesOf, ← map_shape_row h, List.filter_map]
  congr 2
  refine List.filter_congr fun b hb => ?_
  rw [Bool.eq_iff_iff, Function.comp_apply, decide_eq_true_eq, mem_full_iff h]
  constructor
  · exact fun hfull => ⟨b, hb, isWorthVisiting_of_full h hb hfull, hfull, rfl⟩
  · rintro ⟨b', hb', -, hfull, he⟩
    exact injOn_shape h hb' hb he ▸ hfull

/-- A star that some shape binds in full is contained in the shapes that do. -/
lemma verdict_of_full (hd : p.deciding? = none) {row : List Bindings} (h : (n, row) ∈ p.table)
    (hne : Verdict.shapesOf Bindings.full row ≠ []) :
    (p.reported n row).verdict =
      ⟨.contained, some (Verdict.shapesOf Bindings.full row), none⟩ := by
  rcases verdict_reported h with ⟨he, -⟩ | ⟨hnil, -⟩
  · rw [he, hd, Verdict.ofShapes, if_pos hne]
    rfl
  · exact absurd hnil hne

/-- Some shape binds a contained star in full. -/
lemma full_of_contained {row : List Bindings} (h : (n, row) ∈ p.table)
    (hcontained : (p.reported n row).verdict.result = .contained) :
    Verdict.shapesOf Bindings.full row ≠ [] :=
  full_ne_nil_of_contained h (Or.inl hcontained)

/-- The shapes of a problem bind a star in full whether or not further shapes are there. -/
lemma Ignores.mem_full_iff (h : p.Ignores ts) {s : String} (hs : s ∈ p.shapes.map Shape.name) :
    s ∈ (p.append ts).full n ↔ s ∈ p.full n := by
  obtain ⟨t, ht, rfl⟩ := List.mem_map.mp hs
  obtain ⟨own, hmem, hown⟩ := own?_of_mem ht
  have hloaded : own ∈ p.shapes ++ p.dependent := List.mem_append_left _ hmem
  have hname : own.name = t.name := (mem_of_own? hown).2
  have hown' : (p.append ts).own? t.name = some own :=
    (h.own?_eq (List.mem_map_of_mem (List.mem_append_left _ ht))).trans hown
  rw [mem_full_iff_conforms p.tabulates, mem_full_iff_conforms (p.append ts).tabulates]
  constructor
  · rintro ⟨⟨s, k⟩, ⟨-, hown'', hk⟩, rfl, hs, hconf⟩
    dsimp only at hown'' hs
    rw [hs, hown'] at hown''
    obtain rfl := Option.some.inj hown''
    exact ⟨⟨own, k⟩, ⟨hmem, hname ▸ hown, hk⟩, rfl, hname, (h.conforms_iff hloaded).mp hconf⟩
  · rintro ⟨⟨s, k⟩, ⟨-, hown'', hk⟩, rfl, hs, hconf⟩
    dsimp only at hown'' hs
    rw [hs, hown] at hown''
    obtain rfl := Option.some.inj hown''
    exact ⟨⟨own, k⟩, ⟨List.mem_append_left _ hmem, hname ▸ hown', hk⟩, rfl, hname,
      (h.conforms_iff hloaded).mpr hconf⟩

/-- **Containment is not lost to further shapes** of new names that no shape of the problem asks
for: a star that is contained stays contained, in the same shapes and possibly some that come
after them. -/
theorem contained_of_append (h : p.Ignores ts) (hd : p.deciding? = none) {c : Containment}
    (hc : (n, c) ∈ p.solve.containments) (hcontained : c.verdict.result = .contained) :
    ∃ c' targets targets', (n, c') ∈ (p.append ts).solve.containments ∧
      c'.verdict.result = .contained ∧ c.verdict.targets? = some targets ∧
        c'.verdict.targets? = some targets' ∧ targets <+: targets' := by
  obtain ⟨row, hmem, rfl⟩ := mem_containments.mp hc
  have hname : n ∈ p.query.names := mem_names_of_mem_table hmem
  obtain ⟨row', hmem'⟩ := exists_row (p := p.append ts) hname
  have hprefix : Verdict.shapesOf Bindings.full row <+: Verdict.shapesOf Bindings.full row' := by
    classical
    have hsame : (p.shapes.map Shape.name).filter (fun s => s ∈ (p.append ts).full n) =
        (p.shapes.map Shape.name).filter fun s => s ∈ p.full n :=
      List.filter_congr fun s hs => by rw [decide_eq_decide, h.mem_full_iff hs]
    rw [shapesOf_full_eq hmem, shapesOf_full_eq hmem', append, List.map_append,
      List.filter_append, ← append, hsame]
    exact prefix_distinct_append _ _
  have hne := full_of_contained hmem hcontained
  have hne' : Verdict.shapesOf Bindings.full row' ≠ [] := by
    intro hnil
    rw [hnil, List.prefix_nil] at hprefix
    exact hne hprefix
  have hverdict := verdict_of_full hd hmem hne
  have hverdict' := verdict_of_full (p := p.append ts) hd hmem' hne'
  exact ⟨_, _, _, mem_containments.mpr ⟨row', hmem', rfl⟩, congrArg Verdict.result hverdict',
    congrArg Verdict.targets? hverdict, congrArg Verdict.targets? hverdict', hprefix⟩

/-- Two more shapes for the circle: the first binds the star `b` as well, and the second asks for a
shape that is there. -/
def latecomers : List Shape := [.asking "U" [("p", none)], .asking "V" [("r", some "S")]]

/-- The first star of a circle that holds as a whole stays contained, whatever else contains it. -/
theorem wholeCircle_keeps :
    (wholeCircle id).Ignores latecomers ∧ (wholeCircle id).solve.Reports "b" .contained "S" ∧
      ∃ c targets, ("b", c) ∈ ((wholeCircle id).append latecomers).solve.containments ∧
        c.verdict.result = .contained ∧ c.verdict.targets? = some targets ∧
          ["S"] <+: targets := by
  have hignores : (wholeCircle id).Ignores latecomers := ⟨by decide +kernel, by decide +kernel⟩
  have hcontained : ∃ y ∈ (wholeCircle id).solve.containments, y.1 = "b" ∧
      y.2.verdict.result = .contained ∧ y.2.verdict.targets? = some ["S"] := by decide +kernel
  obtain ⟨⟨_, c⟩, hc, rfl, hresult, hold⟩ := hcontained
  obtain ⟨c', targets, targets', hc', hresult', htargets, htargets', hprefix⟩ :=
    contained_of_append hignores rfl hc hresult
  obtain rfl : ["S"] = targets := Option.some.inj (hold.symm.trans htargets)
  exact ⟨hignores, ⟨c, _, hc, hresult, hold, List.mem_singleton_self "S"⟩, c', targets', hc',
    hresult', htargets', hprefix⟩

end Problem

end StarShapes
