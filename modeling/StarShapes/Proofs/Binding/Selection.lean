import Mathlib.Data.List.MinMax
import StarShapes.Proofs.Binding.Calls

/-!
Selection: which of several candidates of a star is chosen.

The candidates are matched with one memory, so a later one finds there what earlier ones left. On
a cycle that may report other stars than it would find by itself, but it is full for the same
tasks.

* `Scene.held`: the tasks that hold where some are assumed. `Scene.Passes`: a ray is left to none
  but these.
* `Memory.Lenient`: what is remembered is full if its task conforms on the assumptions.
* `grants_bindStar`: matching along a trail on which all assumptions lie keeps the memory lenient,
  and binds what meets a shape in full.
* `Memory.Exact`, `passes_bindFirst`: while candidates of one name are matched, what is remembered
  is full for the tasks that conform where the first goal is assumed, and a ray is bound exactly if
  it passes there.
* `Scene.selected?`: the first candidate bound in full by itself, or else the first one with the
  most bound triples.
* `bestBindings_selects`: the best bindings are those of the candidate selected.
-/

namespace StarShapes

/-! ### What holds on assumptions -/

namespace Scene

variable {scene : Scene} {A X : Set Task} {t u : Task} {shape : Shape} {star : Star} {ray : Ray}

/-- The tasks that hold where those in `A` are assumed: these, and those that conform if they do. -/
def held (scene : Scene) (A : Set Task) : Set Task := A ∪ {u | scene.ConformsIf A u}

/-- A task that conforms on assumptions does so by one round on the tasks that hold. -/
lemma ConformsIf.mem_conform (h : scene.ConformsIf A u) : u ∈ scene.conform (scene.held A) := by
  obtain ⟨P, huP, hP⟩ := h
  refine scene.conform.monotone ?_ (hP huP)
  rintro v (hv | hv)
  · exact Or.inr ⟨P, hv, hP⟩
  · exact Or.inl hv

/-- A shape lets a ray pass: it does not refuse it, and the task that it leaves it to is in `X`. -/
def Passes (scene : Scene) (X : Set Task) (shape : Shape) (ray : Ray) : Prop :=
  (shape.closed = true → shape.demand ray ≠ .settled false) ∧
    ∀ u, scene.next? shape ray = some u → u ∈ X

/-- A ray that is not left to another task is bound exactly if it passes. -/
lemma binds_iff_passes (hnone : scene.next? shape ray = none) (reply : Ray → Option Bindings) :
    scene.binds shape reply ray = true ↔ scene.Passes X shape ray := by
  rw [binds_of_next?_eq_none hnone, Passes, hnone]
  simp

/-- A ray that is left to another task passes if this task holds. -/
lemma passes_iff_of_next? (hu : scene.next? shape ray = some u) :
    scene.Passes X shape ray ↔ u ∈ X := by
  constructor
  · exact fun h => h.2 u hu
  · intro h
    refine ⟨fun _ hd => ?_, fun u' hu' => Option.some.inj (hu.symm.trans hu') ▸ h⟩
    rw [(next?_eq_some_iff.mp hu).2.1] at hd
    cases hd

end Scene

/-- What is remembered of a loaded shape is full if the task conforms where those in `A` are
assumed. -/
def Memory.Lenient (scene : Scene) (A : Set Task) (m : Memory) : Prop :=
  ∀ u : Task, scene.shapes.get? u.shape.name = some u.shape → ∀ b,
    m.decided.find? u.goal = some b → scene.ConformsIf A u → b.full = true

lemma Memory.lenient_empty {scene : Scene} {A : Set Task} : Memory.empty.Lenient scene A := by
  intro u _ b hb
  cases hb

/-- What is remembered while stars are matched as the first goal: it can be found without
assumption, and it is full if its task conforms where the first goal is assumed. -/
structure Memory.Exact (scene : Scene) (known : Set Shape) (g : Goal) (m : Memory) : Prop where
  /-- It can be found. -/
  sound : m.Sound scene Set.univ known
  /-- It is full where it may be. -/
  lenient : m.Lenient scene {a | a.goal = g}

lemma Memory.exact_empty {scene : Scene} {known : Set Shape} {g : Goal} :
    Memory.empty.Exact scene known g := ⟨sound_empty, lenient_empty⟩

namespace Scene

variable {scene : Scene} {A : Set Task} {t u : Task} {shape : Shape} {star : Star} {ray : Ray}

/-! ### Lenient computations -/

/-- A computation on a star keeps the memory lenient, and binds the star in full if it meets the
shape where the tasks in `A` are assumed. -/
def Grants (scene : Scene) (A : Set Task) (shape : Shape) (star : Star)
    (f : Memory → Bindings × Memory) : Prop :=
  ∀ m, m.Lenient scene A → (f m).2.Lenient scene A ∧
    (star.Meets scene (scene.held A) shape → (f m).1.full = true)

/-- Several candidates: if one of them meets the shape, then the best one is bound in full. -/
lemma grants_bestOf {f : Star → Memory → Bindings × Memory} (stars : List Star)
    (hf : ∀ c ∈ stars, scene.Grants A shape c (f c)) (best? : Option Bindings) {m : Memory}
    (hm : m.Lenient scene A) : (bestOf f stars best? m).2.Lenient scene A ∧
      ((∃ c ∈ stars, c.Meets scene (scene.held A) shape) →
        ∀ b, (bestOf f stars best? m).1 = some b → b.full = true) := by
  induction stars generalizing best? m with
  | nil => exact ⟨hm, by simp⟩
  | cons c stars ih =>
      obtain ⟨hlenient, hmeets⟩ := hf c List.mem_cons_self m hm
      rw [bestOf]
      dsimp only
      split
      · rename_i hfull
        exact ⟨hlenient, fun _ b hb => Option.some.inj hb ▸ hfull⟩
      · rename_i hfull
        obtain ⟨hlenient', hrest⟩ := ih (fun d hd => hf d (List.mem_cons_of_mem _ hd)) _ hlenient
        refine ⟨hlenient', ?_⟩
        rintro ⟨d, hd, hmeetsd⟩
        rcases List.mem_cons.mp hd with rfl | hd
        · exact absurd (hmeets hmeetsd) hfull
        · exact hrest ⟨d, hd, hmeetsd⟩

/-- A task is looked up or tried: what is found is full if the task conforms on the assumptions. -/
lemma grants_remember (hs : scene.shapes.get? u.shape.name = some u.shape)
    {f : Star → Memory → Bindings × Memory}
    (hf : ∀ c ∈ scene.query.candidates u.star, scene.Grants A u.shape c (f c)) (depth : Nat)
    {m : Memory} (hm : m.Lenient scene A) {r : Option Bindings × Memory}
    (hr : m.remember u.goal depth (bestOf f (scene.query.candidates u.star) none) = r) :
    r.2.Lenient scene A ∧ (scene.ConformsIf A u → ∀ n, r.1 = some n → n.full = true) := by
  subst hr
  cases hd : m.decided.find? u.goal with
  | some b =>
      rw [Memory.remember, hd]
      exact ⟨hm, fun hu n hn => Option.some.inj hn ▸ hm u hs b hd hu⟩
  | none =>
      generalize hp : bestOf f (scene.query.candidates u.star) none { m with assumed? := none } = p
      obtain ⟨hlenient, hmeets⟩ := grants_bestOf (scene.query.candidates u.star) hf none
        (m := { m with assumed? := none }) hm
      rw [hp] at hlenient hmeets
      have hfull : scene.ConformsIf A u → ∀ n, p.1 = some n → n.full = true :=
        fun hu => hmeets hu.mem_conform
      obtain ⟨hanswer, -, hdecided⟩ := Memory.remember_of_find?_eq_none hd depth hp
      refine ⟨fun v hv b hb => ?_, hanswer ▸ hfull⟩
      rcases hdecided with hsame | ⟨-, c, hc, hset⟩
      · exact hlenient v hv b (hsame ▸ hb)
      · rw [hset, Dict.find?_set] at hb
        split at hb
        · rename_i hgoal
          obtain rfl := Option.some.inj hb
          have hname : u.shape.name = v.shape.name := congrArg Goal.shape hgoal
          have hshape : some u.shape = some v.shape := by rw [← hs, ← hv, hname]
          obtain rfl : u = v := Task.ext (Option.some.inj hshape) (congrArg Goal.star hgoal)
          exact fun hu => hfull hu c hc
        · exact hlenient v hv b hb

/-- One ray: if the task that it is left to holds, then the reply is full. The tasks assumed are on
the trail, and so they are not replied to. -/
lemma grants_of_followed {trail : Trail scene} (hA : ∀ a ∈ A, a.goal ∈ trail.goals)
    (hfurther : ∀ further : Trail scene, further.room < trail.room →
      (∀ a ∈ A, a.goal ∈ further.goals) → ∀ next c,
        scene.Grants A next c (scene.bindStar further next c)) {m m' : Memory}
    {reply? : Option Bindings} (hm : m.Lenient scene A)
    (h : scene.Followed trail shape m ray reply? m') :
    m'.Lenient scene A ∧ (scene.Passes (scene.held A) shape ray →
      scene.binds shape (fun _ => reply?) ray = true) := by
  cases h with
  | settled hnone => exact ⟨hm, (binds_iff_passes hnone _).mpr⟩
  | assumed place hplace =>
      refine ⟨hm, ?_⟩
      cases hu : scene.next? shape ray with
      | none => exact (binds_iff_passes hu _).mpr
      | some u => exact fun _ => (binds_of_next?_eq_some hu).mpr (by simp)
  | @nested u further hu hnew hgoals hroom r hr =>
      have hstars : ∀ c ∈ scene.query.candidates u.star,
          scene.Grants A u.shape c (scene.bindStar further u.shape c) := fun c _ =>
        hfurther further hroom (fun a ha => hgoals ▸ List.mem_append_left _ (hA a ha)) u.shape c
      obtain ⟨hlenient, hfull⟩ :=
        grants_remember (next?_eq_some_iff.mp hu).2.2.1 hstars trail.length hm hr
      refine ⟨hlenient, fun hpass => (binds_of_next?_eq_some hu).mpr ?_⟩
      rcases (passes_iff_of_next? hu).mp hpass with ha | hconf
      · exact absurd (hA u ha) hnew
      · exact hfull hconf

/-- Matching a star along a trail with all assumptions is lenient. -/
lemma grants_bindStar {trail : Trail scene} (hA : ∀ a ∈ A, a.goal ∈ trail.goals) (shape : Shape)
    (star : Star) : scene.Grants A shape star (scene.bindStar trail shape star) := by
  induction hroom : trail.room using Nat.strong_induction_on generalizing trail shape star with
  | _ room ih =>
      intro m hm
      have hstep : ∀ ray ∈ star.rays.toList, ∀ m reply? m', m.Lenient scene A →
          scene.Followed trail shape m ray reply? m' → m'.Lenient scene A ∧
            (scene.Passes (scene.held A) shape ray →
              scene.binds shape (fun _ => reply?) ray = true) := by
        intro ray _ m reply? m' hm hfollowed
        refine grants_of_followed hA (fun further hlt hA' next c => ?_) hm hfollowed
        exact ih further.room (hroom ▸ hlt) hA' next c rfl
      obtain ⟨hlenient, -, reply, hout, hreply⟩ := exists_reply_bindStar
        (Q := fun _ ray reply? => scene.Passes (scene.held A) shape ray →
          scene.binds shape (fun _ => reply?) ray = true)
        (fun _ _ _ _ _ h => h) trail shape star hstep hm rfl
      refine ⟨hlenient, fun hmeets => ?_⟩
      obtain ⟨hne, hpass⟩ := meets_iff.mp hmeets
      rw [hout]
      exact full_tally_iff.mpr ⟨hne, fun ray hray => hreply ray hray (hpass ray hray)⟩

/-! ### The rays of the first star -/

variable {known : Set Shape}

/-- The name of a shape belongs to one of a set in which all loaded shapes are and shapes are told
apart by their names. It may be another shape. -/
lemma exists_known (scene : Scene) (shape : Shape) : ∃ (s : Shape) (known : Set Shape),
    s.name = shape.name ∧ s ∈ known ∧ Set.InjOn Shape.name known ∧
      ∀ name s', scene.shapes.get? name = some s' → s' ∈ known := by
  cases hs : scene.shapes.get? shape.name with
  | some s =>
      exact ⟨s, {s | s ∈ scene.shapes.toList}, Keyed.key_of_get? hs, Keyed.mem_of_get? hs,
        scene.shapes.injOn, fun _ _ => Keyed.mem_of_get?⟩
  | none =>
      have hnew : ∀ s ∈ scene.shapes.toList, s.name ≠ shape.name := fun s hs' he =>
        Keyed.get?_eq_none_iff.mp hs (he ▸ List.mem_map_of_mem hs')
      refine ⟨shape, insert shape {s | s ∈ scene.shapes.toList}, rfl, Or.inl rfl, ?_,
        fun _ _ hs' => Or.inr (Keyed.mem_of_get? hs')⟩
      rintro a (rfl | ha) b (rfl | hb) he
      · rfl
      · exact absurd he.symm (hnew b hb)
      · exact absurd he (hnew a ha)
      · exact scene.shapes.injOn ha hb he

section

variable (hknown : Set.InjOn Shape.name known)
  (hloaded : ∀ name s, scene.shapes.get? name = some s → s ∈ known) (ht : t.shape ∈ known)

include hknown hloaded ht

/-- One ray of the first star is bound exactly if the task that it is left to holds where the first
goal is assumed. -/
lemma passes_of_followed {m m' : Memory} {reply? : Option Bindings}
    (hm : m.Exact scene known t.goal)
    (h : scene.Followed (.start t.goal) shape m ray reply? m') : m'.Exact scene known t.goal ∧
      (scene.binds shape (fun _ => reply?) ray = true ↔
        scene.Passes (scene.held {a | a.goal = t.goal}) shape ray) := by
  have hA : ∀ a ∈ {a : Task | a.goal = t.goal}, a.goal ∈ (Trail.start t.goal : Trail scene).goals :=
    fun a ha => List.mem_singleton.mpr ha
  obtain ⟨hlenient, hbinds⟩ := grants_of_followed hA
    (fun further _ hA' next c => grants_bindStar hA' next c) hm.lenient h
  cases h with
  | settled hnone => exact ⟨⟨hm.sound, hlenient⟩, binds_iff_passes hnone _⟩
  | assumed place hplace =>
      refine ⟨⟨hm.sound, hlenient⟩, fun hb => ?_, hbinds⟩
      cases hu : scene.next? shape ray with
      | none => exact (binds_iff_passes hu _).mp hb
      | some u =>
          have hmem : u.goal ∈ (Trail.start t.goal : Trail scene).goals := by
            by_contra hnew
            have hnone := Trail.position?_eq_none_iff.mpr hnew
            rw [hplace u hu] at hnone
            cases hnone
          exact (passes_iff_of_next? hu).mpr (Or.inl (List.mem_singleton.mp hmem))
  | @nested u further hu hnew hgoals hroom r hr =>
      have hs : u.shape ∈ known := hloaded _ _ (next?_eq_some_iff.mp hu).2.2.1
      have hstart : scene.Approach Set.univ known [] t (Trail.start t.goal : Trail scene).goals :=
        approach_start (Set.mem_univ t) ht
      have happroach := hstart.push hs fun w hne _ => .root (Set.mem_univ u) hne
      rw [← hgoals] at happroach
      have hruns : ∀ c ∈ scene.query.candidates u.star,
          scene.Runs Set.univ known [t] u c (scene.bindStar further u.shape c) := fun c hc =>
        runs_bindStar hknown hloaded happroach (goesOn_of_mem_candidates hc)
      obtain ⟨hsound, -, hfinds, hsome⟩ := finds_remember hknown hs hruns hm.sound hr
      refine ⟨⟨hsound, hlenient⟩, fun hb => (passes_iff_of_next? hu).mpr (Or.inr ?_), hbinds⟩
      -- what was found for the task rests at most on the first one
      obtain ⟨n, hn⟩ := hsome (Query.candidates_ne_nil_iff.mpr (next?_eq_some_iff.mp hu).2.2.2)
      have hfull : n.full = true := (binds_of_next?_eq_some hu).mp hb n hn
      refine ((hfinds n hn).conformsIf hfull).mono ?_
      rintro a ⟨i, l, ha, -, -⟩
      rw [List.mem_singleton.mp (List.mem_of_getElem? ha)]
      rfl

/-- Matching a first star binds the rays that pass where its goal is assumed. -/
lemma passes_bindFirst (hgoal : t.goal = ⟨shape.name, star.name⟩) {m : Memory}
    (hm : m.Exact scene known t.goal) {p : Bindings × Memory}
    (hp : scene.bindFirst shape star m = p) :
    p.2.Exact scene known t.goal ∧
      ∃ reply, p.1 = scene.tally shape reply star ∧ ∀ ray ∈ star.rays.toList,
        (scene.binds shape reply ray = true ↔
          scene.Passes (scene.held {a | a.goal = t.goal}) shape ray) := by
  rw [bindFirst, ← hgoal] at hp
  obtain ⟨hm', -, hreply⟩ := exists_reply_bindStar (P := Memory.Exact scene known t.goal)
    (Q := fun _ ray reply? => scene.binds shape (fun _ => reply?) ray = true ↔
      scene.Passes (scene.held {a | a.goal = t.goal}) shape ray)
    (fun _ _ _ _ _ h => h) (.start t.goal) shape star
    (fun _ _ _ _ _ hm hfollowed => passes_of_followed hknown hloaded ht hm hfollowed) hm hp
  exact ⟨hm', hreply⟩

end

end Scene

/-! ### What the memory does not tell -/

/-- Bindings of a star that bind the same triples and refuse the same. -/
structure Bindings.SameFate (b b' : Bindings) : Prop where
  /-- Both are full, or none is. -/
  full : b.full = b'.full
  /-- The same triples are bound. -/
  slots : b.slots = b'.slots
  /-- The same triples are refused. -/
  unbound : b.unbound = b'.unbound

lemma Bindings.SameFate.count {b b' : Bindings} (h : b.SameFate b') : b.count = b'.count := by
  rw [Bindings.count, Bindings.count, bound, bound, h.slots]

namespace Scene

variable {scene : Scene} {t : Task} {shape : Shape} {star : Star} {known : Set Shape}

/-- Tallies of a star that bind the same rays. -/
lemma sameFate_tally {reply reply' : Ray → Option Bindings}
    (h : ∀ ray ∈ star.rays.toList,
      (scene.binds shape reply ray = true ↔ scene.binds shape reply' ray = true)) :
    (scene.tally shape reply star).SameFate (scene.tally shape reply' star) := by
  have hbinds : ∀ ray ∈ star.rays.toList,
      scene.binds shape reply ray = scene.binds shape reply' ray := fun ray hray =>
    Bool.eq_iff_iff.mpr (h ray hray)
  constructor
  case full =>
    rw [Bool.eq_iff_iff, full_tally_iff, full_tally_iff]
    exact and_congr_right fun _ => forall₂_congr h
  case slots => rw [slots_tally, slots_tally, List.filter_congr hbinds]
  case unbound =>
    rw [unbound_tally, unbound_tally, List.filter_congr fun ray hray => by rw [hbinds ray hray]]

/-- What an earlier star of the same name left in the memory does not change the fate of a star. -/
lemma sameFate_bindFirst (hknown : Set.InjOn Shape.name known)
    (hloaded : ∀ name s, scene.shapes.get? name = some s → s ∈ known) (ht : t.shape ∈ known)
    (hgoal : t.goal = ⟨shape.name, star.name⟩) {m : Memory} (hm : m.Exact scene known t.goal) :
    (scene.bindFirst shape star m).2.Exact scene known t.goal ∧
      (scene.bindFirst shape star m).1.SameFate (scene.bindings shape star) := by
  obtain ⟨hm', reply, hout, hreply⟩ := passes_bindFirst hknown hloaded ht hgoal hm rfl
  obtain ⟨-, reply', hout', hreply'⟩ :=
    passes_bindFirst hknown hloaded ht hgoal Memory.exact_empty rfl
  refine ⟨hm', ?_⟩
  rw [bindings, hout, hout']
  exact sameFate_tally fun ray hray => (hreply ray hray).trans (hreply' ray hray).symm

/-! ### The candidate selected -/

/-- The candidate that is chosen by what each comes to by itself: the first that is bound in full,
or else the first with the most bound triples. -/
def selected? (scene : Scene) (shape : Shape) (candidates : List Star) : Option Star :=
  (candidates.find? fun c => (scene.bindings shape c).full).or
    (candidates.argmax fun c => (scene.bindings shape c).count)

/-- Candidates whose bindings agree with `value`, whatever was done with the memory before. -/
lemma rel_bestOf {f : Star → Memory → Bindings × Memory} {value : Star → Bindings}
    {P : Memory → Prop} (stars : List Star)
    (hf : ∀ c ∈ stars, ∀ m, P m → P (f c m).2 ∧ (f c m).1.SameFate (value c))
    {best? : Option Bindings} {x? : Option Star}
    (hbest : Option.Rel (fun b c => b.SameFate (value c)) best? x?) {m : Memory} (hm : P m) :
    Option.Rel (fun b c => b.SameFate (value c)) (bestOf f stars best? m).1
      ((stars.find? fun c => (value c).full).or
        (stars.foldl (List.argAux fun c d => (value d).count < (value c).count) x?)) := by
  induction stars generalizing best? x? m with
  | nil => exact hbest
  | cons c stars ih =>
      obtain ⟨hm', hfate⟩ := hf c List.mem_cons_self m hm
      rw [bestOf, List.find?_cons]
      dsimp only
      rw [hfate.full]
      cases hfull : (value c).full with
      | true => exact .some hfate
      | false =>
          refine ih (fun d hd => hf d (List.mem_cons_of_mem _ hd)) ?_ hm'
          cases hbest with
          | none => exact .some hfate
          | @some b d hb =>
              rw [Bindings.better, List.argAux, hb.count, hfate.count]
              dsimp only
              split
              · exact .some hfate
              · exact .some hb

/-- There is a candidate to select if there is any. -/
lemma selected?_eq_none_iff {candidates : List Star} :
    scene.selected? shape candidates = none ↔ candidates = [] := by
  rw [selected?, Option.or_eq_none_iff, List.argmax_eq_none]
  constructor
  · exact fun h => h.2
  · rintro rfl
    exact ⟨rfl, rfl⟩

/-- **The best bindings are those of the candidate selected**, although the candidates share a
memory: they are full, fill the slots and refuse triples as the bindings of this candidate with
nothing remembered. There are none only if there is neither a star nor an alternative. -/
theorem bestBindings_selects (scene : Scene) (shape : Shape) (name : String)
    (main? : Option Star) (alternatives : List Star) (hmain : ∀ s, main? = some s → s.name = name)
    (halternatives : ∀ s ∈ alternatives, s.name = name) :
    (scene.bestBindings shape (Query.candidatesOf main? alternatives) = none ↔
      main? = none ∧ alternatives = []) ∧
    Option.Rel (fun b c => b.SameFate (scene.bindings shape c))
      (scene.bestBindings shape (Query.candidatesOf main? alternatives))
      (scene.selected? shape (Query.candidatesOf main? alternatives)) := by
  obtain ⟨s, known, hs, hmem, hknown, hloaded⟩ := exists_known scene shape
  have hrel : Option.Rel (fun b c => b.SameFate (scene.bindings shape c))
      (scene.bestBindings shape (Query.candidatesOf main? alternatives))
      (scene.selected? shape (Query.candidatesOf main? alternatives)) := by
    refine rel_bestOf (P := Memory.Exact scene known ⟨s.name, name⟩) _ (fun c hc m hm => ?_)
      .none Memory.exact_empty
    refine sameFate_bindFirst (t := ⟨s, name⟩) hknown hloaded hmem ?_ hm
    rw [Task.goal, hs, Query.name_of_mem_candidatesOf hmain halternatives hc]
  have hnone : scene.bestBindings shape (Query.candidatesOf main? alternatives) = none ↔
      scene.selected? shape (Query.candidatesOf main? alternatives) = none := by
    generalize scene.bestBindings _ _ = b? at hrel ⊢
    generalize scene.selected? _ _ = c? at hrel ⊢
    cases hrel <;> simp
  exact ⟨hnone.trans (selected?_eq_none_iff.trans Query.candidatesOf_eq_nil_iff), hrel⟩

/-- A star whose main candidate has a ray to a loop of two others, and a ray that is refused. Its
alternative has a ray to a fourth star, which has one back to the first. -/
def twoLoops : Scene where
  query := (Query.ofStars [.ofPairs "b" [("p", .var "c"), ("z", .var "x")],
    .ofPairs "c" [("s", .var "d")], .ofPairs "d" [("t", .var "c")],
    .ofPairs "e" [("r", .var "b")]]).withUnion [[.ofPairs "b" [("q", .var "e")]]]
  shapes := .ofList [.asking "S" [("p", some "T"), ("q", some "W")], .asking "T" [("s", some "V")],
    .asking "V" [("t", some "T")], .asking "W" [("r", some "S")]]

/-- No candidate of the first star is bound in full, and the one with the alternative has more bound
triples. When it is its turn, the memory holds the loop that the main candidate led to. -/
theorem twoLoops_selects : ∃ b c,
    twoLoops.bestBindings (.asking "S" [("p", some "T"), ("q", some "W")])
      (twoLoops.query.candidates "b") = some b ∧ b.full = false ∧ b.count = 2 ∧
    c.triples.map Triple.predicate = ["p", "z", "q"] ∧
    b.SameFate (twoLoops.bindings (.asking "S" [("p", some "T"), ("q", some "W")]) c) := by
  have hrel := (bestBindings_selects twoLoops (.asking "S" [("p", some "T"), ("q", some "W")]) "b"
    (twoLoops.query.main? "b") (twoLoops.query.alternatives "b")
    (fun _ hs => Keyed.key_of_get? hs) (by decide +kernel)).2
  have hbest : (twoLoops.bestBindings (.asking "S" [("p", some "T"), ("q", some "W")])
      (twoLoops.query.candidates "b")).map (fun b => (b.full, b.count)) = some (false, 2) := by
    decide +kernel
  have hselected : (twoLoops.selected? (.asking "S" [("p", some "T"), ("q", some "W")])
      (twoLoops.query.candidates "b")).map (fun c => c.triples.map Triple.predicate) =
        some ["p", "z", "q"] := by decide +kernel
  rw [← Query.candidates] at hrel
  generalize twoLoops.bestBindings _ _ = b? at hrel hbest ⊢
  generalize twoLoops.selected? _ _ = c? at hrel hselected
  cases hrel with
  | none => cases hbest
  | @some b c hfate =>
      simp only [Option.map_some, Option.some.injEq, Prod.mk.injEq] at hbest hselected
      exact ⟨b, c, rfl, hbest.1, hbest.2, hselected, hfate⟩

end Scene

end StarShapes
