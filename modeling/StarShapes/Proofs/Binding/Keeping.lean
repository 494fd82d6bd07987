import StarShapes.Proofs.Binding.Calls

/-!
Keeping: what a memory holds on to, whatever shapes and stars it is asked about.

* `Memory.Labelled`: what is remembered of a goal bears its names, and the query has its star.
* `Scene.Keeps`: a computation on a star lets the memory grow, keeps it labelled and comes to
  bindings with the names that it was asked for.
* `keeps_bindStar`: matching a star along a trail is such a computation. One ray of it keeps the
  memory labelled (`labelled_followRay`).
* `Memory.bindAll_eq_map`: the answers to a sequence of calls are what the memory holds in the end,
  so goals that are the same get the same answer.
-/

namespace StarShapes

/-! ### Computations that keep a memory -/

/-- What is remembered of a goal bears the names of the goal, and the query has a star of that
name. -/
def Memory.Labelled (scene : Scene) (m : Memory) : Prop :=
  ∀ g b, m.decided.find? g = some b →
    b.shape = g.shape ∧ b.star = g.star ∧ g.star ∈ scene.query.names

lemma Memory.labelled_empty {scene : Scene} : Memory.empty.Labelled scene := by
  intro g b hb
  cases hb

namespace Scene

/-- A computation on a star lets the memory grow and keeps it labelled, and its bindings bear the
names of the shape and of the star. -/
def Keeps (scene : Scene) (shape star : String) (f : Memory → Bindings × Memory) : Prop :=
  ∀ m, m.Labelled scene → m.Grows (f m).2 ∧ (f m).2.Labelled scene ∧
    (f m).1.shape = shape ∧ (f m).1.star = star

variable {scene : Scene} {shape star : String}

/-- Several candidates of a name. -/
lemma keeps_bestOf {f : Star → Memory → Bindings × Memory} (stars : List Star)
    (hf : ∀ s ∈ stars, scene.Keeps shape star (f s)) (best? : Option Bindings)
    (hbest : ∀ b, best? = some b → b.shape = shape ∧ b.star = star) {m : Memory}
    (hm : m.Labelled scene) :
    m.Grows (bestOf f stars best? m).2 ∧ (bestOf f stars best? m).2.Labelled scene ∧
      ∀ b, (bestOf f stars best? m).1 = some b → b.shape = shape ∧ b.star = star := by
  induction stars generalizing best? m with
  | nil => exact ⟨.refl m, hm, hbest⟩
  | cons s stars ih =>
      obtain ⟨hgrows, hlabelled, hnames⟩ := hf s List.mem_cons_self m hm
      rw [bestOf]
      dsimp only
      split
      · exact ⟨hgrows, hlabelled, fun b hb => Option.some.inj hb ▸ hnames⟩
      · have hbetter : ∀ b, some (Bindings.better best? (f s m).1) = some b →
            b.shape = shape ∧ b.star = star := by
          rintro b ⟨⟩
          rcases Bindings.better_eq_or best? (f s m).1 with he | he
          · rw [he]
            exact hnames
          · exact hbest _ he
        obtain ⟨hgrows', hrest⟩ :=
          ih (fun s' hs' => hf s' (List.mem_cons_of_mem _ hs')) _ hbetter hlabelled
        exact ⟨hgrows.trans hgrows', hrest⟩

/-- The candidates of a name, behind a look into the memory. -/
lemma keeps_remember {f : Star → Memory → Bindings × Memory}
    (hf : ∀ s ∈ scene.query.candidates star, scene.Keeps shape star (f s)) (depth : Nat)
    {m : Memory} (hm : m.Labelled scene) {r : Option Bindings × Memory}
    (hr : m.remember ⟨shape, star⟩ depth (bestOf f (scene.query.candidates star) none) = r) :
    m.Grows r.2 ∧ r.2.Labelled scene ∧
      ∀ b, r.1 = some b → b.shape = shape ∧ b.star = star := by
  subst hr
  cases hd : m.decided.find? ⟨shape, star⟩ with
  | some b =>
      rw [Memory.remember, hd]
      refine ⟨.refl m, hm, fun b' hb' => ?_⟩
      obtain rfl := Option.some.inj hb'
      exact ⟨(hm _ _ hd).1, (hm _ _ hd).2.1⟩
  | none =>
      generalize hp : bestOf f (scene.query.candidates star) none { m with assumed? := none } = p
      obtain ⟨hgrows, hlabelled, hnames⟩ := keeps_bestOf (scene.query.candidates star) hf none
        (by simp) (m := { m with assumed? := none }) hm
      rw [hp] at hgrows hlabelled hnames
      obtain ⟨hanswer, -, hdecided⟩ := Memory.remember_of_find?_eq_none hd depth hp
      refine ⟨Memory.grows_remember hd depth hp hgrows, fun g b hb => ?_,
        fun b hb => hnames b (hanswer ▸ hb)⟩
      rcases hdecided with hsame | ⟨-, c, hc, hset⟩
      · exact hlabelled g b (hsame ▸ hb)
      · rw [hset, Dict.find?_set] at hb
        split at hb
        · rename_i hg
          obtain rfl := Option.some.inj hb
          -- bindings were found, so there was a candidate
          have hne : scene.query.candidates star ≠ [] := by
            intro hnil
            rw [hnil, bestOf] at hp
            rw [← hp] at hc
            cases hc
          rw [← hg]
          exact ⟨(hnames c hc).1, (hnames c hc).2, Query.candidates_ne_nil_iff.mp hne⟩
        · exact hlabelled g b hb

/-- One ray, where stars further along the trail are matched in this way. -/
lemma labelled_of_followed {trail : Trail scene} {shape : Shape}
    (hfurther : ∀ further : Trail scene, further.room < trail.room → ∀ next s,
      scene.Keeps next.name s.name (scene.bindStar further next s)) {ray : Ray} {m m' : Memory}
    {reply? : Option Bindings} (hm : m.Labelled scene)
    (h : scene.Followed trail shape m ray reply? m') : m'.Labelled scene := by
  cases h with
  | settled hnone => exact hm
  | assumed place hplace => exact hm
  | @nested u further hu hnew hgoals hroom r hr =>
      have hstars : ∀ s ∈ scene.query.candidates u.star,
          scene.Keeps u.shape.name u.star (scene.bindStar further u.shape s) := by
        intro s hs
        rw [← Query.name_of_mem_candidates hs]
        exact hfurther further hroom u.shape s
      exact (keeps_remember hstars trail.length hm hr).2.1

/-- Matching a star along a trail keeps the memory. -/
theorem keeps_bindStar (trail : Trail scene) (shape : Shape) (star : Star) :
    scene.Keeps shape.name star.name (scene.bindStar trail shape star) := by
  induction hroom : trail.room using Nat.strong_induction_on generalizing trail shape star with
  | _ room ih =>
      intro m hm
      have hstep : ∀ ray ∈ star.rays.toList, ∀ m reply? m', m.Labelled scene →
          scene.Followed trail shape m ray reply? m' → m'.Labelled scene ∧ True := by
        intro ray _ m reply? m' hm hfollowed
        refine ⟨labelled_of_followed (fun further hlt next s => ?_) hm hfollowed, trivial⟩
        exact ih further.room (hroom ▸ hlt) further next s rfl
      obtain ⟨hlabelled, hgrows, reply, hout, -⟩ := exists_reply_bindStar
        (Q := fun _ _ _ => True) (fun _ _ _ _ _ h => h) trail shape star hstep hm rfl
      rw [hout]
      exact ⟨hgrows, hlabelled, shape_tally star, star_tally star⟩

/-- One ray of a closed shape keeps the memory labelled. -/
lemma labelled_followRay (trail : Trail scene) {shape : Shape} (hc : shape.closed = true)
    (ray : Ray) (b : Bindings) {m : Memory} (hm : m.Labelled scene) :
    (scene.followRay trail shape (b, m) ray).2.Labelled scene := by
  obtain ⟨reply?, m', hfollowed, he⟩ := exists_followed trail hc ray b m
  rw [he]
  exact labelled_of_followed (fun further _ next s => keeps_bindStar further next s) hm hfollowed

/-- The candidates of a name against a shape keep the memory. -/
lemma keeps_bind (shape : Shape) (n : String) {m : Memory} (hm : m.Labelled scene) :
    m.Grows (m.bind scene shape n).2 ∧ (m.bind scene shape n).2.Labelled scene ∧
      ∀ b, (m.bind scene shape n).1 = some b → b.shape = shape.name ∧ b.star = n := by
  refine keeps_remember (fun s hs m hm => ?_) 0 hm rfl
  obtain ⟨hgrows, hlabelled, hshape, hstar⟩ := keeps_bindStar (.start ⟨shape.name, s.name⟩) shape s
    m hm
  exact ⟨hgrows, hlabelled, hshape, hstar.trans (Query.name_of_mem_candidates hs)⟩

end Scene

/-! ### Sequences of calls -/

namespace Memory

variable {scene : Scene} {m : Memory}

/-- After a call nothing more is assumed than before. -/
lemma assumed?_bind (scene : Scene) (shape : Shape) (n : String) (m : Memory) :
    (m.bind scene shape n).2.assumed? = m.assumed? := by
  cases hd : m.decided.find? ⟨shape.name, n⟩ with
  | some b => rw [bind_of_find? hd]
  | none =>
      generalize hp : bestOf (scene.bindFirst shape) (scene.query.candidates n) none
        { m with assumed? := none } = p
      rw [bind, (remember_of_find?_eq_none hd 0 hp).2.1]
      cases p.2.assumed? <;> cases m.assumed? <;> rfl

/-- A call on a star of the query is answered. -/
lemma exists_bind (shape : Shape) {n : String} (hn : n ∈ scene.query.names) (m : Memory) :
    ∃ b, (m.bind scene shape n).1 = some b := by
  cases hd : m.decided.find? ⟨shape.name, n⟩ with
  | some b => exact ⟨b, by rw [bind_of_find? hd]⟩
  | none =>
      generalize hp : bestOf (scene.bindFirst shape) (scene.query.candidates n) none
        { m with assumed? := none } = p
      rw [bind, (remember_of_find?_eq_none hd 0 hp).1, ← hp]
      exact Scene.exists_bestOf (Or.inl (Query.candidates_ne_nil_iff.mpr hn)) _

/-- A call is answered by what is remembered of the goal ever after. -/
lemma fst_bind_of_grows (hm : m.Labelled scene) (shape : Shape) (n : String) {m' : Memory}
    (hgrows : (m.bind scene shape n).2.Grows m') (hm' : m'.Labelled scene) :
    (m.bind scene shape n).1 = m'.decided.find? ⟨shape.name, n⟩ := by
  by_cases hn : n ∈ scene.query.names
  · obtain ⟨b, hb⟩ := exists_bind shape hn m
    rw [hb, hgrows.kept _ _ (find?_bind hb)]
  · obtain ⟨-, hlabelled, -⟩ := Scene.keeps_bind shape n hm
    have hanswer : (m.bind scene shape n).1 = none :=
      Option.eq_none_iff_forall_ne_some.mpr fun b hb =>
        hn (hlabelled _ _ (find?_bind hb)).2.2
    have hnothing : m'.decided.find? ⟨shape.name, n⟩ = none :=
      Option.eq_none_iff_forall_ne_some.mpr fun b hb => hn (hm' _ _ hb).2.2
    rw [hanswer, hnothing]

/-- What a sequence of calls leaves behind was there or is remembered. -/
lemma keeps_bindAll (calls : List Task) (hm : m.Labelled scene) :
    m.Grows (m.bindAll scene calls).2 ∧ (m.bindAll scene calls).2.Labelled scene := by
  induction calls generalizing m with
  | nil => exact ⟨.refl m, hm⟩
  | cons t calls ih =>
      obtain ⟨hgrows, hlabelled, -⟩ := Scene.keeps_bind t.shape t.star hm
      obtain ⟨hgrows', hlabelled'⟩ := ih hlabelled
      rw [bindAll]
      exact ⟨hgrows.trans hgrows', hlabelled'⟩

/-- **The answers to a sequence of calls** are what the memory holds of their goals in the end. -/
theorem bindAll_eq_map (calls : List Task) (hm : m.Labelled scene) :
    (m.bindAll scene calls).1 =
      calls.map fun t => (m.bindAll scene calls).2.decided.find? t.goal := by
  induction calls generalizing m with
  | nil => rfl
  | cons t calls ih =>
      obtain ⟨-, hlabelled, -⟩ := Scene.keeps_bind t.shape t.star hm
      obtain ⟨hgrows, hlabelled'⟩ := keeps_bindAll calls hlabelled
      rw [bindAll, List.map_cons]
      dsimp only
      rw [← ih hlabelled, fst_bind_of_grows hm t.shape t.star hgrows hlabelled']
      rfl

end Memory

end StarShapes
