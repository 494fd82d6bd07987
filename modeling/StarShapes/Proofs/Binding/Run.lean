import StarShapes.Proofs.Binding.Finding
import StarShapes.Proofs.Binding.Following

/-!
Runs: matching with a memory finds only what can be found without one.

A run follows the rays of a star with the trail of the tasks before it, looks
tasks up in the memory and remembers those that rest on no open assumption.

* `Memory.Sound`: all that is remembered can be found without assumption.
* `Memory.assumedOn`: the tasks on the trail that a run may have assumed.
* `Approach`: a way to a task, from the first task of the trail on.
* `Scene.Runs`: a computation on a star keeps the memory sound, lets it grow,
  and comes to bindings that can be found on what it assumed.
* `runs_bindStar`: matching a star along a trail is such a computation;
  `finds_bind` draws the conclusion for a task at the start of a trail.
* `conforms_iff_bind`: conformance to a loaded shape is what matching computes.
-/

namespace StarShapes

/-! ### What the memory holds -/

namespace Memory

variable {scene : Scene} {roots : Set Task} {known : Set Shape} {m m' m'' : Memory}

/-- All that is remembered about the known shapes can be found without
assumption. -/
def Sound (scene : Scene) (roots : Set Task) (known : Set Shape) (m : Memory) : Prop :=
  ∀ t : Task, t.shape ∈ known → ∀ b, m.decided.find? t.goal = some b → scene.Finds roots ∅ t b

lemma sound_empty : Sound scene roots known empty := by
  intro t _ b hb
  cases hb

/-- The tasks of a trail from the first place on that was assumed. -/
def assumedOn (m : Memory) (trail : List Task) : Set Task :=
  {t | ∃ i l, trail[i]? = some t ∧ m.assumed? = some l ∧ l ≤ i}

lemma Grows.assumedOn_subset (h : m.Grows m') (trail : List Task) :
    m.assumedOn trail ⊆ m'.assumedOn trail := by
  rintro t ⟨i, l, ht, hl, hli⟩
  obtain ⟨l', hl', h1⟩ := h.assumed l hl
  exact ⟨i, l', ht, h1, hl'.trans hli⟩

/-- A place that is assumed is among those assumed. -/
lemma mem_assumedOn_assume {trail : List Task} {place : Nat} {t : Task}
    (h : trail[place]? = some t) : t ∈ (m.assume place).assumedOn trail := by
  have hplace : m.assumed? = some place ∨ some place = some place := Or.inr rfl
  obtain ⟨l, hl, he⟩ := lower_eq_some hplace
  exact ⟨place, l, h, he, hl⟩

/-- What can be found without assumption may be remembered. -/
lemma Sound.set (hknown : Set.InjOn Shape.name known) (h : m.Sound scene roots known) {t : Task}
    (ht : t.shape ∈ known) {b : Bindings} (hb : scene.Finds roots ∅ t b)
    (hm' : m'.decided = m.decided.set t.goal b) : m'.Sound scene roots known := by
  intro u hu b' hb'
  rw [hm', Dict.find?_set] at hb'
  split at hb'
  · rename_i hgoal
    obtain rfl := Option.some.inj hb'
    obtain rfl : t = u :=
      Task.ext (hknown ht hu (congrArg Goal.shape hgoal)) (congrArg Goal.star hgoal)
    exact hb
  · exact h u hu b' hb'

end Memory

namespace Scene

/-- A way to a task, from the first task of a trail on. Shapes are known by
their names, and what is not on the way was not passed. -/
structure Approach (scene : Scene) (roots : Set Task) (known : Set Shape) (before : List Task)
    (t : Task) (goals : List Goal) : Prop where
  /-- The trail has the goals of the tasks on the way. -/
  goals_eq : goals = (before ++ [t]).map Task.goal
  /-- The shapes on the way are known. -/
  known_of_mem : ∀ u ∈ before ++ [t], u.shape ∈ known
  /-- A task that is not on the way was avoided. -/
  reached : ∀ w, w ∉ before ++ [t] → scene.ReachedWithout roots w t

/-- A ray of a task was answered by bindings that can be found where the tasks
in `A` are assumed, or taken unseen because the task behind is in `A`. -/
def Answered (scene : Scene) (roots A : Set Task) (t : Task) (ray : Ray)
    (reply? : Option Bindings) : Prop :=
  ∀ u, scene.next? t.shape ray = some u → (reply? = none → u ∈ A) ∧
    ∀ n, reply? = some n → scene.ReachedWithout roots u t ∧ scene.Finds roots A u n

/-- All rays of a trial were answered. -/
def Answers (scene : Scene) (roots A : Set Task) (t : Task) (x : Trial) : Prop :=
  ∀ ray ∈ x.star.rays.toList, scene.Answered roots A t ray (x.reply ray)

lemma Answered.mono {scene : Scene} {roots A B : Set Task} {t : Task} {ray : Ray}
    {reply? : Option Bindings} (hAB : A ⊆ B) (h : scene.Answered roots A t ray reply?) :
    scene.Answered roots B t ray reply? := fun u hu =>
  ⟨fun hr => hAB ((h u hu).1 hr), fun n hn => ⟨((h u hu).2 n hn).1, ((h u hu).2 n hn).2.mono hAB⟩⟩

lemma Answers.mono {scene : Scene} {roots A B : Set Task} {t : Task} {x : Trial} (hAB : A ⊆ B)
    (h : scene.Answers roots A t x) : scene.Answers roots B t x := fun ray hray =>
  (h ray hray).mono hAB

/-- What is found for a task, by trials all of whose rays were answered. -/
lemma finds_iff {scene : Scene} {roots A : Set Task} {t : Task} {b : Bindings} :
    scene.Finds roots A t b ↔ ∃ (tried : List Trial) (rest : List Star),
      scene.query.candidates t.star = tried.map Trial.star ++ rest ∧
        Bindings.pick (tried.map (Trial.outcome scene t.shape)) none = some b ∧
          (rest = [] ∨ b.full = true) ∧ ∀ x ∈ tried, scene.Answers roots (insert t A) t x := by
  constructor
  · rintro ⟨tried, rest, hcandidates, hpick, hrest, hunseen, hreached, hfound⟩
    refine ⟨tried, rest, hcandidates, hpick, hrest, fun x hx ray hray u hu => ⟨?_, ?_⟩⟩
    · exact hunseen x hx ray hray u hu
    · exact fun n hn => ⟨hreached x hx ray hray u n hu hn, hfound x hx ray hray u n hu hn⟩
  · rintro ⟨tried, rest, hcandidates, hpick, hrest, hans⟩
    exact .intro tried rest hcandidates hpick hrest
      (fun x hx ray hray u hu => (hans x hx ray hray u hu).1)
      (fun x hx ray hray u n hu hn => ((hans x hx ray hray u hu).2 n hn).1)
      (fun x hx ray hray u n hu hn => ((hans x hx ray hray u hu).2 n hn).2)

/-- A computation on a star of a task keeps the memory sound, lets it grow, and
comes to the outcome of a trial that is answered on what it assumed. -/
def Runs (scene : Scene) (roots : Set Task) (known : Set Shape) (before : List Task) (t : Task)
    (star : Star) (f : Memory → Bindings × Memory) : Prop :=
  ∀ m, m.Sound scene roots known →
    (f m).2.Sound scene roots known ∧ m.Grows (f m).2 ∧
      ∃ x : Trial, x.star = star ∧ (f m).1 = x.outcome scene t.shape ∧
        scene.Answers roots ((f m).2.assumedOn (before ++ [t])) t x

variable {scene : Scene} {roots : Set Task} {known : Set Shape} {before : List Task} {t : Task}

/-! ### Several candidates, and the memory -/

/-- The candidates are tried in turn, up to the first that is bound in full. -/
lemma runs_bestOf {f : Star → Memory → Bindings × Memory} (stars : List Star)
    (hf : ∀ star ∈ stars, scene.Runs roots known before t star (f star))
    (best? : Option Bindings) {m : Memory} (hm : m.Sound scene roots known) :
    (bestOf f stars best? m).2.Sound scene roots known ∧ m.Grows (bestOf f stars best? m).2 ∧
      ∃ (tried : List Trial) (rest : List Star), stars = tried.map Trial.star ++ rest ∧
        (bestOf f stars best? m).1 =
          Bindings.pick (tried.map (Trial.outcome scene t.shape)) best? ∧
        (rest = [] ∨ ∃ b, (bestOf f stars best? m).1 = some b ∧ b.full = true) ∧
        ∀ x ∈ tried,
          scene.Answers roots ((bestOf f stars best? m).2.assumedOn (before ++ [t])) t x := by
  induction stars generalizing best? m with
  | nil => exact ⟨hm, .refl m, [], [], rfl, rfl, Or.inl rfl, by simp⟩
  | cons star stars ih =>
      obtain ⟨hsound, hgrows, x, rfl, hout, hans⟩ := hf _ List.mem_cons_self m hm
      rw [bestOf]
      dsimp only
      split
      · rename_i hfull
        refine ⟨hsound, hgrows, [x], stars, rfl, ?_, Or.inr ⟨_, rfl, hfull⟩, ?_⟩
        · rw [hout] at hfull ⊢
          rw [List.map_singleton, Bindings.pick, if_pos hfull]
        · intro y hy
          rw [List.mem_singleton.mp hy]
          exact hans
      · rename_i hfull
        obtain ⟨hsound', hgrows', tried, rest, rfl, hpick, hrest, hans'⟩ :=
          ih (fun s hs => hf s (List.mem_cons_of_mem _ hs))
            (some (Bindings.better best? (f x.star m).1)) hsound
        refine ⟨hsound', hgrows.trans hgrows', x :: tried, rest, rfl, ?_, hrest, ?_⟩
        · rw [hpick, List.map_cons, Bindings.pick, ← hout, if_neg hfull]
        · intro y hy
          rcases List.mem_cons.mp hy with rfl | hy
          · exact hans.mono (hgrows'.assumedOn_subset _)
          · exact hans' y hy

/-- Candidates come to something. -/
lemma exists_bestOf {f : Star → Memory → Bindings × Memory} {stars : List Star}
    {best? : Option Bindings} (h : stars ≠ [] ∨ best? ≠ none) (m : Memory) :
    ∃ b, (bestOf f stars best? m).1 = some b := by
  induction stars generalizing best? m with
  | nil => exact Option.ne_none_iff_exists'.mp (h.resolve_left fun h => h rfl)
  | cons s stars ih =>
      rw [bestOf]
      dsimp only
      split
      · exact ⟨_, rfl⟩
      · exact ih (Or.inr (Option.some_ne_none _)) _

/-- What was assumed on a trail up to a task is the task itself, or was assumed
before it. -/
lemma assumedOn_subset_insert {after : Memory} (m' : Memory)
    (h : ∀ l, after.assumed? = some l → l < before.length → ∃ l' ≤ l, m'.assumed? = some l') :
    after.assumedOn (before ++ [t]) ⊆ insert t (m'.assumedOn before) := by
  rintro u ⟨i, l, hu, hl, hli⟩
  by_cases hi : i < before.length
  · obtain ⟨l', hl', he⟩ := h l hl (lt_of_le_of_lt hli hi)
    rw [List.getElem?_append_left hi] at hu
    exact Or.inr ⟨i, l', hu, he, hl'.trans hli⟩
  · rw [List.getElem?_append_right (Nat.le_of_not_lt hi)] at hu
    exact Or.inl (List.mem_singleton.mp (List.mem_of_getElem? hu))

/-- If no place before a task was assumed, only the task itself was. -/
lemma assumedOn_subset_of_closed {after : Memory}
    (h : after.assumed?.filter (· < before.length) = none) :
    after.assumedOn (before ++ [t]) ⊆ insert t ∅ := by
  have hbefore : after.assumedOn (before ++ [t]) ⊆ insert t (Memory.empty.assumedOn before) := by
    refine assumedOn_subset_insert .empty fun l hl hlt => ?_
    rw [hl, Option.filter_some, if_pos (by simpa using hlt)] at h
    cases h
  refine hbefore.trans (Set.insert_subset_insert ?_)
  rintro u ⟨_, _, _, hl, _⟩
  cases hl

/-- What the candidates of a task come to can be found on any tasks that cover,
with the task itself, what was assumed. They come to something unless there are
none. -/
lemma finds_bestOf {f : Star → Memory → Bindings × Memory}
    (hf : ∀ star ∈ scene.query.candidates t.star, scene.Runs roots known before t star (f star))
    {m : Memory} (hm : m.Sound scene roots known) {p : Option Bindings × Memory}
    (hp : bestOf f (scene.query.candidates t.star) none m = p) :
    p.2.Sound scene roots known ∧ m.Grows p.2 ∧
      (∀ A, p.2.assumedOn (before ++ [t]) ⊆ insert t A → ∀ b, p.1 = some b →
        scene.Finds roots A t b) ∧
      (scene.query.candidates t.star ≠ [] → ∃ b, p.1 = some b) := by
  obtain ⟨hsound, hgrows, tried, rest, hcandidates, hpick, hrest, hans⟩ :=
    runs_bestOf (scene.query.candidates t.star) hf none hm
  rw [hp] at hsound hgrows hpick hrest hans
  refine ⟨hsound, hgrows, fun A hA b hb => ?_, fun hne => ?_⟩
  · refine finds_iff.mpr ⟨tried, rest, hcandidates, hpick.symm.trans hb, ?_,
      fun x hx => (hans x hx).mono hA⟩
    refine hrest.imp_right fun ⟨b', hb', hfull⟩ => ?_
    exact Option.some.inj (hb.symm.trans hb') ▸ hfull
  · rw [← hp]
    exact exists_bestOf (Or.inl hne) m

/-- A task is looked up, or else tried and remembered if what was found rests
on no task before it. Either way it can be found on what is then assumed. -/
lemma finds_remember (hknown : Set.InjOn Shape.name known) (ht : t.shape ∈ known)
    {f : Star → Memory → Bindings × Memory}
    (hf : ∀ star ∈ scene.query.candidates t.star,
      scene.Runs roots known before t star (f star))
    {m : Memory} (hm : m.Sound scene roots known) {r : Option Bindings × Memory}
    (hr : m.remember t.goal before.length (bestOf f (scene.query.candidates t.star) none) = r) :
    r.2.Sound scene roots known ∧ m.Grows r.2 ∧
      (∀ b, r.1 = some b → scene.Finds roots (r.2.assumedOn before) t b) ∧
      (scene.query.candidates t.star ≠ [] → ∃ b, r.1 = some b) := by
  cases hd : m.decided.find? t.goal with
  | some b =>
      rw [Memory.remember, hd] at hr
      subst hr
      refine ⟨hm, .refl m, fun b' hb' => ?_, fun _ => ⟨b, rfl⟩⟩
      obtain rfl := Option.some.inj hb'
      exact (hm t ht b hd).mono (Set.empty_subset _)
  | none =>
      generalize hp : bestOf f (scene.query.candidates t.star) none { m with assumed? := none } = p
      obtain ⟨hsound, hgrows, hfinds, hsome⟩ :=
        finds_bestOf hf (m := { m with assumed? := none }) hm hp
      have hgrows' := Memory.grows_remember hd before.length hp hgrows
      have hout := Memory.remember_of_find?_eq_none hd before.length hp
      rw [hr] at hgrows' hout
      obtain ⟨hanswer, hassumed, hdecided⟩ := hout
      have hcovers : p.2.assumedOn (before ++ [t]) ⊆ insert t (r.2.assumedOn before) := by
        refine assumedOn_subset_insert r.2 fun l hl hlt => ?_
        rw [hassumed]
        refine Memory.lower_eq_some (Or.inr ?_)
        rw [hl, Option.filter_some, if_pos (by simpa using hlt)]
      refine ⟨?_, hgrows', fun b hb => hfinds _ hcovers b (hanswer ▸ hb), hanswer ▸ hsome⟩
      rcases hdecided with hsame | ⟨hclosed, b, hb, hset⟩
      · exact fun u hu b hb => hsound u hu b (hsame ▸ hb)
      · have hfree : scene.Finds roots ∅ t b := hfinds ∅ (assumedOn_subset_of_closed hclosed) b hb
        exact hsound.set hknown ht hfree hset

/-! ### The rays of a star -/

/-- From a task on, the rays of a star lead to tasks that are reached, too. -/
def GoesOn (scene : Scene) (roots : Set Task) (t : Task) (star : Star) : Prop :=
  ∀ ray ∈ star.rays.toList, ∀ u, scene.next? t.shape ray = some u →
    ∀ w, u ≠ w → scene.ReachedWithout roots w t → scene.ReachedWithout roots w u

/-- The rays of a candidate lead on. -/
lemma goesOn_of_mem_candidates {star : Star} (h : star ∈ scene.query.candidates t.star) :
    scene.GoesOn roots t star := fun ray hray _ hu _ hne ht => ht.step ⟨star, h, ray, hray, hu⟩ hne

/-- One task further on the way. -/
lemma Approach.push {goals : List Goal} {u : Task}
    (h : scene.Approach roots known before t goals) (hu : u.shape ∈ known)
    (hnext : ∀ w, u ≠ w → scene.ReachedWithout roots w t → scene.ReachedWithout roots w u) :
    scene.Approach roots known (before ++ [t]) u (goals ++ [u.goal]) := by
  refine ⟨?_, fun v hv => ?_, fun w hw => ?_⟩
  · simp [h.goals_eq]
  · rcases List.mem_append.mp hv with hv | hv
    · exact h.known_of_mem v hv
    · rwa [List.mem_singleton.mp hv]
  · rw [List.mem_append, not_or, List.mem_singleton] at hw
    exact hnext w (Ne.symm hw.2) (h.reached w hw.1)

/-- A trail has as many goals as there are tasks on the way. -/
lemma Approach.length_eq {trail : Trail scene}
    (h : scene.Approach roots known before t trail.goals) :
    trail.length = (before ++ [t]).length := by
  rw [Trail.length, h.goals_eq, List.length_map]

/-- A task whose goal is on the trail is assumed once its place is. -/
lemma Approach.mem_assumedOn_assume (hknown : Set.InjOn Shape.name known) {trail : Trail scene}
    (h : scene.Approach roots known before t trail.goals) {u : Task} (hu : u.shape ∈ known)
    {place : Nat} (hplace : trail.position? u.goal = some place) (m : Memory) :
    u ∈ (m.assume place).assumedOn (before ++ [t]) := by
  rw [Trail.position?, h.goals_eq, List.idxOf?_eq_some_iff] at hplace
  obtain ⟨hlt, he, -⟩ := hplace
  rw [List.length_map] at hlt
  rw [List.getElem_map] at he
  have hshape : (before ++ [t])[place].shape = u.shape :=
    hknown (h.known_of_mem _ (List.getElem_mem hlt)) hu (congrArg Goal.shape he)
  have htask : (before ++ [t])[place] = u := Task.ext hshape (congrArg Goal.star he)
  exact Memory.mem_assumedOn_assume ((List.getElem?_eq_getElem hlt).trans (congrArg some htask))

/-- A task whose goal is not on the trail is not on the way. -/
lemma Approach.notMem {trail : Trail scene} (h : scene.Approach roots known before t trail.goals)
    {u : Task} (hplace : trail.position? u.goal = none) : u ∉ before ++ [t] := by
  intro hmem
  refine Trail.position?_eq_none_iff.mp hplace ?_
  rw [h.goals_eq]
  exact List.mem_map_of_mem hmem

/-- One ray keeps the memory sound, and its reply rests on what was assumed. The tasks further on
are taken to run as they should. -/
lemma answered_of_followed (hknown : Set.InjOn Shape.name known)
    (hloaded : ∀ name s, scene.shapes.get? name = some s → s ∈ known) {trail : Trail scene}
    (htrail : scene.Approach roots known before t trail.goals)
    {star : Star} (hstar : scene.GoesOn roots t star)
    (hfurther : ∀ (further : Trail scene) (u : Task), further.room < trail.room →
      scene.Approach roots known (before ++ [t]) u further.goals →
        ∀ c ∈ scene.query.candidates u.star,
          scene.Runs roots known (before ++ [t]) u c (scene.bindStar further u.shape c))
    {ray : Ray} (hray : ray ∈ star.rays.toList) {m m' : Memory} {reply? : Option Bindings}
    (hm : m.Sound scene roots known) (h : scene.Followed trail t.shape m ray reply? m') :
    m'.Sound scene roots known ∧
      scene.Answered roots (m'.assumedOn (before ++ [t])) t ray reply? := by
  have hknows : ∀ u, scene.next? t.shape ray = some u → u.shape ∈ known := fun u hu =>
    hloaded _ _ (next?_eq_some_iff.mp hu).2.2.1
  cases h with
  | settled hnone =>
      refine ⟨hm, fun u hu => ?_⟩
      rw [hnone] at hu
      cases hu
  | assumed place hplace =>
      refine ⟨hm, fun u hu => ⟨fun _ => ?_, ?_⟩⟩
      · exact htrail.mem_assumedOn_assume hknown (hknows u hu) (hplace u hu) m
      · rintro n ⟨⟩
  | @nested u further hu hnew hgoals hroom r hr =>
      have hfar : u ∉ before ++ [t] := htrail.notMem (Trail.position?_eq_none_iff.mpr hnew)
      have happroach := htrail.push (hknows u hu) fun w => hstar ray hray u hu w
      rw [← hgoals] at happroach
      rw [htrail.length_eq] at hr
      obtain ⟨hsound, -, hfinds, hsome⟩ :=
        finds_remember hknown (hknows u hu) (hfurther further u hroom happroach) hm hr
      obtain ⟨n, hn⟩ := hsome (Query.candidates_ne_nil_iff.mpr (next?_eq_some_iff.mp hu).2.2.2)
      refine ⟨hsound, fun u' hu' => ?_⟩
      obtain rfl := Option.some.inj (hu.symm.trans hu')
      refine ⟨fun hnone => ?_, fun n' hn' => ⟨htrail.reached _ hfar, hfinds n' hn'⟩⟩
      rw [hn] at hnone
      cases hnone

/-- Matching a star of a task along a trail that leads to the task is a run. -/
theorem runs_bindStar (hknown : Set.InjOn Shape.name known)
    (hloaded : ∀ name s, scene.shapes.get? name = some s → s ∈ known) {trail : Trail scene}
    (htrail : scene.Approach roots known before t trail.goals) {star : Star}
    (hstar : scene.GoesOn roots t star) :
    scene.Runs roots known before t star (scene.bindStar trail t.shape star) := by
  induction hroom : trail.room using Nat.strong_induction_on
    generalizing trail before t star with
  | _ room ih =>
      intro m hm
      have hfurther : ∀ (further : Trail scene) (u : Task), further.room < trail.room →
          scene.Approach roots known (before ++ [t]) u further.goals →
            ∀ c ∈ scene.query.candidates u.star,
              scene.Runs roots known (before ++ [t]) u c (scene.bindStar further u.shape c) :=
        fun further u hlt hu c hcand => ih further.room (hroom ▸ hlt) hu
          (goesOn_of_mem_candidates hcand) rfl
      have hstep : ∀ ray ∈ star.rays.toList, ∀ m reply? m', m.Sound scene roots known →
          scene.Followed trail t.shape m ray reply? m' → m'.Sound scene roots known ∧
            scene.Answered roots (m'.assumedOn (before ++ [t])) t ray reply? :=
        fun ray hray m reply? m' hm hfollowed =>
          answered_of_followed hknown hloaded htrail hstar hfurther hray hm hfollowed
      obtain ⟨hsound, hgrows, reply, hout, hans⟩ := exists_reply_bindStar
        (Q := fun m => scene.Answered roots (m.assumedOn (before ++ [t])) t)
        (fun _ _ _ _ hgrows hans => hans.mono (hgrows.assumedOn_subset _)) trail t.shape star hstep
        hm rfl
      exact ⟨hsound, hgrows, ⟨star, reply⟩, rfl, hout, hans⟩

/-! ### The first task of a trail -/

/-- A root starts a trail. -/
lemma approach_start (ht : t ∈ roots) (hs : t.shape ∈ known) :
    scene.Approach roots known [] t (Trail.start t.goal : Trail scene).goals := by
  refine ⟨rfl, fun u hu => ?_, fun w hw => .root ht fun he => hw ?_⟩
  · rwa [List.mem_singleton.mp hu]
  · exact he ▸ List.mem_cons_self

/-- Matching a name against a known shape keeps the memory sound, and comes to
bindings that can be found without assumption; to none if there is no star of
that name. -/
theorem finds_bind (hknown : Set.InjOn Shape.name known)
    (hloaded : ∀ name s, scene.shapes.get? name = some s → s ∈ known) (ht : t ∈ roots)
    (hs : t.shape ∈ known) {m : Memory} (hm : m.Sound scene roots known) :
    (m.bind scene t.shape t.star).2.Sound scene roots known ∧
      m.Grows (m.bind scene t.shape t.star).2 ∧
        (∀ b, (m.bind scene t.shape t.star).1 = some b → scene.Finds roots ∅ t b) ∧
          (t.star ∈ scene.query.names → ∃ b, (m.bind scene t.shape t.star).1 = some b) := by
  have hstars : ∀ star ∈ scene.query.candidates t.star,
      scene.Runs roots known [] t star (scene.bindFirst t.shape star) := by
    intro star hstar
    have hname : star.name = t.star := Query.name_of_mem_candidates hstar
    have happ : scene.Approach roots known [] t
        (Trail.start ⟨t.shape.name, star.name⟩ : Trail scene).goals := by
      rw [hname]
      exact approach_start ht hs
    exact runs_bindStar hknown hloaded happ (goesOn_of_mem_candidates hstar)
  obtain ⟨hsound, hgrows, hfinds, hsome⟩ := finds_remember hknown hs hstars hm rfl
  refine ⟨hsound, hgrows, fun b hb => (hfinds b hb).mono ?_, fun hn => hsome ?_⟩
  · rintro u ⟨i, l, hu, _⟩
    cases hu
  · exact Query.candidates_ne_nil_iff.mpr hn

end Scene

namespace Memory

/-- What is remembered of a name and a shape is the answer. -/
lemma bind_of_find? {scene : Scene} {shape : Shape} {name : String} {m : Memory} {b : Bindings}
    (h : m.decided.find? ⟨shape.name, name⟩ = some b) :
    m.bind scene shape name = (some b, m) := by
  rw [bind, remember, h]

/-- An answer is remembered: at the start of a trail nothing is assumed. -/
lemma find?_bind {scene : Scene} {shape : Shape} {name : String} {m : Memory} {b : Bindings}
    (h : (m.bind scene shape name).1 = some b) :
    (m.bind scene shape name).2.decided.find? ⟨shape.name, name⟩ = some b := by
  cases hd : m.decided.find? ⟨shape.name, name⟩ with
  | some b' =>
      rw [bind_of_find? hd] at h ⊢
      exact hd.trans h
  | none =>
      rw [bind, remember, hd] at h ⊢
      dsimp only at h ⊢
      have hopen : ∀ a? : Option Nat, a?.filter (fun l => decide (l < 0)) = none := by
        intro a?
        cases a? <;> simp
      rw [hopen, h, Dict.find?_set, if_pos rfl]

end Memory

end StarShapes
