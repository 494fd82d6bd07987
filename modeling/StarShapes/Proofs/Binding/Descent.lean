import StarShapes.Proofs.Binding.Keeping

/-!
Descents: matching with the goals under way on a plain stack.

A descent knows of no trail. It puts a goal on the stack before the rays of a star are followed
and takes it off afterwards, and it gives up when calls are nested too deep. That it never does is
what there is to show.

* `Descent`: the stack, the memory, and all the stacks that there were.
* `Descent.bindStar`: a star against a shape, where calls may be nested `fuel` deep.
* `Descent.Bounded`: on no stack does a goal occur twice, so all of them are short.
* `Descent.Imitates`: a descent from a stack comes back to it, with the result of a computation on
  the memory alone. `imitates_bindStar`: matching a star along a trail is imitated if there is fuel
  for each time that the trail can be prolonged.
* `descends`: every call comes back, to an empty stack, and goals that are the same get the same
  answer.
-/

namespace StarShapes

/-- Matching as it goes on. -/
structure Descent where
  /-- The goals under way, the first one first. -/
  stack : List Goal
  /-- What is remembered. -/
  memory : Memory
  /-- The stacks that there were, the last one first. -/
  history : List (List Goal)

namespace Descent

/-- Nothing is under way, and nothing is remembered. -/
def start : Descent := ⟨[], .empty, [[]]⟩

/-- Put a goal on the stack. -/
def enter (d : Descent) (g : Goal) : Descent :=
  { d with stack := d.stack ++ [g], history := (d.stack ++ [g]) :: d.history }

/-- Take the last goal off the stack. -/
def leave (d : Descent) : Descent :=
  { d with stack := d.stack.dropLast, history := d.stack.dropLast :: d.history }

/-- The bindings of a goal: the remembered ones, or else those that `compute` finds, which are
remembered under the same conditions as along a trail. -/
def remember (goal : Goal) (compute : Descent → Option (Option Bindings × Descent)) (d : Descent) :
    Option (Option Bindings × Descent) :=
  match d.memory.decided.find? goal with
  | some b => some (some b, d)
  | none =>
    (compute { d with memory := { d.memory with assumed? := none } }).map fun (b?, after) =>
      let r := d.memory.remember goal d.stack.length fun _ => (b?, after.memory)
      (r.1, { after with memory := r.2 })

/-- The first of the candidates that is bound in full, or else the best of them. -/
def bestOf (bindStar : Star → Descent → Option (Bindings × Descent)) :
    List Star → Option Bindings → Descent → Option (Option Bindings × Descent)
  | [], best?, d => some (best?, d)
  | s :: rest, best?, d =>
    (bindStar s d).bind fun (b, d) =>
      if b.full then some (some b, d) else bestOf bindStar rest (some (Bindings.better best? b)) d

/-- One ray of a star, where `bindNext` matches stars one level further down. -/
def followRay (scene : Scene) (bindNext : Shape → Star → Descent → Option (Bindings × Descent))
    (shape : Shape) (p : Bindings × Descent) (ray : Ray) : Option (Bindings × Descent) :=
  match shape.demand ray with
  | .settled binds => some (p.1.settle shape ray binds, p.2)
  | .conform target link =>
    match scene.shapes.get? target with
    | none => some ((p.1.recordMissing ray target).take shape ray, p.2)
    | some next =>
      match p.2.stack.idxOf? ⟨target, link⟩ with
      | some place => some (p.1.take shape ray, { p.2 with memory := p.2.memory.assume place })
      | none =>
        (p.2.remember ⟨next.name, link⟩
          (bestOf (bindNext next) (scene.query.candidates link) none)).map fun
            | (some n, d) => ((p.1.recordNested ray target link n).settle shape ray n.full, d)
            | (none, d) => (p.1.take shape ray, d)

/-- A star against a shape. Nothing comes back if calls are nested more than `fuel` deep. -/
def bindStar (scene : Scene) : Nat → Shape → Star → Descent → Option (Bindings × Descent)
  | 0, _, _, _ => none
  | fuel + 1, shape, star, d =>
    if shape.closed then
      (star.rays.toList.foldlM (followRay scene (bindStar scene fuel) shape)
        (.start shape star.name, d.enter ⟨shape.name, star.name⟩)).map fun (b, d) =>
          (b.finish star, d.leave)
    else some (.ofOpen shape star, d)

/-- The stars of a name against a shape. -/
def bind (scene : Scene) (fuel : Nat) (shape : Shape) (name : String) (d : Descent) :
    Option (Option Bindings × Descent) :=
  d.remember ⟨shape.name, name⟩
    (bestOf (bindStar scene fuel shape) (scene.query.candidates name) none)

/-- A sequence of calls: each answer, and the state in which the call leaves things. -/
def bindAll (scene : Scene) (fuel : Nat) :
    List Task → Descent → Option (List (Option Bindings × Descent))
  | [], _ => some []
  | t :: rest, d =>
    (bind scene fuel t.shape t.star d).bind fun r =>
      (bindAll scene fuel rest r.2).map (r :: ·)

/-! ### What a descent keeps to -/

/-- On none of the stacks that there were does a goal occur twice, and none is longer than there
are loaded shapes and stars to make goals of, but for the first goal. -/
def Bounded (scene : Scene) (d : Descent) : Prop :=
  ∀ s ∈ d.history, s.Nodup ∧ s.length ≤ 1 + scene.shapes.size * scene.query.names.length

variable {scene : Scene} {d : Descent} {stack : List Goal} {shape : Shape}

/-- A goal of the scene is made of a loaded shape and a star. -/
lemma length_goals (scene : Scene) :
    scene.goals.length = scene.shapes.size * scene.query.names.length := by
  simp [Scene.goals, Keyed.keys, Keyed.size, List.length_flatMap, Function.comp_def]

lemma bounded_start : start.Bounded scene := by
  intro s hs
  rw [List.mem_singleton.mp hs]
  exact ⟨List.nodup_nil, Nat.zero_le _⟩

/-- The goals of a trail make a stack that keeps to the bounds. -/
lemma Bounded.push (h : d.Bounded scene) (trail : Trail scene) {s : List Goal}
    (hs : s.Sublist trail.goals) {d' : Descent} (hd' : d'.history = s :: d.history) :
    d'.Bounded scene := by
  intro s' hs'
  rcases List.mem_cons.mp (hd' ▸ hs') with rfl | hs'
  · exact ⟨trail.nodup.sublist hs, hs.length_le.trans (length_goals scene ▸ trail.length_le)⟩
  · exact h s' hs'

/-- From a stack, and with a memory that bears the right names, a descent comes back to the stack
with what a computation on the memory alone comes to, and keeps to the bounds on the way. -/
def Imitates {α : Type} (scene : Scene) (stack : List Goal) (run : Descent → Option (α × Descent))
    (f : Memory → α × Memory) : Prop :=
  ∀ d, d.stack = stack → d.memory.Labelled scene → d.Bounded scene →
    ∃ d', run d = some ((f d.memory).1, d') ∧ d'.memory = (f d.memory).2 ∧ d'.stack = stack ∧
      d'.Bounded scene

/-- Several candidates. -/
lemma imitates_bestOf {run : Star → Descent → Option (Bindings × Descent)}
    {f : Star → Memory → Bindings × Memory} {stars : List Star}
    (hrun : ∀ s ∈ stars, Imitates scene stack (run s) (f s))
    (hf : ∀ s ∈ stars, ∀ m, m.Labelled scene → (f s m).2.Labelled scene)
    (best? : Option Bindings) :
    Imitates scene stack (bestOf run stars best?) (StarShapes.bestOf f stars best?) := by
  induction stars generalizing best? with
  | nil => exact fun d hstack _ hbounded => ⟨d, rfl, rfl, hstack, hbounded⟩
  | cons s stars ih =>
      intro d hstack hlabelled hbounded
      obtain ⟨d', hd', hmemory, hstack', hbounded'⟩ :=
        hrun s List.mem_cons_self d hstack hlabelled hbounded
      rw [bestOf, StarShapes.bestOf, hd', Option.bind_some]
      dsimp only
      split
      · exact ⟨d', rfl, hmemory, hstack', hbounded'⟩
      · have hlabelled' : d'.memory.Labelled scene :=
          hmemory ▸ hf s List.mem_cons_self d.memory hlabelled
        rw [← hmemory]
        exact ih (fun s' hs' => hrun s' (List.mem_cons_of_mem _ hs'))
          (fun s' hs' => hf s' (List.mem_cons_of_mem _ hs')) _ d' hstack' hlabelled' hbounded'

/-- A look into the memory. -/
lemma imitates_remember {run : Descent → Option (Option Bindings × Descent)}
    {f : Memory → Option Bindings × Memory} (hrun : Imitates scene stack run f) (goal : Goal)
    {depth : Nat} (hdepth : depth = stack.length) :
    Imitates scene stack (remember goal run) (Memory.remember goal depth f) := by
  intro d hstack hlabelled hbounded
  cases hd : d.memory.decided.find? goal with
  | some b =>
      rw [remember, hd, Memory.remember, hd]
      exact ⟨d, rfl, rfl, hstack, hbounded⟩
  | none =>
      obtain ⟨d', hd', hmemory, hstack', hbounded'⟩ :=
        hrun { d with memory := { d.memory with assumed? := none } } hstack hlabelled hbounded
      have hsame : Memory.remember goal depth f d.memory = d.memory.remember goal d.stack.length
          fun _ => f { d.memory with assumed? := none } := by
        rw [Memory.remember, Memory.remember, hd, hdepth, hstack]
      rw [remember, hd, hsame]
      dsimp only
      rw [hd', Option.map_some, hmemory]
      exact ⟨_, rfl, rfl, hstack', hbounded'⟩

/-- A goal whose star is not in the query leaves everything as it is. -/
lemma remember_of_notMem (hlabelled : d.memory.Labelled scene) {target link : String}
    (hl : link ∉ scene.query.names) (run : Star → Descent → Option (Bindings × Descent)) :
    d.remember ⟨target, link⟩ (bestOf run (scene.query.candidates link) none) =
      some (none, d) := by
  have hnothing : d.memory.decided.find? ⟨target, link⟩ = none :=
    Option.eq_none_iff_forall_ne_some.mpr fun b hb => hl (hlabelled _ _ hb).2.2
  have hcandidates : scene.query.candidates link = [] := by
    by_contra hne
    exact hl (Query.candidates_ne_nil_iff.mp hne)
  have hmemory : d.memory.remember ⟨target, link⟩ d.stack.length
      (fun _ => (none, { d.memory with assumed? := none })) = (none, d.memory) := by
    rw [Memory.remember, hnothing]
    cases d.memory with
    | mk decided assumed? => cases assumed? <;> rfl
  rw [remember, hnothing, hcandidates]
  dsimp only [bestOf, Option.map_some]
  rw [hmemory]

/-! ### Imitation of a match along a trail -/

/-- One ray, if stars further along the trail are imitated. -/
lemma imitates_followRay {trail : Trail scene}
    {bindNext : Shape → Star → Descent → Option (Bindings × Descent)}
    (hnext : ∀ (further : Trail scene) (next : Shape) (s : Star),
      further.room < trail.room → further.goals = trail.goals ++ [⟨next.name, s.name⟩] →
        Imitates scene trail.goals (bindNext next s) (scene.bindStar further next s))
    (b : Bindings) (ray : Ray) :
    Imitates scene trail.goals (fun d => followRay scene bindNext shape (b, d) ray)
      (fun m => scene.followRay trail shape (b, m) ray) := by
  intro d hstack hlabelled hbounded
  dsimp only
  generalize hq : scene.followRay trail shape (b, d.memory) ray = q
  rw [Scene.followRay] at hq
  split at hq
  · rename_i binds hd
    subst hq
    exact ⟨d, by rw [followRay, hd], rfl, hstack, hbounded⟩
  · rename_i target link hd
    split at hq
    · rename_i hs
      subst hq
      exact ⟨d, by rw [followRay, hd]; simp only [hs], rfl, hstack, hbounded⟩
    · rename_i next hs
      have hname : next.name = target := Keyed.key_of_get? hs
      have hplaces : d.stack.idxOf? ⟨target, link⟩ = trail.position? ⟨target, link⟩ := by
        rw [hstack, Trail.position?]
      split at hq
      · rename_i place hplace
        subst hq
        refine ⟨{ d with memory := d.memory.assume place }, ?_, rfl, hstack, hbounded⟩
        rw [followRay, hd]
        simp only [hs, hplaces, hplace]
      · rename_i hplace
        -- the machine asks the memory for any name, known to the query or not
        have hmachine : followRay scene bindNext shape (b, d) ray =
            (d.remember ⟨target, link⟩ (bestOf (bindNext next) (scene.query.candidates link)
              none)).map fun
                | (some n, d) => ((b.recordNested ray target link n).settle shape ray n.full, d)
                | (none, d) => (b.take shape ray, d) := by
          rw [followRay, hd]
          simp only [hs, hplaces, hplace, hname]
        rw [hmachine]
        split at hq
        · rename_i hl
          subst hq
          dsimp only
          have hstars : Imitates scene trail.goals
              (bestOf (bindNext next) (scene.query.candidates link) none)
              (StarShapes.bestOf (fun s m => scene.bindStar (trail.push ⟨target, link⟩
                (Scene.mem_goals_of_get? hs hl) (Scene.notMem_of_position? hplace)) next s m)
                (scene.query.candidates link) none) := by
            refine imitates_bestOf (fun s hmem => hnext _ next s (trail.room_push_lt _ _ _) ?_)
              (fun s _ m hm => (Scene.keeps_bindStar _ next s m hm).2.1) none
            rw [hname, Query.name_of_mem_candidates hmem]
            rfl
          obtain ⟨d', hd', hmemory, hstack', hbounded'⟩ :=
            imitates_remember hstars ⟨target, link⟩ (rfl : trail.length = _) d hstack hlabelled
              hbounded
          rw [hd', Option.map_some]
          generalize Memory.remember _ _ _ d.memory = r at hmemory ⊢
          obtain ⟨n?, m⟩ := r
          cases n? <;> exact ⟨d', rfl, hmemory, hstack', hbounded'⟩
        · rename_i hl
          subst hq
          rw [remember_of_notMem hlabelled hl]
          exact ⟨d, rfl, rfl, hstack, hbounded⟩

/-- The rays of a star in turn. -/
lemma imitates_foldlM {trail : Trail scene}
    {bindNext : Shape → Star → Descent → Option (Bindings × Descent)}
    (hnext : ∀ (further : Trail scene) (next : Shape) (s : Star),
      further.room < trail.room → further.goals = trail.goals ++ [⟨next.name, s.name⟩] →
        Imitates scene trail.goals (bindNext next s) (scene.bindStar further next s))
    (hc : shape.closed = true) (rays : List Ray) (b : Bindings) :
    Imitates scene trail.goals (fun d => rays.foldlM (followRay scene bindNext shape) (b, d))
      (fun m => rays.foldl (scene.followRay trail shape) (b, m)) := by
  induction rays generalizing b with
  | nil => exact fun d hstack _ hbounded => ⟨d, rfl, rfl, hstack, hbounded⟩
  | cons ray rays ih =>
      intro d hstack hlabelled hbounded
      obtain ⟨d', hd', hmemory, hstack', hbounded'⟩ :=
        imitates_followRay hnext b ray d hstack hlabelled hbounded
      have hlabelled' : d'.memory.Labelled scene :=
        hmemory ▸ Scene.labelled_followRay trail hc ray b hlabelled
      obtain ⟨d'', hd'', hmemory', hrest⟩ :=
        ih (scene.followRay trail shape (b, d.memory) ray).1 d' hstack' hlabelled' hbounded'
      rw [hmemory] at hd'' hmemory'
      dsimp only at hd' hd'' ⊢
      refine ⟨d'', ?_, hmemory', hrest⟩
      rw [List.foldlM_cons, hd', List.foldl_cons]
      exact hd''

/-- With fuel for each time that the trail can be prolonged, matching a star along it is
imitated from the stack of the goals before. -/
theorem imitates_bindStar {fuel : Nat} {trail : Trail scene} {shape : Shape} {star : Star}
    (hfuel : trail.room < fuel) (htrail : trail.goals = stack ++ [⟨shape.name, star.name⟩]) :
    Imitates scene stack (bindStar scene fuel shape star) (scene.bindStar trail shape star) := by
  induction fuel generalizing stack trail shape star with
  | zero => exact absurd hfuel (Nat.not_lt_zero _)
  | succ fuel ih =>
      intro d hstack hlabelled hbounded
      rw [bindStar]
      cases hc : shape.closed with
      | false =>
          rw [Scene.bindStar_of_open trail hc]
          exact ⟨d, rfl, rfl, hstack, hbounded⟩
      | true =>
          have hgoals : (d.enter ⟨shape.name, star.name⟩).stack = trail.goals := by
            rw [enter, hstack, htrail]
          have hentered : (d.enter ⟨shape.name, star.name⟩).Bounded scene :=
            hbounded.push trail (hgoals ▸ .refl _) rfl
          have hrays : Imitates scene trail.goals
              (fun d => star.rays.toList.foldlM (followRay scene (bindStar scene fuel) shape)
                (.start shape star.name, d))
              (fun m => star.rays.toList.foldl (scene.followRay trail shape)
                (.start shape star.name, m)) :=
            imitates_foldlM (fun further next s hlt hfurther =>
              ih (Nat.lt_of_lt_of_le hlt (Nat.le_of_lt_succ hfuel)) hfurther) hc _ _
          obtain ⟨d', hd', hmemory, hstack', hbounded'⟩ := hrays _ hgoals hlabelled hentered
          dsimp only at hd'
          have hleft : d'.stack.dropLast = stack := by
            rw [hstack', htrail, List.dropLast_concat]
          rw [if_pos rfl, hd', Scene.bindStar_of_closed trail hc]
          refine ⟨d'.leave, rfl, hmemory, hleft, hbounded'.push trail ?_ rfl⟩
          rw [hleft, htrail]
          exact List.sublist_append_left _ _

/-! ### Calls from outside -/

/-- A trail of one goal can be prolonged once for each goal of the scene. -/
lemma room_start (g : Goal) :
    (Trail.start g : Trail scene).room = scene.shapes.size * scene.query.names.length := by
  rw [Trail.room, length_goals, Trail.length, Trail.start, List.length_singleton,
    Nat.add_sub_cancel_left]

section

variable {fuel : Nat} (hfuel : scene.shapes.size * scene.query.names.length < fuel)

include hfuel

/-- A star against a shape as the first goal. -/
lemma imitates_bindFirst (shape : Shape) (star : Star) :
    Imitates scene [] (bindStar scene fuel shape star) (scene.bindFirst shape star) :=
  imitates_bindStar ((room_start _).trans_lt hfuel) rfl

/-- Several candidates against a shape as first goals. -/
lemma imitates_bestOf_bindFirst (shape : Shape) (candidates : List Star) :
    Imitates scene [] (bestOf (bindStar scene fuel shape) candidates none)
      (StarShapes.bestOf (scene.bindFirst shape) candidates none) :=
  imitates_bestOf (fun s _ => imitates_bindFirst hfuel shape s)
    (fun s _ m hm => (Scene.keeps_bindStar _ shape s m hm).2.1) none

/-- The stars of a name against a shape. -/
lemma imitates_bind (shape : Shape) (name : String) :
    Imitates scene [] (bind scene fuel shape name) (fun m => m.bind scene shape name) :=
  imitates_remember (imitates_bestOf_bindFirst hfuel shape _) ⟨shape.name, name⟩ rfl

/-- A sequence of calls is answered, and each of them leaves nothing behind but memories. -/
lemma exists_bindAll (calls : List Task) (hstack : d.stack = [])
    (hlabelled : d.memory.Labelled scene) (hbounded : d.Bounded scene) :
    ∃ runs, bindAll scene fuel calls d = some runs ∧
      runs.map Prod.fst = (d.memory.bindAll scene calls).1 ∧
      ∀ r ∈ runs, r.2.stack = [] ∧ r.2.memory.assumed? = d.memory.assumed? ∧
        r.2.Bounded scene := by
  induction calls generalizing d with
  | nil => exact ⟨[], rfl, rfl, by simp⟩
  | cons t calls ih =>
      obtain ⟨d', hd', hmemory, hstack', hbounded'⟩ :=
        imitates_bind hfuel t.shape t.star d hstack hlabelled hbounded
      have hassumed : d'.memory.assumed? = d.memory.assumed? :=
        hmemory ▸ Memory.assumed?_bind scene t.shape t.star d.memory
      have hlabelled' : d'.memory.Labelled scene :=
        hmemory ▸ (Scene.keeps_bind t.shape t.star hlabelled).2.1
      obtain ⟨runs, hruns, hanswers, hleft⟩ := ih hstack' hlabelled' hbounded'
      refine ⟨_ :: runs, by rw [bindAll, hd', Option.bind_some, hruns]; rfl, ?_, ?_⟩
      · rw [Memory.bindAll, List.map_cons, hanswers, hmemory]
      · intro r hr
        rcases List.mem_cons.mp hr with rfl | hr
        · exact ⟨hstack', hassumed, hbounded'⟩
        · exact hassumed ▸ hleft r hr

end

/-- **Matching comes to an end**, however shapes and stars ask for each other. With fuel for each
loaded shape and star, a star against a shape, several candidates and every sequence of calls on
one memory come back with what matching along trails finds. At no moment a goal is on the stack
twice, so at most one goal more than can be made of a loaded shape and a star is there; after each
call the stack is empty and nothing is assumed. Calls for the same goal get the same answer. -/
theorem descends (scene : Scene) {fuel : Nat}
    (hfuel : scene.shapes.size * scene.query.names.length < fuel) :
    (∀ shape star, ∃ d, bindStar scene fuel shape star start =
        some (scene.bindings shape star, d) ∧ d.stack = [] ∧ d.Bounded scene) ∧
      (∀ shape candidates, ∃ d, bestOf (bindStar scene fuel shape) candidates none start =
        some (scene.bestBindings shape candidates, d) ∧ d.stack = [] ∧ d.Bounded scene) ∧
      ∀ calls, ∃ runs, bindAll scene fuel calls start = some runs ∧
        runs.map Prod.fst = (Memory.bindAll scene calls .empty).1 ∧
        (∀ r ∈ runs, r.2.stack = [] ∧ r.2.memory.assumed? = none ∧ r.2.Bounded scene) ∧
        ∃ answer : Goal → Option Bindings,
          runs.map Prod.fst = calls.map fun t => answer t.goal := by
  have hlabelled : start.memory.Labelled scene := Memory.labelled_empty
  refine ⟨fun shape star => ?_, fun shape candidates => ?_, fun calls => ?_⟩
  · obtain ⟨d, hd, -, hstack, hbounded⟩ :=
      imitates_bindFirst hfuel shape star start rfl hlabelled bounded_start
    exact ⟨d, hd, hstack, hbounded⟩
  · obtain ⟨d, hd, -, hstack, hbounded⟩ :=
      imitates_bestOf_bindFirst hfuel shape candidates start rfl hlabelled bounded_start
    exact ⟨d, hd, hstack, hbounded⟩
  · obtain ⟨runs, hruns, hanswers, hleft⟩ :=
      exists_bindAll hfuel calls rfl hlabelled bounded_start
    exact ⟨runs, hruns, hanswers, hleft, _,
      hanswers.trans (Memory.bindAll_eq_map calls hlabelled)⟩

/-- Calls on the circle, each made twice, come back. -/
theorem circle_descends :
    Scene.circle.shapes.size * Scene.circle.query.names.length < 7 ∧
      ∃ runs, bindAll Scene.circle 7 (Scene.circleCalls ++ Scene.circleCalls) start = some runs ∧
        runs.map (fun r => r.1.map Bindings.full) =
          [some true, some true, some false, none, some true, some true, some false, none] ∧
        ∀ r ∈ runs, r.2.stack = [] ∧ r.2.memory.assumed? = none ∧ r.2.Bounded Scene.circle := by
  have hfuel : Scene.circle.shapes.size * Scene.circle.query.names.length < 7 := by
    decide +kernel
  obtain ⟨-, -, hcalls⟩ := descends Scene.circle hfuel
  obtain ⟨runs, hruns, hanswers, hleft, -⟩ := hcalls (Scene.circleCalls ++ Scene.circleCalls)
  have hfull : (Memory.bindAll Scene.circle (Scene.circleCalls ++ Scene.circleCalls)
      .empty).1.map (Option.map Bindings.full) =
        [some true, some true, some false, none, some true, some true, some false, none] := by
    decide +kernel
  rw [← hanswers, List.map_map] at hfull
  exact ⟨hfuel, runs, hruns, hfull, hleft⟩

end Descent

end StarShapes
