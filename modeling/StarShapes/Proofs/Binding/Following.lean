import Mathlib.Data.List.Basic
import Mathlib.Data.List.Nodup
import StarShapes.Proofs.Binding.Tally

/-!
Following: what becomes of the rays of a star, and of the memory on the way.

* `Memory.Grows`: what was remembered stays, and so does what was assumed.
* `Scene.followRay`: one ray of a star, and so one step of matching (`bindStar_of_closed`).
* `Scene.Followed`: all that one step can do. The ray is not left to another task, or this one is
  assumed, or it is looked up or matched further along the trail.
* `exists_followed`: a step counts in the tally with the reply that it came to.
* `exists_reply_bindStar`: so do the steps of a star together. What each of them does to the memory
  adds up.
-/

namespace StarShapes

/-! ### How the memory grows -/

namespace Memory

variable {m m' m'' : Memory}

/-- What was remembered stays, and what was assumed stays assumed. -/
structure Grows (m m' : Memory) : Prop where
  /-- Decided goals keep their bindings. -/
  kept : ∀ g b, m.decided.find? g = some b → m'.decided.find? g = some b
  /-- The first place assumed does not move back. -/
  assumed : ∀ l, m.assumed? = some l → ∃ l' ≤ l, m'.assumed? = some l'

lemma Grows.refl (m : Memory) : m.Grows m := ⟨fun _ _ h => h, fun l h => ⟨l, le_rfl, h⟩⟩

lemma Grows.trans (h : m.Grows m') (h' : m'.Grows m'') : m.Grows m'' := by
  refine ⟨fun g b hb => h'.kept g b (h.kept g b hb), fun l hl => ?_⟩
  obtain ⟨l', hl', h1⟩ := h.assumed l hl
  obtain ⟨l'', hl'', h2⟩ := h'.assumed l' h1
  exact ⟨l'', hl''.trans hl', h2⟩

lemma lower_eq_some {a? b? : Option Nat} {l : Nat} (h : a? = some l ∨ b? = some l) :
    ∃ l' ≤ l, lower a? b? = some l' := by
  rcases h with rfl | rfl
  · cases b? with
    | none => exact ⟨l, le_rfl, rfl⟩
    | some b => exact ⟨min l b, Nat.min_le_left l b, rfl⟩
  · cases a? with
    | none => exact ⟨l, le_rfl, rfl⟩
    | some a => exact ⟨min a l, Nat.min_le_right a l, rfl⟩

lemma grows_assume (m : Memory) (place : Nat) : m.Grows (m.assume place) :=
  ⟨fun _ _ h => h, fun _ h => lower_eq_some (Or.inl h)⟩

/-- A goal that is not remembered is computed. What is found is written down at
most if no place before `depth` was assumed, and a place before is passed on. -/
lemma remember_of_find?_eq_none {goal : Goal} (hd : m.decided.find? goal = none) (depth : Nat)
    {compute : Memory → Option Bindings × Memory} {p : Option Bindings × Memory}
    (hp : compute { m with assumed? := none } = p) :
    (m.remember goal depth compute).1 = p.1 ∧
      (m.remember goal depth compute).2.assumed? =
        lower m.assumed? (p.2.assumed?.filter (· < depth)) ∧
      ((m.remember goal depth compute).2.decided = p.2.decided ∨
        p.2.assumed?.filter (· < depth) = none ∧ ∃ b, p.1 = some b ∧
          (m.remember goal depth compute).2.decided = p.2.decided.set goal b) := by
  rw [remember, hd]
  dsimp only
  rw [hp]
  refine ⟨rfl, rfl, ?_⟩
  cases hopen : p.2.assumed?.filter (· < depth) with
  | some l => exact Or.inl rfl
  | none =>
      cases hb : p.1 with
      | none => exact Or.inl rfl
      | some b => exact Or.inr ⟨rfl, b, rfl, rfl⟩

/-- A look into the memory lets it grow if the computation of a goal that is not
remembered does. -/
lemma grows_remember {goal : Goal} (hd : m.decided.find? goal = none) (depth : Nat)
    {compute : Memory → Option Bindings × Memory} {p : Option Bindings × Memory}
    (hp : compute { m with assumed? := none } = p)
    (hgrows : ({ m with assumed? := none } : Memory).Grows p.2) :
    m.Grows (m.remember goal depth compute).2 := by
  obtain ⟨-, hassumed, hdecided⟩ := remember_of_find?_eq_none hd depth hp
  refine ⟨fun g b hb => ?_, fun l hl => ?_⟩
  · have hkept : p.2.decided.find? g = some b := hgrows.kept g b hb
    rcases hdecided with hsame | ⟨-, c, -, hset⟩
    · rw [hsame]
      exact hkept
    · rw [hset, Dict.find?_set, if_neg, hkept]
      rintro rfl
      rw [hd] at hb
      cases hb
  · rw [hassumed]
    exact lower_eq_some (Or.inl hl)

end Memory

namespace Scene

variable {scene : Scene} {trail : Trail scene} {shape : Shape} {ray : Ray} {m m' : Memory}

/-! ### One ray -/

/-- A star of the query and a loaded shape make a goal of the scene. -/
lemma mem_goals_of_get? {target link : String} {next : Shape}
    (hs : scene.shapes.get? target = some next) (hl : link ∈ scene.query.names) :
    ⟨target, link⟩ ∈ scene.goals :=
  mem_goals.mpr ⟨Keyed.mem_keys_of_get? hs, hl⟩

/-- A goal without place on the trail is new to it. -/
lemma notMem_of_position? {target link : String}
    (hp : trail.position? ⟨target, link⟩ = none) : ⟨target, link⟩ ∉ trail.goals :=
  Trail.position?_eq_none_iff.mp hp

/-- One ray of a star: the shape decides on it, or it is left to another task,
which is assumed if it is on the trail. -/
def followRay (scene : Scene) (trail : Trail scene) (shape : Shape) (p : Bindings × Memory)
    (ray : Ray) : Bindings × Memory :=
  match shape.demand ray with
  | .settled binds => (p.1.settle shape ray binds, p.2)
  | .conform target link =>
    match hs : scene.shapes.get? target with
    | none => ((p.1.recordMissing ray target).take shape ray, p.2)
    | some next =>
      match hp : trail.position? ⟨target, link⟩ with
      | some place => (p.1.take shape ray, p.2.assume place)
      | none =>
        if hl : link ∈ scene.query.names then
          let further := trail.push ⟨target, link⟩ (mem_goals_of_get? hs hl)
            (notMem_of_position? hp)
          let r := p.2.remember ⟨target, link⟩ trail.length
            (bestOf (fun s m => bindStar scene further next s m) (scene.query.candidates link) none)
          match r.1 with
          | some n => ((p.1.recordNested ray target link n).settle shape ray n.full, r.2)
          | none => (p.1.take shape ray, r.2)
        else (p.1.take shape ray, p.2)

/-- A closed shape follows the rays of a star in turn. -/
lemma bindStar_of_closed (trail : Trail scene) {shape : Shape} (hc : shape.closed = true)
    (star : Star) (m : Memory) : scene.bindStar trail shape star m =
      let p := star.rays.toList.foldl (scene.followRay trail shape) (.start shape star.name, m)
      (p.1.finish star, p.2) := by
  rw [bindStar, if_pos hc]
  rfl

/-- An open shape looks at no ray. -/
lemma bindStar_of_open (trail : Trail scene) {shape : Shape} (hc : shape.closed = false)
    (star : Star) (m : Memory) :
    scene.bindStar trail shape star m = (.ofOpen shape star, m) := by
  rw [bindStar, hc]
  rfl

/-- What becomes of a ray that a closed shape follows: the reply that it comes to, and the memory
afterwards. -/
inductive Followed (scene : Scene) (trail : Trail scene) (shape : Shape) (m : Memory) (ray : Ray) :
    Option Bindings → Memory → Prop
  /-- The ray is not left to another task. -/
  | settled (hnone : scene.next? shape ray = none) : Followed scene trail shape m ray none m
  /-- The task is assumed, as its goal is on the trail. -/
  | assumed (place : Nat)
      (hplace : ∀ u, scene.next? shape ray = some u → trail.position? u.goal = some place) :
      Followed scene trail shape m ray none (m.assume place)
  /-- The task is looked up, or matched with its goal at the end of the trail. -/
  | nested (u : Task) (further : Trail scene) (hu : scene.next? shape ray = some u)
      (hnew : u.goal ∉ trail.goals) (hgoals : further.goals = trail.goals ++ [u.goal])
      (hroom : further.room < trail.room) {r : Option Bindings × Memory}
      (hr : m.remember u.goal trail.length
        (bestOf (scene.bindStar further u.shape) (scene.query.candidates u.star) none) = r) :
      Followed scene trail shape m ray r.1 r.2

/-- A ray that is left to a loaded shape leads to the task of that shape, if to
any. -/
lemma next?_unique {next : Shape} {target link : String}
    (hd : shape.demand ray = .conform target link) (hs : scene.shapes.get? target = some next)
    {u : Task} (hu : scene.next? shape ray = some u) : u = ⟨next, link⟩ := by
  obtain ⟨-, hd', hs', -⟩ := next?_eq_some_iff.mp hu
  obtain ⟨hn, hl⟩ := Demand.conform.inj (hd.symm.trans hd')
  rw [← hn, hs] at hs'
  exact Task.ext (Option.some.inj hs').symm hl.symm

/-- A ray that is left to a loaded shape and taken unseen counts as bound. -/
lemma take_eq_tallyRay {next : Shape} (hc : shape.closed = true) {target link : String}
    (hd : shape.demand ray = .conform target link)
    (hs : scene.shapes.get? target = some next) (b : Bindings) :
    b.take shape ray = scene.tallyRay shape (fun _ => none) b ray := by
  refine (tallyRay_of_unheard hd ?_ ?_ b).symm
  · rw [missing?, hc, hd]
    simp [hs]
  · rw [heard]
    cases scene.next? shape ray <;> rfl

/-- A step counts in the tally with the reply that it comes to. -/
lemma exists_followed (trail : Trail scene) (hc : shape.closed = true) (ray : Ray) (b : Bindings)
    (m : Memory) : ∃ reply? m', scene.Followed trail shape m ray reply? m' ∧
      scene.followRay trail shape (b, m) ray =
        (scene.tallyRay shape (fun _ => reply?) b ray, m') := by
  rw [followRay]
  split
  · rename_i binds hd
    have hnone : scene.next? shape ray = none := by rw [next?, hc, hd]
    exact ⟨none, m, .settled hnone, by rw [tallyRay_of_settled hc hd]⟩
  · rename_i target link hd
    split
    · rename_i hs
      have hmissing := missing?_eq_some_iff.mpr ⟨hc, ⟨link, hd⟩, hs⟩
      refine ⟨none, m, .settled ?_, by rw [tallyRay_of_missing? hmissing]⟩
      refine Option.eq_none_iff_forall_ne_some.mpr fun u hu => ?_
      rw [missing?_of_next? hu] at hmissing
      cases hmissing
    · rename_i next hs
      have hname : next.name = target := Keyed.key_of_get? hs
      subst hname
      split
      · rename_i place hplace
        refine ⟨none, m.assume place, .assumed place fun u hu => ?_, ?_⟩
        · rw [next?_unique hd hs hu]
          exact hplace
        · rw [take_eq_tallyRay hc hd hs]
      · rename_i hplace
        split
        · rename_i hl
          have hu : scene.next? shape ray = some ⟨next, link⟩ :=
            next?_eq_some_iff.mpr ⟨hc, hd, hs, hl⟩
          dsimp only
          generalize hr : Memory.remember _ _ _ m = r
          refine ⟨r.1, r.2, .nested ⟨next, link⟩ _ hu (notMem_of_position? hplace) rfl
            (trail.room_push_lt _ _ _) hr, ?_⟩
          cases hn : r.1 with
          | some n => rw [tallyRay_of_heard hu rfl]
          | none => rw [take_eq_tallyRay hc hd hs]
        · rename_i hl
          refine ⟨none, m, .settled ?_, by rw [take_eq_tallyRay hc hd hs]⟩
          refine Option.eq_none_iff_forall_ne_some.mpr fun u hu => ?_
          rw [next?_unique hd hs hu] at hu
          exact hl (next?_eq_some_iff.mp hu).2.2.2

/-! ### All rays -/

/-- The steps of a closed shape add up to a tally. A property `P` of the memory that all of them
preserve holds afterwards, and a property `Q` of the replies if the growth of the memory does not
undo it. -/
lemma exists_reply_foldl (hc : shape.closed = true)
    (hgrows : ∀ ray m reply? m', scene.Followed trail shape m ray reply? m' → m.Grows m')
    {P : Memory → Prop} {Q : Memory → Ray → Option Bindings → Prop}
    (hQ : ∀ m m' ray reply?, m.Grows m' → Q m ray reply? → Q m' ray reply?) (rays : List Ray)
    (hnodup : rays.Nodup)
    (hstep : ∀ ray ∈ rays, ∀ m reply? m', P m → scene.Followed trail shape m ray reply? m' →
      P m' ∧ Q m' ray reply?) (b : Bindings) (hm : P m) {p : Bindings × Memory}
    (hp : rays.foldl (scene.followRay trail shape) (b, m) = p) :
    P p.2 ∧ m.Grows p.2 ∧ ∃ reply : Ray → Option Bindings,
      p.1 = rays.foldl (scene.tallyRay shape reply) b ∧ ∀ ray ∈ rays, Q p.2 ray (reply ray) := by
  induction rays generalizing b m with
  | nil =>
      subst hp
      exact ⟨hm, .refl m, fun _ => none, rfl, by simp⟩
  | cons ray rays ih =>
      obtain ⟨reply?, m', hfollowed, hray⟩ := exists_followed trail hc ray b m
      obtain ⟨hP, hreply⟩ := hstep ray List.mem_cons_self m reply? m' hm hfollowed
      obtain ⟨hnotMem, hnodup⟩ := List.nodup_cons.mp hnodup
      rw [List.foldl_cons, hray] at hp
      obtain ⟨hP', hgrows', reply, hout, hrest⟩ := ih hnodup
        (fun r hr => hstep r (List.mem_cons_of_mem _ hr)) _ hP hp
      have hself : Function.update reply ray reply? ray = reply? := Function.update_self ..
      have hothers : ∀ r ∈ rays, Function.update reply ray reply? r = reply r := by
        intro r hr
        exact Function.update_of_ne (fun he : r = ray => hnotMem (he ▸ hr)) ..
      refine ⟨hP', (hgrows _ _ _ _ hfollowed).trans hgrows', Function.update reply ray reply?,
        ?_, ?_⟩
      · have hfirst : scene.tallyRay shape (fun _ => reply?) b ray =
            scene.tallyRay shape (Function.update reply ray reply?) b ray :=
          tallyRay_congr hself.symm b
        rw [hout, hfirst, List.foldl_cons]
        exact List.foldl_ext _ _ _ fun b r hr => (tallyRay_congr (hothers r hr) b).symm
      · intro r hr
        rcases List.mem_cons.mp hr with rfl | hr
        · rw [hself]
          exact hQ _ _ _ _ hgrows' hreply
        · rw [hothers r hr]
          exact hrest r hr

/-- Several candidates let the memory grow if each of them does. -/
lemma grows_bestOf {f : Star → Memory → Bindings × Memory} (hf : ∀ c m, Memory.Grows m (f c m).2)
    (stars : List Star) (best? : Option Bindings) (m : Memory) :
    m.Grows (bestOf f stars best? m).2 := by
  induction stars generalizing best? m with
  | nil => exact .refl m
  | cons c stars ih =>
      rw [bestOf]
      dsimp only
      split
      · exact hf c m
      · exact (hf c m).trans (ih _ _)

/-- One ray lets the memory grow if the stars further along the trail do. -/
lemma grows_of_followed (hfurther : ∀ further : Trail scene, further.room < trail.room →
      ∀ next c m, Memory.Grows m (scene.bindStar further next c m).2) {reply? : Option Bindings}
    (h : scene.Followed trail shape m ray reply? m') : m.Grows m' := by
  cases h with
  | settled hnone => exact .refl m
  | assumed place hplace => exact m.grows_assume place
  | @nested u further hu hnew hgoals hroom r hr =>
      subst hr
      cases hd : m.decided.find? u.goal with
      | some b =>
          rw [Memory.remember, hd]
          exact .refl m
      | none =>
          exact Memory.grows_remember hd trail.length rfl
            (grows_bestOf (hfurther further hroom u.shape) _ _ _)

/-- Matching a star lets the memory grow. -/
lemma grows_bindStar (trail : Trail scene) (shape : Shape) (star : Star) (m : Memory) :
    m.Grows (scene.bindStar trail shape star m).2 := by
  induction hroom : trail.room using Nat.strong_induction_on generalizing trail shape star m with
  | _ room ih =>
      cases hc : shape.closed with
      | false =>
          rw [bindStar_of_open trail hc]
          exact .refl m
      | true =>
          rw [bindStar_of_closed trail hc]
          have hgrows : ∀ ray m reply? m',
              scene.Followed trail shape m ray reply? m' → m.Grows m' := by
            intro ray m reply? m' hfollowed
            refine grows_of_followed (fun further hlt next c m => ?_) hfollowed
            exact ih further.room (hroom ▸ hlt) further next c m rfl
          have hnodup : star.rays.toList.Nodup := .of_map _ star.rays.nodup
          exact (exists_reply_foldl hc hgrows (P := fun _ => True) (Q := fun _ _ _ => True)
            (fun _ _ _ _ _ h => h) star.rays.toList hnodup
            (fun _ _ _ _ _ _ _ => ⟨trivial, trivial⟩) _ trivial rfl).2.1

/-- Matching a star comes to a tally, of which the steps give the replies. For an open shape there
is nothing to reply to. -/
lemma exists_reply_bindStar {P : Memory → Prop} {Q : Memory → Ray → Option Bindings → Prop}
    (hQ : ∀ m m' ray reply?, m.Grows m' → Q m ray reply? → Q m' ray reply?)
    (trail : Trail scene) (shape : Shape) (star : Star)
    (hstep : ∀ ray ∈ star.rays.toList, ∀ m reply? m', P m →
      scene.Followed trail shape m ray reply? m' → P m' ∧ Q m' ray reply?)
    (hm : P m) {p : Bindings × Memory} (hp : scene.bindStar trail shape star m = p) :
    P p.2 ∧ m.Grows p.2 ∧ ∃ reply : Ray → Option Bindings,
      p.1 = scene.tally shape reply star ∧ ∀ ray ∈ star.rays.toList, Q p.2 ray (reply ray) := by
  subst hp
  cases hc : shape.closed with
  | false =>
      rw [bindStar_of_open trail hc]
      refine ⟨hm, .refl m, fun _ => none, ?_, fun ray hray => ?_⟩
      · rw [tally, hc]
        rfl
      · exact (hstep ray hray m none m hm (.settled (next?_of_open hc ray))).2
  | true =>
      rw [bindStar_of_closed trail hc]
      have hgrows : ∀ ray m reply? m', scene.Followed trail shape m ray reply? m' → m.Grows m' :=
        fun _ _ _ _ => grows_of_followed fun further _ => grows_bindStar further
      have hnodup : star.rays.toList.Nodup := .of_map _ star.rays.nodup
      obtain ⟨hP, hgrows, reply, hout, hreplies⟩ :=
        exists_reply_foldl hc hgrows hQ star.rays.toList hnodup hstep _ hm rfl
      refine ⟨hP, hgrows, reply, ?_, hreplies⟩
      rw [tally, hc, ← hout]
      rfl

end Scene

end StarShapes
