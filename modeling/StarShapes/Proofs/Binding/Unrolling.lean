import Mathlib.Order.Filter.AtTopBot.Basic
import Mathlib.Order.Filter.Finite
import StarShapes.Proofs.Binding.Calls

/-!
Unrolling: matching with neither memory nor trail.

An unrolling follows every ray to its end, however often it has come to the same task before, and
takes nothing for granted. On a circle it would go on for ever, and so it is cut off at a depth.

* `Scene.unroll`: the candidates of a name against a shape; there is no result if this is cut off.
* `Scene.Acyclic`: a task leads to no circle. `acyclic_of_rank`: this is so if the links of the
  query all go downwards.
* `Finds.unroll_eq`: what can be found for such a task is what the unrolling comes to, if it is not
  cut off too early.
* `map_bindAll_eq_unroll`: and so are all answers to calls on one memory.
-/

namespace StarShapes

namespace Scene

/-- One ray of a star, where `answer` unrolls the tasks that rays are left to. -/
def unrollRay (scene : Scene) (answer : Shape → String → Option (Option Bindings)) (shape : Shape)
    (b : Bindings) (ray : Ray) : Option Bindings :=
  match shape.demand ray with
  | .settled binds => some (b.settle shape ray binds)
  | .conform target link =>
    match scene.shapes.get? target with
    | none => some ((b.recordMissing ray target).take shape ray)
    | some next => do
      match ← answer next link with
      | some n => some ((b.recordNested ray target link n).settle shape ray n.full)
      | none => some (b.take shape ray)

/-- A star against a shape. -/
def unrollStar (scene : Scene) (answer : Shape → String → Option (Option Bindings)) (shape : Shape)
    (star : Star) : Option Bindings :=
  if shape.closed then do
    let b ← star.rays.toList.foldlM (scene.unrollRay answer shape) (Bindings.start shape star.name)
    some (b.finish star)
  else some (.ofOpen shape star)

/-- The first of some candidates that is bound in full, or else the best of them. -/
def unrollStars (scene : Scene) (answer : Shape → String → Option (Option Bindings))
    (shape : Shape) : List Star → Option Bindings → Option (Option Bindings)
  | [], best? => some best?
  | s :: rest, best? => do
    let b ← scene.unrollStar answer shape s
    if b.full then some (some b)
    else unrollStars scene answer shape rest (some (Bindings.better best? b))

/-- The stars of a name against a shape, and all that this leads to, down to some depth; `some none`
if the query has no star of that name, and `none` if the depth is too small. -/
def unroll (scene : Scene) : Nat → Shape → String → Option (Option Bindings)
  | 0, _, _ => none
  | depth + 1, shape, name =>
    scene.unrollStars (unroll scene depth) shape (scene.query.candidates name) none

/-- No task that a task leads to, itself included, is on a circle. -/
def Acyclic (scene : Scene) (t : Task) : Prop :=
  ∀ u, Relation.ReflTransGen scene.Leads t u → ¬ Relation.TransGen scene.Leads u u

variable {scene : Scene} {roots A : Set Task} {t u : Task} {b : Bindings} {shape : Shape}
  {answer : Shape → String → Option (Option Bindings)}

/-! ### Tasks without circles -/

lemma Acyclic.of_leads (h : scene.Acyclic t) (hl : scene.Leads t u) : scene.Acyclic u :=
  fun v hv => h v (.head hl hv)

/-- A task leads neither to itself nor to one that leads to it. -/
lemma Acyclic.notMem_of_leads (h : scene.Acyclic t)
    (hA : ∀ a ∈ A, Relation.TransGen scene.Leads a t) (hl : scene.Leads t u) :
    u ∉ insert t A := by
  rintro (rfl | hu)
  · exact h _ .refl (.single hl)
  · exact h u (.single hl) ((hA u hu).tail hl)

/-- No task leads to a circle if every link of the query goes from a star to one of lower rank. -/
lemma acyclic_of_rank (rank : String → Nat)
    (h : ∀ n ∈ scene.query.names, ∀ c ∈ scene.query.candidates n, ∀ ray ∈ c.rays.toList,
      ∀ link ∈ ray.link?, rank link < rank n) (t : Task) : scene.Acyclic t := by
  have hstep : ∀ u v, scene.Leads u v → rank v.star < rank u.star := by
    rintro u v ⟨c, hc, ray, hray, hv⟩
    have hn := Query.candidates_ne_nil_iff.mp (List.ne_nil_of_mem hc)
    exact h u.star hn c hc ray hray v.star (link?_of_next? hv)
  have hdown : ∀ u v, Relation.TransGen scene.Leads u v → rank v.star < rank u.star := by
    intro u v huv
    induction huv with
    | single hl => exact hstep _ _ hl
    | tail _ hl ih => exact (hstep _ _ hl).trans ih
  exact fun u _ hcircle => lt_irrefl _ (hdown u u hcircle)

/-! ### What an unrolling comes to -/

/-- A name without stars is answered by nothing. -/
def AnswersAbsent (scene : Scene) (answer : Shape → String → Option (Option Bindings)) : Prop :=
  ∀ shape, ∀ n ∉ scene.query.names, answer shape n = some none

/-- Without a star of a name there is nothing to unroll. -/
lemma unroll_of_notMem (depth : Nat) : scene.AnswersAbsent (scene.unroll (depth + 1)) := by
  intro shape n h
  have hnil : scene.query.candidates n = [] := by
    by_contra hne
    exact h (Query.candidates_ne_nil_iff.mp hne)
  rw [unroll, hnil, unrollStars]

/-- A ray is unrolled to what it counts in the tally, if the task that it is left to is answered
by the reply. -/
lemma unrollRay_eq_tallyRay (hanswer : scene.AnswersAbsent answer) (hc : shape.closed = true)
    {reply : Ray → Option Bindings} {ray : Ray}
    (hreply : ∀ u, scene.next? shape ray = some u →
      ∃ n, reply ray = some n ∧ answer u.shape u.star = some (some n)) (b : Bindings) :
    scene.unrollRay answer shape b ray = some (scene.tallyRay shape reply b ray) := by
  rw [unrollRay]
  cases hd : shape.demand ray with
  | settled binds => rw [tallyRay_of_settled hc hd]
  | conform target link =>
      dsimp only
      cases hs : scene.shapes.get? target with
      | none =>
          rw [tallyRay_of_missing? (missing?_eq_some_iff.mpr ⟨hc, ⟨link, hd⟩, hs⟩)]
      | some next =>
          obtain rfl : next.name = target := Keyed.key_of_get? hs
          by_cases hl : link ∈ scene.query.names
          · have hu : scene.next? shape ray = some ⟨next, link⟩ :=
              next?_eq_some_iff.mpr ⟨hc, hd, hs, hl⟩
            obtain ⟨n, hr, hn⟩ := hreply _ hu
            dsimp only at hn
            rw [tallyRay_of_heard hu hr]
            simp [hn]
          · have hu : scene.next? shape ray = none := by
              rw [next?, hc, hd]
              exact if_neg hl
            have hm : scene.missing? shape ray = none := by
              rw [missing?, hc, hd]
              simp [hs]
            rw [tallyRay_of_unheard hd hm (by rw [heard, hu]; rfl)]
            simp [hanswer next link hl]

/-- A fold of which no step fails. -/
lemma foldlM_eq_some {α β : Type} {f : β → α → Option β} {g : β → α → β} {l : List α}
    (h : ∀ b, ∀ x ∈ l, f b x = some (g b x)) (b : β) : l.foldlM f b = some (l.foldl g b) := by
  induction l generalizing b with
  | nil => rfl
  | cons x l ih =>
      rw [List.foldlM_cons, List.foldl_cons, h b x List.mem_cons_self]
      exact ih (fun b y hy => h b y (List.mem_cons_of_mem _ hy)) (g b x)

/-- A star is unrolled to its outcome, if the tasks behind its rays are answered by the replies. -/
lemma unrollStar_eq_outcome (hanswer : scene.AnswersAbsent answer) {x : Trial}
    (hreply : ∀ ray ∈ x.star.rays.toList, ∀ u, scene.next? shape ray = some u →
      ∃ n, x.reply ray = some n ∧ answer u.shape u.star = some (some n)) :
    scene.unrollStar answer shape x.star = some (x.outcome scene shape) := by
  rw [unrollStar, Trial.outcome, tally]
  cases hc : shape.closed with
  | false => rfl
  | true =>
      rw [if_pos rfl, if_pos rfl, foldlM_eq_some fun b ray hray =>
        unrollRay_eq_tallyRay hanswer hc (hreply ray hray) b]
      rfl

/-- Candidates are unrolled to the pick of their outcomes. -/
lemma unrollStars_eq_pick {tried : List Trial} {rest : List Star}
    (htried : ∀ x ∈ tried, scene.unrollStar answer shape x.star = some (x.outcome scene shape))
    {best? : Option Bindings} (hbest : ∀ b, best? = some b → b.full = false)
    (hpick : Bindings.pick (tried.map (Trial.outcome scene shape)) best? = some b)
    (hrest : rest = [] ∨ b.full = true) :
    scene.unrollStars answer shape (tried.map Trial.star ++ rest) best? = some (some b) := by
  induction tried generalizing best? with
  | nil =>
      have hnil : rest = [] := hrest.resolve_right (by simp [hbest b hpick])
      rw [hnil, List.map_nil, List.append_nil, unrollStars]
      exact congrArg some hpick
  | cons x tried ih =>
      rw [List.map_cons, Bindings.pick] at hpick
      rw [List.map_cons, List.cons_append, unrollStars, htried x List.mem_cons_self]
      dsimp only [Option.bind_eq_bind, Option.bind_some]
      cases hfull : (x.outcome scene shape).full with
      | true =>
          rw [if_pos hfull] at hpick
          rw [if_pos rfl, hpick]
      | false =>
          rw [if_neg (by simp [hfull])] at hpick
          rw [if_neg (by simp)]
          refine ih (fun y hy => htried y (List.mem_cons_of_mem _ hy)) ?_ hpick
          rintro _ ⟨⟩
          rcases Bindings.better_eq_or best? (x.outcome scene shape) with he | he
          · rw [he, hfull]
          · exact hbest _ he

/-- What can be found for a task that leads to no circle is what its unrolling comes to at every
depth that is large enough. -/
theorem Finds.unroll_eq (h : scene.Finds roots A t b)
    (hA : ∀ a ∈ A, Relation.TransGen scene.Leads a t) (ht : scene.Acyclic t) :
    ∀ᶠ depth in Filter.atTop, scene.unroll depth t.shape t.star = some (some b) := by
  induction h with
  | @intro A t b tried rest hcandidates hpick hrest hunseen _ _ ih =>
      have hreply : ∀ᶠ depth in Filter.atTop, ∀ x ∈ {x | x ∈ tried},
          ∀ ray ∈ {ray | ray ∈ x.star.rays.toList}, ∀ u, scene.next? t.shape ray = some u →
            ∃ n, x.reply ray = some n ∧
              scene.unroll (depth + 1) u.shape u.star = some (some n) := by
        refine (Filter.eventually_all_finite (List.finite_toSet _)).mpr fun x hx =>
          (Filter.eventually_all_finite (List.finite_toSet _)).mpr fun ray hray => ?_
        cases hu : scene.next? t.shape ray with
        | none => exact .of_forall fun _ _ hu => by cases hu
        | some u =>
            have hlead : scene.Leads t u := leads_of_tried hcandidates hx hray hu
            cases hr : x.reply ray with
            | none => exact absurd (hunseen x hx ray hray u hu hr) (ht.notMem_of_leads hA hlead)
            | some n =>
                have hn := ih x hx ray hray u n hu hr (transGen_of_mem_insert hA hlead)
                  (ht.of_leads hlead)
                refine ((Filter.tendsto_add_atTop_nat 1).eventually hn).mono fun depth hn => ?_
                rintro _ ⟨⟩
                exact ⟨n, rfl, hn⟩
      -- the rays are unrolled one level below the task
      rw [← Filter.map_add_atTop_eq_nat 2, Filter.eventually_map]
      refine hreply.mono fun depth hreply => ?_
      rw [unroll, hcandidates]
      exact unrollStars_eq_pick (fun x hx =>
        unrollStar_eq_outcome (unroll_of_notMem depth) (hreply x hx)) (by simp) hpick hrest

/-! ### Calls -/

/-- **Memory does not show where there is no circle**: the answers to a sequence of calls on one
memory are those that an unrolling with neither memory nor trail comes to, if no task of the calls
leads to a circle. Shapes are told apart by their names. -/
theorem map_bindAll_eq_unroll (scene : Scene) (calls : List Task)
    (hnames : Set.InjOn Shape.name {s | s ∈ scene.shapes.toList ∨ ∃ t ∈ calls, t.shape = s})
    (hacyclic : ∀ t ∈ calls, scene.Acyclic t) :
    ∃ depth, ∀ d ≥ depth, (Memory.empty.bindAll scene calls).1.map some =
      calls.map fun t => scene.unroll d t.shape t.star := by
  refine Filter.eventually_atTop.mp ?_
  have hanswers := finds_calls hnames
  generalize (Memory.empty.bindAll scene calls).1 = answers at hanswers
  clear hnames
  induction hanswers with
  | nil => exact .of_forall fun _ => rfl
  | @cons t b? calls answers hanswer _ ih =>
      have hhead : ∀ᶠ d in Filter.atTop, some b? = scene.unroll d t.shape t.star := by
        cases b? with
        | none =>
            have hn : t.star ∉ scene.query.names := fun hn => by
              obtain ⟨_, hb⟩ := hanswer.2 hn
              cases hb
            rw [← Filter.map_add_atTop_eq_nat 1, Filter.eventually_map]
            exact .of_forall fun d => (unroll_of_notMem d t.shape t.star hn).symm
        | some b =>
            exact ((hanswer.1 b rfl).unroll_eq (fun a ha => absurd ha (Set.notMem_empty a))
              (hacyclic t List.mem_cons_self)).mono fun _ => Eq.symm
      have hrest := ih fun u hu => hacyclic u (List.mem_cons_of_mem _ hu)
      refine (hhead.and hrest).mono fun d ⟨hhead, hrest⟩ => ?_
      rw [List.map_cons, List.map_cons, hhead, hrest]

/-- A star `b` whose rays lead to the same star on two ways if the second reading of the UNION is
taken, and on one way to a star that its shape refuses if it is not. -/
def diamond : Scene where
  query := (Query.ofStars [.ofPairs "b" [("p", .var "c"), ("q", .var "d")],
    .ofPairs "c" [("r", .var "e")], .ofPairs "d" [("r", .var "e"), ("z", .var "y")],
    .ofPairs "e" [("s", .var "x")]]).withUnion [[.ofPairs "b" [("q", .var "c")]]]
  shapes := .ofList [.asking "S" [("p", some "T"), ("q", some "T")],
    .asking "T" [("r", some "U")], .asking "U" [("s", none)]]

/-- Two calls on the diamond. The second comes upon what the first has remembered. -/
def diamondCalls : List Task :=
  [⟨.asking "T" [("r", some "U")], "d"⟩, ⟨.asking "S" [("p", some "T"), ("q", some "T")], "b"⟩]

/-- The links of the diamond go downwards, and so both calls are answered as by an unrolling, with
the dependencies in the order in which it comes to them. -/
theorem diamond_unrolls : ∃ depth, ∀ d ≥ depth,
    (diamond.unroll d (.asking "T" [("r", some "U")]) "d").map
        (Option.map fun b => (b.full, b.dependencies)) =
      some (some (false, [⟨"d", "r", "e", "U", true⟩])) ∧
    (diamond.unroll d (.asking "S" [("p", some "T"), ("q", some "T")]) "b").map
        (Option.map fun b => (b.full, b.dependencies)) =
      some (some (true, [⟨"b", "p", "c", "T", true⟩, ⟨"c", "r", "e", "U", true⟩,
        ⟨"b", "q", "c", "T", true⟩])) := by
  have hcalls : ∀ t ∈ diamondCalls, t.shape ∈ diamond.shapes.toList := by decide +kernel
  have hlinks : ∀ n ∈ diamond.query.names, ∀ c ∈ diamond.query.candidates n, ∀ ray ∈ c.rays.toList,
      ∀ link ∈ ray.link?, ["e", "d", "c", "b"].idxOf link < ["e", "d", "c", "b"].idxOf n := by
    decide +kernel
  obtain ⟨depth, hanswers⟩ := map_bindAll_eq_unroll diamond diamondCalls (injOn_of_loaded hcalls)
    fun t _ => acyclic_of_rank (["e", "d", "c", "b"].idxOf ·) hlinks t
  refine ⟨depth, fun d hd => ?_⟩
  have hanswers := hanswers d hd
  have hreports : (Memory.empty.bindAll diamond diamondCalls).1.map
      (Option.map fun b => (b.full, b.dependencies)) =
        [some (false, [⟨"d", "r", "e", "U", true⟩]),
          some (true, [⟨"b", "p", "c", "T", true⟩, ⟨"c", "r", "e", "U", true⟩,
            ⟨"b", "q", "c", "T", true⟩])] := by decide +kernel
  generalize (Memory.empty.bindAll diamond diamondCalls).1 = answers at hanswers hreports
  rcases answers with _ | ⟨d?, _ | ⟨b?, _ | _⟩⟩ <;>
    simp only [diamondCalls, List.map_cons, List.map_nil, List.cons.injEq, reduceCtorEq,
      and_false, and_true] at hanswers hreports
  rw [← hanswers.1, ← hanswers.2, Option.map_some, Option.map_some, hreports.1, hreports.2]
  exact ⟨rfl, rfl⟩

end Scene

end StarShapes
