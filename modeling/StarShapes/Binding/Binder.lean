import StarShapes.Binding.Bindings
import StarShapes.Binding.Trail

/-!
Matching stars against shapes.

A ray whose rule names a shape leaves the decision to the star at its other end. A goal that is
on the trail already is taken as met: going round a cycle refutes nothing. What was decided with
the help of such an assumption holds only while the assumption stands, so it is remembered only
once the goal assumed is the current one or lies behind it.

* `Memory`: the bindings of decided goals, and the first place on the trail that was assumed.
* `Memory.remember`: the remembered bindings of a goal, or those that a computation finds.
* `bestOf`: the first candidate bound in full, or else one with the most bound triples.
* `Scene.bindStar`: a star against a shape. It ends because every nested goal prolongs the trail.
* `Memory.bind`: all candidates of a name against a shape, with what was remembered so far.
-/

namespace StarShapes

/-- What is remembered while the stars of a query are matched. -/
structure Memory where
  /-- The bindings of goals that were decided without an open assumption. -/
  decided : Dict Goal Bindings
  /-- The first place on the trail whose goal was assumed since the last reset. -/
  assumed? : Option Nat
  deriving DecidableEq

namespace Memory

/-- Nothing is remembered. -/
def empty : Memory := ⟨.empty, none⟩

instance : Inhabited Memory := ⟨empty⟩

/-- The lower of two places on the trail, where there are any. -/
def lower : Option Nat → Option Nat → Option Nat
  | some a, some b => some (min a b)
  | some a, none => some a
  | none, b? => b?

/-- The goal at this place on the trail is assumed. -/
def assume (m : Memory) (place : Nat) : Memory :=
  { m with assumed? := lower m.assumed? (some place) }

/-- The bindings of a goal: the remembered ones, or else those that `compute` finds. These are
remembered if they rest on no assumption about a goal before the place `depth`. -/
def remember (goal : Goal) (depth : Nat) (compute : Memory → Option Bindings × Memory)
    (m : Memory) : Option Bindings × Memory :=
  match m.decided.find? goal with
  | some b => (some b, m)
  | none =>
    let (result?, after) := compute { m with assumed? := none }
    let open? := after.assumed?.filter (· < depth)
    let decided :=
      match open?, result? with
      | none, some b => after.decided.set goal b
      | _, _ => after.decided
    (result?, ⟨decided, lower m.assumed? open?⟩)

end Memory

/-- The first of the candidates that is bound in full; if there is none, the best of them, the
earlier one if two have equally many bound triples. -/
def bestOf (bindStar : Star → Memory → Bindings × Memory) :
    List Star → Option Bindings → Memory → Option Bindings × Memory
  | [], best?, m => (best?, m)
  | s :: rest, best?, m =>
    let (b, m) := bindStar s m
    if b.full then (some b, m) else bestOf bindStar rest (some (Bindings.better best? b)) m

namespace Scene

/-- A star against a shape, where `trail` ends with this very goal. -/
def bindStar (scene : Scene) (trail : Trail scene) (shape : Shape) (star : Star) (m : Memory) :
    Bindings × Memory :=
  if shape.closed then
    let (b, m) := star.rays.toList.foldl (fun (b, m) ray =>
      match shape.demand ray with
      | .settled binds => (b.settle shape ray binds, m)
      | .conform target link =>
        match hs : scene.shapes.get? target with
        | none => ((b.recordMissing ray target).take shape ray, m)
        | some next =>
          match hp : trail.position? ⟨target, link⟩ with
          | some place => (b.take shape ray, m.assume place)
          | none =>
            if hl : link ∈ scene.query.names then
              let further := trail.push ⟨target, link⟩
                (mem_goals.2 ⟨Keyed.mem_keys_of_get? hs, hl⟩) (Trail.position?_eq_none_iff.1 hp)
              let (n?, m) := m.remember ⟨target, link⟩ trail.length
                (bestOf (fun s m => bindStar scene further next s m)
                  (scene.query.candidates link) none)
              match n? with
              | some n => ((b.recordNested ray target link n).settle shape ray n.full, m)
              | none => (b.take shape ray, m)
            else (b.take shape ray, m)) (Bindings.start shape star.name, m)
    (b.finish star, m)
  else (Bindings.ofOpen shape star, m)
termination_by trail.room
decreasing_by exact Trail.room_push_lt _ _ _ _

/-- A star against a shape as the first goal. -/
def bindFirst (scene : Scene) (shape : Shape) (star : Star) (m : Memory) : Bindings × Memory :=
  scene.bindStar (.start ⟨shape.name, star.name⟩) shape star m

/-- The bindings of a star against a shape, with nothing remembered. -/
def bindings (scene : Scene) (shape : Shape) (star : Star) : Bindings :=
  (scene.bindFirst shape star .empty).1

/-- The bindings of the best of several candidates, with nothing remembered; none if there is no
candidate. -/
def bestBindings (scene : Scene) (shape : Shape) (candidates : List Star) : Option Bindings :=
  (bestOf (scene.bindFirst shape) candidates none .empty).1

end Scene

/-- The bindings of the stars of a name against a shape, and what is remembered afterwards; none
if the query has no star of that name. -/
def Memory.bind (scene : Scene) (shape : Shape) (name : String) (m : Memory) :
    Option Bindings × Memory :=
  m.remember ⟨shape.name, name⟩ 0
    (bestOf (scene.bindFirst shape) (scene.query.candidates name) none)

end StarShapes
