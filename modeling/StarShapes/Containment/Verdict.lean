import StarShapes.Binding.Bindings

/-!
Verdicts: how a star fares against all shapes together.

* `Result`: the five outcomes.
* `Verdict`: an outcome with the shapes that it rests on.
* `Verdict.add`: one more shape is tried. A star that is contained in a shape stays contained, and
  from then on shapes that bind it in part only do not count.
* `Verdict.ofRow`: all shapes in turn.
-/

namespace StarShapes

/-- The outcomes of a star. -/
inductive Result where
  /-- Some shape binds all its triples. -/
  | contained
  /-- Some shape binds a part of its triples. -/
  | aligned
  /-- A shape that another star leads to binds all its triples. -/
  | dependent
  /-- Only shapes of a deciding set bind all its triples, while others may fit better. -/
  | partlyContained
  /-- No shape binds any of its triples. -/
  | rejected
  deriving DecidableEq, Repr

/-- The name of an outcome. -/
def Result.label : Result → String
  | contained => "CONTAIN"
  | aligned => "ALIGNED"
  | dependent => "DEPEND"
  | partlyContained => "PARTIALY_CONTAIN"
  | rejected => "REJECTED"

/-- An outcome and the shapes that it rests on. -/
structure Verdict where
  /-- The outcome. -/
  result : Result
  /-- The shapes that bind the star, none if it is rejected. -/
  targets? : Option (List String)
  /-- Those of the targets for which a class triple speaks, if there are any. -/
  byClass? : Option (List String)
  deriving DecidableEq, Repr

namespace Verdict

/-- Before the first shape. -/
def rejected : Verdict := ⟨.rejected, none, none⟩

instance : Inhabited Verdict := ⟨rejected⟩

/-- Add a shape to a list that may not have been started. -/
def listed (names? : Option (List String)) (name : String) : Option (List String) :=
  some (pushNew (names?.getD []) name)

/-- The shape binds all triples: the first such shape discards what was found before. -/
def contain (v : Verdict) (shape : String) : Verdict :=
  if v.result = .contained then { v with targets? := listed v.targets? shape }
  else ⟨.contained, some [shape], none⟩

/-- The shape binds a part of the triples: this counts until some shape binds all. -/
def align (v : Verdict) (shape : String) (byClass : Bool) : Verdict :=
  if v.result = .contained then v
  else ⟨.aligned, listed v.targets? shape,
    if byClass then listed v.byClass? shape else v.byClass?⟩

/-- The bindings against one more shape are known. -/
def add (v : Verdict) (b : Bindings) : Verdict :=
  if b.isWorthVisiting then
    if b.full then v.contain b.shape else v.align b.shape b.byClass
  else v

/-- The verdict on a star whose bindings against all shapes are known. -/
def ofRow (row : List Bindings) : Verdict := row.foldl add rejected

/-- A star that is bound in full through another star's ray depends on the shapes named there. -/
def depend (targets : List String) : Verdict := ⟨.dependent, some targets, none⟩

/-- A star contained in deciding shapes alone is contained in part. -/
def restrict (deciding : List String) (v : Verdict) : Verdict :=
  if v.result = .contained ∧ (v.targets?.any fun ts => ts.all deciding.contains) then
    { v with result := .partlyContained }
  else v

end Verdict

end StarShapes
