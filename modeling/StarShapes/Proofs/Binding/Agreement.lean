import StarShapes.Proofs.Binding.Finding

/-!
Agreement: scenes that give the same answers to every question of a match.

* `Scene.Agrees`: two scenes have the same candidates and the same shapes for
  every name, in whatever order their stars and shapes come.
* `Agrees.finds`: what can be found in the one can be found in the other.
-/

namespace StarShapes

namespace Scene

/-- Two scenes have the same candidates and the same shapes for every name. -/
structure Agrees (scene scene' : Scene) : Prop where
  /-- The candidates are the same. -/
  candidates : ∀ n, scene'.query.candidates n = scene.query.candidates n
  /-- The shapes are the same. -/
  shapes : ∀ name, scene'.shapes.get? name = scene.shapes.get? name

namespace Agrees

variable {scene scene' : Scene} {roots A : Set Task} {t u w : Task} {b : Bindings}

lemma symm (h : scene.Agrees scene') : scene'.Agrees scene :=
  ⟨fun n => (h.candidates n).symm, fun name => (h.shapes name).symm⟩

lemma mem_names (h : scene.Agrees scene') {n : String} :
    n ∈ scene'.query.names ↔ n ∈ scene.query.names := by
  rw [← Query.candidates_ne_nil_iff, ← Query.candidates_ne_nil_iff, h.candidates]

lemma next? (h : scene.Agrees scene') (shape : Shape) (ray : Ray) :
    scene'.next? shape ray = scene.next? shape ray :=
  next?_congr h.shapes (fun _ => h.mem_names) ray

lemma missing? (h : scene.Agrees scene') (shape : Shape) (ray : Ray) :
    scene'.missing? shape ray = scene.missing? shape ray := by
  ext target
  rw [missing?_eq_some_iff, missing?_eq_some_iff, h.shapes]

lemma tally (h : scene.Agrees scene') (shape : Shape) (reply : Ray → Option Bindings)
    (star : Star) : scene'.tally shape reply star = scene.tally shape reply star := by
  have hray : scene'.tallyRay shape reply = scene.tallyRay shape reply := by
    funext b ray
    simp only [tallyRay, report, Scene.binds, heard, h.next?, h.missing?]
  rw [Scene.tally, Scene.tally, hray]

lemma outcome (h : scene.Agrees scene') (shape : Shape) :
    Trial.outcome scene' shape = Trial.outcome scene shape :=
  funext fun x => h.tally shape x.reply x.star

lemma leads (h : scene.Agrees scene') (hl : scene'.Leads t u) : scene.Leads t u := by
  obtain ⟨c, hc, ray, hray, hu⟩ := hl
  exact ⟨c, h.candidates t.star ▸ hc, ray, hray, h.next? t.shape ray ▸ hu⟩

lemma reachedWithout (h : scene.Agrees scene') (ht : scene'.ReachedWithout roots w t) :
    scene.ReachedWithout roots w t := by
  induction ht with
  | root hroot hne => exact .root hroot hne
  | step _ hl hne ih => exact ih.step (h.leads hl) hne

/-- What can be found in a scene can be found in one that agrees with it. -/
lemma finds (h : scene.Agrees scene') (hb : scene'.Finds roots A t b) :
    scene.Finds roots A t b := by
  induction hb with
  | @intro A t b tried rest hcandidates hpick hrest hunseen hreached _ ih =>
      rw [h.candidates] at hcandidates
      rw [h.outcome] at hpick
      refine .intro tried rest hcandidates hpick hrest (fun x hx ray hray u hu => ?_)
        (fun x hx ray hray u n hu hn => ?_) fun x hx ray hray u n hu hn => ?_
      · exact hunseen x hx ray hray u ((h.next? t.shape ray).trans hu)
      · exact h.reachedWithout (hreached x hx ray hray u n ((h.next? t.shape ray).trans hu) hn)
      · exact ih x hx ray hray u n ((h.next? t.shape ray).trans hu) hn

end Agrees

end Scene

end StarShapes
