import Mathlib.Data.List.Forall2
import Mathlib.Data.List.Nodup
import StarShapes.Proofs.Schema.Unfolding

/-!
Cells: which lists of a graph are read, and how the reading of the others ends.

* `Graph.Passes`: the links from a term on, through cells, and what the last of them leads to.
  `Graph.Walked` are those along which a list can be read so far, and `Graph.FaultAt` says why it
  cannot be read any further.
* `Graph.Walk`, `Graph.turn`, `Graph.readFor`: the reading as a loop that is given some turns. What
  was walked when a turn begins was walked when it ends (`Walked.turn`).
* `elements_eq_ok_iff`, `elements_eq_error_iff`: what was walked decides what is read.
* `elements_exact`: both, and the loop ends after as many turns as there are elements stated.
-/

namespace StarShapes.Graph

open Vocabulary

variable {g : Graph}

/-! ### Chains of cells -/

/-- The links lead from a term through the given cells to another term. -/
inductive Passes (g : Graph) : Term → List String → Term → Prop
  | here (link : Term) : Passes g link [] link
  | next {link follower last : Term} {cell : String} {cells : List String}
      (hname : link.nodeName? = some cell) (hrest : g.rest? cell = some follower)
      (hpasses : Passes g follower cells last) : Passes g link (cell :: cells) last

/-- A chain goes on where its last link leads. -/
lemma Passes.concat {link last follower : Term} {cells : List String} {cell : String}
    (h : g.Passes link cells last) (hname : last.nodeName? = some cell)
    (hrest : g.rest? cell = some follower) : g.Passes link (cells ++ [cell]) follower := by
  induction h with
  | here link => exact .next hname hrest (.here follower)
  | next hname' hrest' _ ih => exact .next hname' hrest' (ih hname)

/-- The cells with the given elements lead from a list to `last`: none comes twice, and none is the
empty list. -/
structure Walked (g : Graph) (list : Term) (cells : List String) (elements : List Term)
    (last : Term) : Prop where
  passes : g.Passes list cells last
  nodup : cells.Nodup
  notMem_nil : rdfNil ∉ cells
  firsts : List.Forall₂ (fun cell e => g.first? cell = some e) cells elements

/-- Nothing was walked at the start. -/
lemma Walked.start (list : Term) : g.Walked list [] [] list where
  passes := .here list
  nodup := List.nodup_nil
  notMem_nil := List.not_mem_nil
  firsts := .nil

/-- A new cell with both its parts can be passed. -/
lemma Walked.concat {list last follower e : Term} {cells : List String} {elements : List Term}
    {cell : String} (h : g.Walked list cells elements last) (hname : last.nodeName? = some cell)
    (hnil : cell ≠ rdfNil) (hnew : cell ∉ cells) (hfirst : g.first? cell = some e)
    (hrest : g.rest? cell = some follower) :
    g.Walked list (cells ++ [cell]) (elements ++ [e]) follower where
  passes := h.passes.concat hname hrest
  nodup := by
    rw [← List.concat_eq_append]
    exact h.nodup.concat hnew
  notMem_nil := by simp [h.notMem_nil, hnil.symm]
  firsts := List.rel_append h.firsts (.cons hfirst .nil)

/-- Why a list is not read beyond the link `link`, where the cells `passed` lie behind. -/
inductive FaultAt (g : Graph) (passed : List String) (link : Term) : ShapeError → Prop
  | noNode (hname : link.nodeName? = none) : FaultAt g passed link (.listWithoutRest link.text)
  | again {cell : String} (hname : link.nodeName? = some cell) (hnil : cell ≠ rdfNil)
      (hpassed : cell ∈ passed) : FaultAt g passed link (.cyclicList cell)
  | noFirst {cell : String} (hname : link.nodeName? = some cell) (hnil : cell ≠ rdfNil)
      (hnew : cell ∉ passed) (hfirst : g.first? cell = none) :
      FaultAt g passed link (.listWithoutFirst cell)
  | noRest {cell : String} {e : Term} (hname : link.nodeName? = some cell) (hnil : cell ≠ rdfNil)
      (hnew : cell ∉ passed) (hfirst : g.first? cell = some e) (hrest : g.rest? cell = none) :
      FaultAt g passed link (.listWithoutRest cell)

/-- It does not matter in which order the cells were passed. -/
lemma FaultAt.reverse {passed : List String} {link : Term} {error : ShapeError}
    (h : g.FaultAt passed link error) : g.FaultAt passed.reverse link error := by
  cases h with
  | noNode hname => exact .noNode hname
  | again hname hnil hpassed => exact .again hname hnil (List.mem_reverse.mpr hpassed)
  | noFirst hname hnil hnew hfirst =>
      exact .noFirst hname hnil (mt List.mem_reverse.mp hnew) hfirst
  | noRest hname hnil hnew hfirst hrest =>
      exact .noRest hname hnil (mt List.mem_reverse.mp hnew) hfirst hrest

/-! ### Reading along a chain -/

/-- One step along a list, at a cell that was not passed. -/
lemma elementsFrom_cell {passed : List String} {link : Term} {cell : String}
    (hname : link.nodeName? = some cell) (hnil : cell ≠ rdfNil) (hpassed : cell ∉ passed) :
    g.elementsFrom passed link =
      match g.first? cell with
      | none => .error (.listWithoutFirst cell)
      | some e =>
        match g.rest? cell with
        | none => .error (.listWithoutRest cell)
        | some next => (g.elementsFrom (cell :: passed) next).map (e :: ·) := by
  rw [elementsFrom, hname]
  simp only [if_neg hnil, dif_neg hpassed]
  split
  · rename_i hfirst
    rw [hfirst]
  · rename_i hfirst
    cases g.rest? cell with
    | none => simp only [hfirst]
    | some next => simp only [hfirst]

/-- The empty list has no elements. -/
lemma elementsFrom_nil {passed : List String} {link : Term} (hname : link.nodeName? = some rdfNil) :
    g.elementsFrom passed link = .ok [] := by
  rw [elementsFrom, hname]
  simp only [if_true]

/-- Where there is a fault, it is reported. -/
lemma FaultAt.elementsFrom {passed : List String} {link : Term} {error : ShapeError}
    (h : g.FaultAt passed link error) : g.elementsFrom passed link = .error error := by
  cases h with
  | noNode hname => rw [Graph.elementsFrom, hname]
  | again hname hnil hpassed =>
      rw [Graph.elementsFrom, hname]
      simp only [if_neg hnil, dif_pos hpassed]
  | noFirst hname hnil hnew hfirst => rw [elementsFrom_cell hname hnil hnew, hfirst]
  | noRest hname hnil hnew hfirst hrest =>
      simp only [elementsFrom_cell hname hnil hnew, hfirst, hrest]

/-- What was walked is read, and the reading goes on at the last link. -/
lemma Passes.elementsFrom {link last : Term} {cells passed : List String} {elements : List Term}
    (h : g.Passes link cells last)
    (hfirsts : List.Forall₂ (fun cell e => g.first? cell = some e) cells elements)
    (hnil : rdfNil ∉ cells) (hnodup : (cells.reverse ++ passed).Nodup) :
    g.elementsFrom passed link =
      (g.elementsFrom (cells.reverse ++ passed) last).map (elements ++ ·) := by
  induction h generalizing passed elements with
  | here link =>
      cases hfirsts
      exact (map_nil_append _).symm
  | @next link follower last cell cells hname hrest _ ih =>
      obtain ⟨e, elements, hfirst, hothers, rfl⟩ := List.forall₂_cons_left_iff.mp hfirsts
      obtain ⟨hcell, hnil⟩ := not_or.mp (mt List.mem_cons.mpr hnil)
      have hpassed : cells.reverse ++ cell :: passed = (cell :: cells).reverse ++ passed := by
        rw [List.reverse_cons, List.append_assoc, List.singleton_append]
      rw [← hpassed] at hnodup ⊢
      have hnew : cell ∉ passed :=
        (List.nodup_cons.mp (List.Nodup.of_append_right hnodup)).1
      simp only [elementsFrom_cell hname (Ne.symm hcell) hnew, hfirst, hrest,
        ih hothers hnil hnodup, map_map]
      rfl

/-- A list is read as far as it was walked. -/
lemma Walked.elements {list last : Term} {cells : List String} {elements : List Term}
    (h : g.Walked list cells elements last) :
    g.elements list = (g.elementsFrom cells.reverse last).map (elements ++ ·) := by
  have hnodup : (cells.reverse ++ []).Nodup := by
    rw [List.append_nil]
    exact List.nodup_reverse.mpr h.nodup
  rw [Graph.elements, h.passes.elementsFrom h.firsts h.notMem_nil hnodup, List.append_nil]

/-! ### The loop -/

/-- How far the reading of a list has come. -/
structure Walk where
  /-- The elements read. -/
  elements : List Term
  /-- The cells passed, the last one first. -/
  passed : List String
  /-- The link that is followed next. -/
  link : Term

/-- One turn of the reading: a cell is passed, or the reading ends. -/
def turn (g : Graph) (w : Walk) : Walk ⊕ Except ShapeError (List Term) :=
  match w.link.nodeName? with
  | none => .inr (.error (.listWithoutRest w.link.text))
  | some cell =>
    if cell = rdfNil then .inr (.ok w.elements)
    else if cell ∈ w.passed then .inr (.error (.cyclicList cell))
    else
      match g.first? cell with
      | none => .inr (.error (.listWithoutFirst cell))
      | some e =>
        match g.rest? cell with
        | none => .inr (.error (.listWithoutRest cell))
        | some next => .inl ⟨w.elements ++ [e], cell :: w.passed, next⟩

/-- The result of a reading that is given some turns; none if it is not over by then. -/
def readFor (g : Graph) : Nat → Walk → Option (Except ShapeError (List Term))
  | 0, _ => none
  | n + 1, w =>
    match g.turn w with
    | .inl w => g.readFor n w
    | .inr result => some result

/-- A turn ends the list, finds a fault or passes a new cell. -/
lemma turn_cases (g : Graph) (w : Walk) :
    (w.link.nodeName? = some rdfNil ∧ g.turn w = .inr (.ok w.elements)) ∨
      (∃ error, g.FaultAt w.passed w.link error ∧ g.turn w = .inr (.error error)) ∨
      ∃ cell e next, w.link.nodeName? = some cell ∧ cell ≠ rdfNil ∧ cell ∉ w.passed ∧
        g.first? cell = some e ∧ g.rest? cell = some next ∧
        g.turn w = .inl ⟨w.elements ++ [e], cell :: w.passed, next⟩ := by
  cases hname : w.link.nodeName? with
  | none => exact .inr (.inl ⟨_, .noNode hname, by simp only [turn, hname]⟩)
  | some cell =>
      by_cases hnil : cell = rdfNil
      · exact .inl ⟨congrArg some hnil, by simp only [turn, hname, if_pos hnil]⟩
      by_cases hpassed : cell ∈ w.passed
      · exact .inr (.inl ⟨_, .again hname hnil hpassed,
          by simp only [turn, hname, if_neg hnil, if_pos hpassed]⟩)
      cases hfirst : g.first? cell with
      | none =>
          exact .inr (.inl ⟨_, .noFirst hname hnil hpassed hfirst,
            by simp only [turn, hname, if_neg hnil, if_neg hpassed, hfirst]⟩)
      | some e =>
          cases hrest : g.rest? cell with
          | none =>
              exact .inr (.inl ⟨_, .noRest hname hnil hpassed hfirst hrest,
                by simp only [turn, hname, if_neg hnil, if_neg hpassed, hfirst, hrest]⟩)
          | some next =>
              exact .inr (.inr ⟨cell, e, next, rfl, hnil, hpassed, hfirst, hrest,
                by simp only [turn, hname, if_neg hnil, if_neg hpassed, hfirst, hrest]⟩)

/-- What a turn passes was walked. -/
lemma Walked.turn {list : Term} {w w' : Walk}
    (h : g.Walked list w.passed.reverse w.elements w.link) (hturn : g.turn w = .inl w') :
    g.Walked list w'.passed.reverse w'.elements w'.link := by
  obtain ⟨-, he⟩ | ⟨_, -, he⟩ | ⟨cell, e, next, hname, hnil, hnew, hfirst, hrest, he⟩ :=
    turn_cases g w
  · cases he.symm.trans hturn
  · cases he.symm.trans hturn
  · obtain rfl := Sum.inl.inj (he.symm.trans hturn)
    rw [List.reverse_cons]
    exact h.concat hname hnil (mt List.mem_reverse.mp hnew) hfirst hrest

/-- A reading ends where the list was walked up to the empty list or to a fault. -/
lemma Walked.readFor {list : Term} {n : Nat} {w : Walk} {result : Except ShapeError (List Term)}
    (h : g.Walked list w.passed.reverse w.elements w.link) (hread : g.readFor n w = some result) :
    ∃ cells elements last, g.Walked list cells elements last ∧
      ((last.nodeName? = some rdfNil ∧ result = .ok elements) ∨
        ∃ error, g.FaultAt cells last error ∧ result = .error error) := by
  induction n generalizing w with
  | zero => cases hread
  | succ n ih =>
      rw [Graph.readFor] at hread
      obtain ⟨hname, hturn⟩ | ⟨error, hfault, hturn⟩ | ⟨_, _, _, -, -, -, -, -, hturn⟩ :=
        turn_cases g w
      · simp only [hturn, Option.some.injEq] at hread
        exact ⟨_, _, _, h, .inl ⟨hname, hread.symm⟩⟩
      · simp only [hturn, Option.some.injEq] at hread
        exact ⟨_, _, _, h, .inr ⟨error, hfault.reverse, hread.symm⟩⟩
      · simp only [hturn] at hread
        exact ih (h.turn hturn) hread

/-- The loop reads what the recursion does. Each turn passes a cell with an element, so there are no
more turns than elements are stated. -/
lemma readFor_eq {n : Nat} {w : Walk} (hn : g.unvisited rdfFirst w.passed < n) :
    g.readFor n w = some ((g.elementsFrom w.passed w.link).map (w.elements ++ ·)) := by
  induction n generalizing w with
  | zero => omega
  | succ n ih =>
      rw [readFor]
      obtain ⟨hname, hturn⟩ | ⟨error, hfault, hturn⟩ |
        ⟨cell, e, next, hname, hnil, hnew, hfirst, hrest, hturn⟩ := turn_cases g w
      · simp only [hturn, elementsFrom_nil hname, Except.map, List.append_nil]
      · simp only [hturn, hfault.elementsFrom, Except.map]
      · have hless := g.unvisited_cons_lt (exists_triple_of_first? hfirst) hnew
        have hread := ih (w := ⟨w.elements ++ [e], cell :: w.passed, next⟩)
          (Nat.lt_of_lt_of_le hless (Nat.le_of_lt_succ hn))
        simp only [hturn, hread, elementsFrom_cell hname hnil hnew, hfirst, hrest, map_map,
          Function.comp_def, List.append_assoc, List.singleton_append]

/-- The reading of a list is over after more turns than there are elements stated. -/
lemma readFor_start {list : Term} {n : Nat}
    (hn : (g.triples.filter fun t => t.predicate = rdfFirst).length < n) :
    g.readFor n ⟨[], [], list⟩ = some (g.elements list) := by
  have hunvisited : g.unvisited rdfFirst [] < n := by
    simpa only [unvisited, List.not_mem_nil, not_false_eq_true, and_true] using hn
  rw [readFor_eq hunvisited, elements, map_nil_append]

/-! ### Which lists are read -/

/-- A list was walked up to where its reading ends. -/
lemma exists_walked (g : Graph) (list : Term) :
    ∃ cells elements last, g.Walked list cells elements last ∧
      ((last.nodeName? = some rdfNil ∧ g.elements list = .ok elements) ∨
        ∃ error, g.FaultAt cells last error ∧ g.elements list = .error error) :=
  (Walked.start list).readFor (w := ⟨[], [], list⟩) (readFor_start (Nat.lt_succ_self _))

/-- A list is read if its cells lead to the empty list, and its elements are those of the cells. -/
lemma elements_eq_ok_iff {list : Term} {elements : List Term} :
    g.elements list = .ok elements ↔
      ∃ cells last, g.Walked list cells elements last ∧ last.nodeName? = some rdfNil := by
  constructor
  · intro hread
    obtain ⟨cells, _, last, hwalked, ⟨hlast, he⟩ | ⟨error, -, he⟩⟩ := exists_walked g list
    · obtain rfl := Except.ok.inj (he.symm.trans hread)
      exact ⟨cells, last, hwalked, hlast⟩
    · cases he.symm.trans hread
  · rintro ⟨cells, last, hwalked, hlast⟩
    rw [hwalked.elements, elementsFrom_nil hlast, Except.map, List.append_nil]

/-- A list is not read if its cells lead to a fault, and this is what is reported. -/
lemma elements_eq_error_iff {list : Term} {error : ShapeError} :
    g.elements list = .error error ↔
      ∃ cells elements last, g.Walked list cells elements last ∧ g.FaultAt cells last error := by
  constructor
  · intro hread
    obtain ⟨cells, elements, last, hwalked, ⟨-, he⟩ | ⟨_, hfault, he⟩⟩ := exists_walked g list
    · cases he.symm.trans hread
    · obtain rfl := Except.error.inj (he.symm.trans hread)
      exact ⟨cells, elements, last, hwalked, hfault⟩
  · rintro ⟨cells, elements, last, hwalked, hfault⟩
    rw [hwalked.elements, hfault.reverse.elementsFrom, Except.map]

/-- **Lists are read exactly.** A list has the elements `elements` if it leads through as many
distinct cells, each with its element, to the empty list; else the first fault on the way is
reported. The reading is over after more turns than there are elements stated. -/
theorem elements_exact (g : Graph) (list : Term) :
    (∀ elements, g.elements list = .ok elements ↔
      ∃ cells last, g.Walked list cells elements last ∧ last.nodeName? = some rdfNil) ∧
    (∀ error, g.elements list = .error error ↔
      ∃ cells elements last, g.Walked list cells elements last ∧ g.FaultAt cells last error) ∧
    ∀ n, (g.triples.filter fun t => t.predicate = rdfFirst).length < n →
      g.readFor n ⟨[], [], list⟩ = some (g.elements list) :=
  ⟨fun _ => elements_eq_ok_iff, fun _ => elements_eq_error_iff, fun _ hn => readFor_start hn⟩

/-- Two cells, a list that goes on with the second of them, two cells in a circle, and a cell
without successor. -/
def fourLists : Graph := stating [
  ("_:1", rdfFirst, .named "a"),
  ("_:1", rdfRest, .blank "2"),
  ("_:2", rdfFirst, .named "b"),
  ("_:2", rdfRest, .named rdfNil),
  ("_:3", rdfFirst, .named "a"),
  ("_:3", rdfRest, .blank "2"),
  ("_:4", rdfFirst, .named "c"),
  ("_:4", rdfRest, .blank "5"),
  ("_:5", rdfFirst, .named "d"),
  ("_:5", rdfRest, .blank "4"),
  ("_:6", rdfFirst, .named "e")]

/-- A list that shares its end with another one is read; a circle and a list that breaks off are
not. -/
theorem fourLists_exact :
    (fourLists.triples.filter fun t => t.predicate = rdfFirst).length < 7 ∧
    fourLists.readFor 7 ⟨[], [], .blank "3"⟩ = some (.ok [.named "a", .named "b"]) ∧
    fourLists.readFor 7 ⟨[], [], .blank "4"⟩ = some (.error (.cyclicList "_:4")) ∧
    fourLists.readFor 7 ⟨[], [], .blank "6"⟩ = some (.error (.listWithoutRest "_:6")) := by
  have hturns : (fourLists.triples.filter fun t => t.predicate = rdfFirst).length < 7 := by
    decide +kernel
  obtain ⟨hok, -, hshared⟩ := elements_exact fourLists (.blank "3")
  obtain ⟨-, hagain, hcircle⟩ := elements_exact fourLists (.blank "4")
  obtain ⟨-, hfault, hbroken⟩ := elements_exact fourLists (.blank "6")
  have hrests : fourLists.rest? "_:3" = some (.blank "2") ∧
      fourLists.rest? "_:2" = some (.named rdfNil) ∧
      fourLists.rest? "_:4" = some (.blank "5") ∧ fourLists.rest? "_:5" = some (.blank "4") := by
    decide +kernel
  obtain ⟨hthree, htwo, hfour, hfive⟩ := hrests
  have hread : fourLists.elements (.blank "3") = .ok [.named "a", .named "b"] :=
    (hok _).mpr ⟨["_:3", "_:2"], .named rdfNil,
      ⟨.next rfl hthree (.next rfl htwo (.here _)), by decide, by decide,
        .cons (by decide +kernel) (.cons (by decide +kernel) .nil)⟩, rfl⟩
  have hcyclic : fourLists.elements (.blank "4") = .error (.cyclicList "_:4") :=
    (hagain _).mpr ⟨["_:4", "_:5"], [.named "c", .named "d"], .blank "4",
      ⟨.next rfl hfour (.next rfl hfive (.here _)), by decide, by decide,
        .cons (by decide +kernel) (.cons (by decide +kernel) .nil)⟩,
      .again rfl (by decide) (by decide)⟩
  have hopen : fourLists.elements (.blank "6") = .error (.listWithoutRest "_:6") :=
    (hfault _).mpr ⟨[], [], .blank "6", .start _,
      .noRest (e := .named "e") rfl (by decide) (by decide) (by decide +kernel)
        (by decide +kernel)⟩
  exact ⟨hturns, by rw [hshared 7 hturns, hread], by rw [hcircle 7 hturns, hcyclic],
    by rw [hbroken 7 hturns, hopen]⟩

end StarShapes.Graph
