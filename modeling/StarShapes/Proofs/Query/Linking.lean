import Mathlib.Data.List.Forall2
import StarShapes.Proofs.Collection.Distinct
import StarShapes.Query.Basic

/-!
Linking: to which stars the rays of a query lead, however the query is built.

* `Ray.LinkedIn`, `Star.LinkedIn`, `Branch.LinkedIn`: what becomes of a ray, of a star and of a
  branch when links are looked for among the names in a scope.
* `linkWhere_linkWhere`: a link that is found early stays right as the scope grows. So a query that
  is linked before further groups join it comes out as if it had not been (`link_append`).
* `Query.LinksOf`: each ray leads where its own scope says, given the stars and the groups.
* `foldl_withUnion_ofStars`: a query built group by group is the query of all groups at once, with
  these links, and to link it again changes nothing.
-/

namespace StarShapes

/-! ### What linking makes of a ray -/

/-- A ray before and after links were looked for among some names: a link that was there stays, and
a ray without link gets exactly the name of its object, if it is one of them. -/
structure Ray.LinkedIn (scope : Set String) (r r' : Ray) : Prop where
  /-- The triple stays. -/
  triple : r'.triple = r.triple
  /-- A link that was there stays. -/
  kept : ∀ n, r.link? = some n → r'.link? = some n
  /-- A ray without link leads to the star that its object names, if there is one, and nowhere
  else. -/
  found : r.link? = none → ∀ n, r'.link? = some n ↔ r.triple.object.name? = some n ∧ n ∈ scope

/-- A star before and after its rays were linked. -/
structure Star.LinkedIn (scope : Set String) (s s' : Star) : Prop where
  /-- The name stays. -/
  name : s'.name = s.name
  /-- The subject is of the same kind. -/
  isVariable : s'.isVariable = s.isVariable
  /-- The rays are linked one by one. -/
  rays : List.Forall₂ (Ray.LinkedIn scope) s.rays.toList s'.rays.toList

/-- The stars of a branch before and after their rays were linked. -/
def Branch.LinkedIn (scope : Set String) (b b' : Branch) : Prop :=
  List.Forall₂ (Star.LinkedIn scope) b.toList b'.toList

section

variable {known known' : String → Bool} {scope : Set String}

lemma Star.toList_rays_linkWhere (s : Star) :
    (s.linkWhere known).rays.toList = s.rays.toList.map (Ray.linkWhere known) := rfl

lemma Branch.toList_linkWhere (b : Branch) :
    (Branch.linkWhere known b).toList = b.toList.map (Star.linkWhere known) := rfl

lemma Ray.linkedIn_linkWhere (h : ∀ n, known n = true ↔ n ∈ scope) (r : Ray) :
    r.LinkedIn scope (r.linkWhere known) where
  triple := rfl
  kept n hn := by rw [link?_linkWhere, hn, Option.some_or]
  found hnone n := by
    rw [link?_linkWhere, hnone, Option.none_or, Option.filter_eq_some_iff, h]

lemma Star.linkedIn_linkWhere (h : ∀ n, known n = true ↔ n ∈ scope) (s : Star) :
    s.LinkedIn scope (s.linkWhere known) where
  name := rfl
  isVariable := rfl
  rays := List.forall₂_map_right_iff.mpr
    (List.forall₂_same.mpr fun r _ => Ray.linkedIn_linkWhere h r)

lemma Branch.linkedIn_linkWhere (h : ∀ n, known n = true ↔ n ∈ scope) (b : Branch) :
    Branch.LinkedIn scope b (Branch.linkWhere known b) :=
  List.forall₂_map_right_iff.mpr (List.forall₂_same.mpr fun s _ => Star.linkedIn_linkWhere h s)

/-! ### Linking in a scope that grows -/

/-- A link found among some names is the one found later among more names. -/
lemma Ray.linkWhere_linkWhere (h : ∀ n, known n = true → known' n = true) (r : Ray) :
    (r.linkWhere known).linkWhere known' = r.linkWhere known' := by
  have hlink : (r.linkWhere known).link?.or (r.triple.object.name?.filter known') =
      r.link?.or (r.triple.object.name?.filter known') := by
    rw [link?_linkWhere, Option.or_assoc]
    congr 1
    cases r.triple.object.name? with
    | none => rfl
    | some n =>
        rw [Option.filter_some, Option.filter_some]
        split
        · rename_i hn
          rw [if_pos (h n hn), Option.some_or]
        · rfl
  rw [← link?_linkWhere] at hlink
  exact congrArg (Ray.mk r.triple) ((link?_linkWhere known' _).trans hlink)

lemma Star.linkWhere_linkWhere (h : ∀ n, known n = true → known' n = true) (s : Star) :
    (s.linkWhere known).linkWhere known' = s.linkWhere known' := by
  have hrays : ((s.linkWhere known).linkWhere known').rays = (s.linkWhere known').rays := by
    apply Keyed.ext
    rw [toList_rays_linkWhere, toList_rays_linkWhere, toList_rays_linkWhere, List.map_map]
    exact List.map_congr_left fun r _ => Ray.linkWhere_linkWhere h r
  exact congrArg (Star.mk s.name s.isVariable) hrays

lemma Branch.linkWhere_linkWhere (h : ∀ n, known n = true → known' n = true) (b : Branch) :
    Branch.linkWhere known' (Branch.linkWhere known b) = Branch.linkWhere known' b := by
  apply Keyed.ext
  rw [toList_linkWhere, toList_linkWhere, toList_linkWhere, List.map_map]
  exact List.map_congr_left fun s _ => Star.linkWhere_linkWhere h s

end

/-- Linking leaves the names in a branch as they are. -/
@[simp]
lemma Branch.contains_linkWhere (known : String → Bool) (b : Branch) (n : String) :
    (Branch.linkWhere known b).contains n = b.contains n := by
  rw [Keyed.contains, Branch.keys_linkWhere]
  rfl

namespace Query

/-! ### Linking a query that is not complete -/

/-- The names that a ray of a main star may lead to: those of all stars. -/
def mainScope (q : Query) (n : String) : Bool :=
  q.stars.contains n || q.branches.any (·.contains n)

/-- The names that a ray in a branch may lead to: those in the branch and those of main stars. -/
def branchScope (main b : Branch) (n : String) : Bool := b.contains n || main.contains n

/-- Link the rays in a branch. -/
def linkBranch (main b : Branch) : Branch := Branch.linkWhere (branchScope main b) b

lemma stars_link (q : Query) : q.link.stars = Branch.linkWhere q.mainScope q.stars := rfl

lemma unions_link (q : Query) :
    q.link.unions = q.unions.map (List.map (linkBranch q.stars)) := rfl

/-- A linked query with further groups has the main scope that it would have without links. -/
lemma mainScope_append_link (q : Query) (groups : List (List Branch)) :
    mainScope ⟨q.link.stars, q.link.unions ++ groups⟩ =
      mainScope ⟨q.stars, q.unions ++ groups⟩ := by
  funext n
  simp [mainScope, branches, stars_link, unions_link, linkBranch, List.any_flatten, List.any_map,
    Function.comp_def]

/-- A branch is linked in the same way beside linked main stars. -/
lemma linkBranch_stars_link (q : Query) : linkBranch q.link.stars = linkBranch q.stars := by
  funext b
  have hscope : branchScope q.link.stars b = branchScope q.stars b := by
    funext n
    rw [branchScope, branchScope, stars_link, Branch.contains_linkWhere]
  rw [linkBranch, linkBranch, hscope]

/-- A linked branch stays as it is. -/
lemma linkBranch_linkBranch (main b : Branch) :
    linkBranch main (linkBranch main b) = linkBranch main b := by
  have hscope : branchScope main (linkBranch main b) = branchScope main b := by
    funext n
    rw [branchScope, branchScope, linkBranch, Branch.contains_linkWhere]
  rw [linkBranch, hscope, linkBranch]
  exact Branch.linkWhere_linkWhere (fun _ hn => hn) b

/-- **Linking early does no harm**: groups that join a linked query are linked with it as if it had
not been linked before. -/
theorem link_append (q : Query) (groups : List (List Branch)) :
    link ⟨q.link.stars, q.link.unions ++ groups⟩ = link ⟨q.stars, q.unions ++ groups⟩ := by
  have hgrows : ∀ n, q.mainScope n = true → mainScope ⟨q.stars, q.unions ++ groups⟩ n = true := by
    intro n hn
    simp only [mainScope, branches, List.flatten_append, List.any_append, Bool.or_eq_true] at hn ⊢
    exact hn.imp_right Or.inl
  have hstars : (link ⟨q.link.stars, q.link.unions ++ groups⟩).stars =
      (link ⟨q.stars, q.unions ++ groups⟩).stars := by
    rw [stars_link, mainScope_append_link]
    exact Branch.linkWhere_linkWhere hgrows q.stars
  have hunions : (link ⟨q.link.stars, q.link.unions ++ groups⟩).unions =
      (link ⟨q.stars, q.unions ++ groups⟩).unions := by
    have htwice : List.map (linkBranch q.stars) ∘ List.map (linkBranch q.stars) =
        List.map (linkBranch q.stars) := by
      funext group
      simp [Function.comp_def, linkBranch_linkBranch]
    rw [unions_link, unions_link, linkBranch_stars_link, unions_link, List.map_append,
      List.map_append, List.map_map, htwice]
  exact congrArg₂ mk hstars hunions

/-! ### Queries built group by group -/

/-- One more group joins a query with links as if all were linked at once. -/
lemma withUnion_new (stars : Branch) (unions : List (List Branch)) (group : List (List Star)) :
    (new stars unions).withUnion group = new stars (unions ++ [group.map Keyed.ofList]) :=
  link_append ⟨stars, unions⟩ [group.map Keyed.ofList]

lemma foldl_withUnion_new (stars : Branch) (unions : List (List Branch))
    (groups : List (List (List Star))) :
    groups.foldl withUnion (new stars unions) =
      new stars (unions ++ groups.map (List.map Keyed.ofList)) := by
  induction groups generalizing unions with
  | nil => rw [List.foldl_nil, List.map_nil, List.append_nil]
  | cons group groups ih =>
      rw [List.foldl_cons, withUnion_new, ih, List.append_assoc, List.map_cons]
      rfl

/-- The rays of a query lead where their scopes say, given its main stars and its groups: a ray of
a main star to main stars and to those of any branch, a ray in a branch to the stars of this branch
and to main stars. -/
structure LinksOf (q : Query) (stars : List Star) (groups : List (List (List Star))) : Prop where
  /-- The main stars are linked in the scope of the whole query. -/
  main : Branch.LinkedIn {n | n ∈ stars.map Star.name ∨
    ∃ group ∈ groups, ∃ b ∈ group, n ∈ b.map Star.name} (.ofList stars) q.stars
  /-- The stars of each branch are linked in the scope of the branch. -/
  branches : List.Forall₂ (List.Forall₂ fun b b' => Branch.LinkedIn
    {n | n ∈ b.map Star.name ∨ n ∈ stars.map Star.name} (.ofList b) b') groups q.unions

lemma contains_ofList {b : List Star} {n : String} :
    (Keyed.ofList b : Branch).contains n = true ↔ n ∈ b.map Star.name := by
  rw [Keyed.contains_iff_mem, Keyed.keys_ofList, mem_distinct]

/-- A query of all groups at once has the links that it should. -/
lemma linksOf_new (stars : List Star) (groups : List (List (List Star))) :
    (new (.ofList stars) (groups.map (List.map Keyed.ofList))).LinksOf stars groups where
  main := by
    refine Branch.linkedIn_linkWhere (fun n => ?_) (.ofList stars)
    simp only [Query.branches, Bool.or_eq_true, contains_ofList, List.any_flatten, List.any_map,
      List.any_eq_true, Function.comp_apply, Set.mem_ofPred_eq]
  branches := by
    rw [new, unions_link, List.map_map, List.forall₂_map_right_iff, List.forall₂_same]
    intro group _
    rw [Function.comp_apply, List.map_map, List.forall₂_map_right_iff, List.forall₂_same]
    intro b _
    refine Branch.linkedIn_linkWhere (fun n => ?_) (.ofList b)
    rw [branchScope, Bool.or_eq_true, contains_ofList, contains_ofList, Set.mem_ofPred_eq]

/-- **Links do not depend on how a query is built.** To give the UNION groups one after the other
comes to the same query as to give all at once; its rays lead where their scopes say; and to link
it again changes nothing. -/
theorem foldl_withUnion_ofStars (stars : List Star) (groups : List (List (List Star))) :
    groups.foldl withUnion (ofStars stars) =
        new (.ofList stars) (groups.map (List.map Keyed.ofList)) ∧
      (groups.foldl withUnion (ofStars stars)).LinksOf stars groups ∧
        (groups.foldl withUnion (ofStars stars)).link = groups.foldl withUnion (ofStars stars) := by
  have hnew : groups.foldl withUnion (ofStars stars) =
      new (.ofList stars) (groups.map (List.map Keyed.ofList)) :=
    foldl_withUnion_new (.ofList stars) [] groups
  rw [hnew]
  refine ⟨rfl, linksOf_new stars groups, ?_⟩
  simpa [new] using link_append ⟨.ofList stars, groups.map (List.map Keyed.ofList)⟩ []

end Query

end StarShapes
