import StarShapes.Text.Pieces

/-!
Paths, and where relative paths lead.

* `Directory`: the segments that a path goes through. `Directory.ofPath` leaves out the last segment
  of a path, `Directory.text` writes a slash after every segment.
* `Directory.enter`: a segment of one dot leads nowhere and one of two dots leads back. The root is
  never left by a path that has to start there.
* `Directory.follow`: where a path leads. Without dots it is simply appended
  (`Directory.follow_of_not_isDots`).
-/

namespace StarShapes

/-- The segments that a path goes through, from the first to the last. -/
abbrev Directory : Type := List (List Char)

namespace Directory

/-- The directory that a path ends in. -/
def ofPath (path : List Char) : Directory := (pieces '/' path).dropLast

/-- The text of a directory. -/
def text (d : Directory) : List Char := d.flatMap (· ++ ['/'])

/-- Whether a segment consists of one or two dots. -/
def isDots (segment : List Char) : Bool := segment = ['.'] || segment = ['.', '.']

/-- The directory without its last segment; one that has to start at the root keeps its first. -/
def parent (rooted : Bool) (d : Directory) : Directory :=
  if rooted && d.length ≤ 1 then d else d.dropLast

/-- The directory that a segment leads to. -/
def enter (rooted : Bool) (d : Directory) (segment : List Char) : Directory :=
  if segment = ['.'] then d
  else if segment = ['.', '.'] then d.parent rooted
  else d ++ [segment]

/-- The path that some segments lead to; the last one has no slash after it. -/
def follow (rooted : Bool) (d : Directory) : List (List Char) → List Char
  | [] => d.text
  | [last] => if isDots last then (d.enter rooted last).text else d.text ++ last
  | segment :: next :: rest => follow rooted (d.enter rooted segment) (next :: rest)

/-- Segments without dots are appended. -/
theorem follow_of_not_isDots {rooted : Bool} {d : Directory} {segments : List (List Char)}
    (h : ∀ s ∈ segments, isDots s = false) :
    follow rooted d segments = d.text ++ ['/'].intercalate segments := by
  fun_induction follow rooted d segments with
  | case1 d => simp [List.intercalate]
  | case2 d last hl => simp [h last (by simp)] at hl
  | case3 d last _ => simp [List.intercalate]
  | case4 d segment next rest ih =>
    have hs := h segment (by simp)
    simp only [isDots, Bool.or_eq_false_iff, decide_eq_false_iff_not] at hs
    rw [ih fun s hm => h s (List.mem_cons_of_mem _ hm)]
    simp [enter, hs.1, hs.2, text, List.intercalate, List.intersperse]

/-- A path without segments of dots leads to itself. -/
theorem follow_pieces {rooted : Bool} {path : List Char}
    (h : ∀ s ∈ pieces '/' path, isDots s = false) :
    follow rooted [] (pieces '/' path) = path := by
  rw [follow_of_not_isDots h, intercalate_pieces]
  rfl

end Directory

end StarShapes
