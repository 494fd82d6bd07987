import StarShapes.Rdf.DotSegments
import StarShapes.Text.Escape
import StarShapes.Text.Ranges

/-!
IRIs and references to them.

* `IriReference`: the parts of a reference, of which only the path is always there.
  `IriReference.ofText` takes a text apart and `IriReference.text` puts it together
  (`text_ofText`).
* `IriReference.isValid`: whether each part holds only what it may hold.
* `IriReference.resolve?`: what a reference means beside a base. Of a path that goes on from the
  base, the segments of dots are resolved; what the base contributes stays as it is, and so does a
  reference with a scheme or an authority of its own.
* `readIri?`: the IRI that a text stands for; without a base it has to have a scheme.
-/

namespace StarShapes

/-- The parts of a reference to an IRI. -/
structure IriReference where
  /-- The scheme, without its colon. -/
  scheme? : Option (List Char)
  /-- The authority, without the two slashes before it. -/
  authority? : Option (List Char)
  /-- The path. -/
  path : List Char
  /-- The query, without its question mark. -/
  query? : Option (List Char)
  /-- The fragment, without its number sign. -/
  fragment? : Option (List Char)
  deriving DecidableEq, Repr

namespace IriReference

/-! ### Parts and text -/

/-- A character of a scheme; the first one has to be a letter. -/
def isSchemeChar (c : Char) : Bool := c.isAlphanum || c = '+' || c = '-' || c = '.'

/-- Take off the scheme, if there is one. -/
def splitScheme (cs : List Char) : Option (List Char) × List Char :=
  match cs.takeWhile isSchemeChar, cs.dropWhile isSchemeChar with
  | c :: s, ':' :: rest => if c.isAlpha then (some (c :: s), rest) else (none, cs)
  | _, _ => (none, cs)

/-- Take off the authority, if there is one; it goes up to the next slash, question mark or number
sign. -/
def splitAuthority : List Char → Option (List Char) × List Char
  | '/' :: '/' :: cs =>
    (some (cs.takeWhile fun c => c ≠ '/' ∧ c ≠ '?' ∧ c ≠ '#'),
      cs.dropWhile fun c => c ≠ '/' ∧ c ≠ '?' ∧ c ≠ '#')
  | cs => (none, cs)

/-- The query and the fragment of what follows a path. -/
def splitTail : List Char → Option (List Char) × Option (List Char)
  | '?' :: cs =>
    match cs.dropWhile (· ≠ '#') with
    | '#' :: fragment => (some (cs.takeWhile (· ≠ '#')), some fragment)
    | _ => (some (cs.takeWhile (· ≠ '#')), none)
  | '#' :: cs => (none, some cs)
  | _ => (none, none)

/-- The parts of a text. -/
def ofText (cs : List Char) : IriReference :=
  let afterScheme := (splitScheme cs).2
  let afterAuthority := (splitAuthority afterScheme).2
  let tail := splitTail (afterAuthority.dropWhile fun c => c ≠ '?' ∧ c ≠ '#')
  { scheme? := (splitScheme cs).1
    authority? := (splitAuthority afterScheme).1
    path := afterAuthority.takeWhile fun c => c ≠ '?' ∧ c ≠ '#'
    query? := tail.1
    fragment? := tail.2 }

/-- A part with the characters that come before it. -/
def marked (mark : List Char) : Option (List Char) → List Char
  | some part => mark ++ part
  | none => []

/-- The scheme with its colon. -/
def schemeText : Option (List Char) → List Char
  | some scheme => scheme ++ [':']
  | none => []

/-- The text of a reference. -/
def text (r : IriReference) : List Char :=
  schemeText r.scheme? ++ marked ['/', '/'] r.authority? ++ r.path ++ marked ['?'] r.query? ++
    marked ['#'] r.fragment?

/-- What is left after a run of characters of a class does not start with one. -/
theorem false_of_dropWhile_eq_cons {p : Char → Bool} {cs rest : List Char} {c : Char}
    (h : cs.dropWhile p = c :: rest) : p c = false := by
  induction cs with
  | nil => cases h
  | cons d ds ih =>
    by_cases hp : p d = true
    · exact ih (by simpa [List.dropWhile_cons, hp] using h)
    · rw [List.dropWhile_cons, if_neg hp] at h
      cases h
      simpa using hp

theorem schemeText_splitScheme (cs : List Char) :
    schemeText (splitScheme cs).1 ++ (splitScheme cs).2 = cs := by
  unfold splitScheme
  split
  · rename_i c s rest hs hr
    split
    · rw [← List.takeWhile_append_dropWhile (p := isSchemeChar) (l := cs), hs, hr]
      simp [schemeText]
    · simp [schemeText]
  · simp [schemeText]

theorem marked_splitAuthority (cs : List Char) :
    marked ['/', '/'] (splitAuthority cs).1 ++ (splitAuthority cs).2 = cs := by
  unfold splitAuthority
  split
  · simp [marked]
  · simp [marked]

theorem marked_splitTail (cs : List Char) :
    marked ['?'] (splitTail (cs.dropWhile fun c => c ≠ '?' ∧ c ≠ '#')).1 ++
      marked ['#'] (splitTail (cs.dropWhile fun c => c ≠ '?' ∧ c ≠ '#')).2 =
      cs.dropWhile fun c => c ≠ '?' ∧ c ≠ '#' := by
  generalize ht : (cs.dropWhile fun c => decide (c ≠ '?' ∧ c ≠ '#')) = t
  unfold splitTail
  split
  · rename_i q
    have hq := List.takeWhile_append_dropWhile (p := (· ≠ '#')) (l := q)
    split
    · rename_i f hf
      rw [hf] at hq
      simp only [marked, List.cons_append, List.nil_append, hq]
    · rename_i hf
      cases hd : q.dropWhile (· ≠ '#') with
      | nil =>
        rw [hd] at hq
        simpa [marked] using hq
      | cons c rest =>
        have hc : c = '#' := by simpa using false_of_dropWhile_eq_cons hd
        exact absurd hd (by rw [hc]; exact hf rest)
  · simp [marked]
  · rename_i h1 h2
    cases t with
    | nil => rfl
    | cons c rest =>
      have hc := false_of_dropWhile_eq_cons ht
      by_cases hq : c = '?'
      · exact absurd (by rw [hq]) (h1 rest)
      · exact absurd (by rw [show c = '#' by simpa [hq] using hc]) (h2 rest)

/-- The parts of a text make up the text. -/
theorem text_ofText (cs : List Char) : (ofText cs).text = cs := by
  have hs := schemeText_splitScheme cs
  have ha := marked_splitAuthority (splitScheme cs).2
  have hp := List.takeWhile_append_dropWhile (p := fun c => decide (c ≠ '?' ∧ c ≠ '#'))
    (l := (splitAuthority (splitScheme cs).2).2)
  have ht := marked_splitTail (splitAuthority (splitScheme cs).2).2
  simp only [text, ofText, List.append_assoc]
  rw [ht, hp, ha, hs]

/-! ### Validity -/

/-- A character that has no meaning of its own in an IRI, beyond ASCII. -/
def isWideChar (c : Char) : Bool :=
  inRanges [(0xA0, 0xD7FF), (0xF900, 0xFDCF), (0xFDF0, 0xFFEF), (0x10000, 0x1FFFD),
    (0x20000, 0x2FFFD), (0x30000, 0x3FFFD), (0x40000, 0x4FFFD), (0x50000, 0x5FFFD),
    (0x60000, 0x6FFFD), (0x70000, 0x7FFFD), (0x80000, 0x8FFFD), (0x90000, 0x9FFFD),
    (0xA0000, 0xAFFFD), (0xB0000, 0xBFFFD), (0xC0000, 0xCFFFD), (0xD0000, 0xDFFFD),
    (0xE1000, 0xEFFFD)] c

/-- A character that may stand in every part after the scheme. -/
def isCommonChar (c : Char) : Bool :=
  c.isAlphanum || "!$&'()*+,-.;=_~".toList.contains c || isWideChar c

/-- A character for private use, which may stand in a query. -/
def isPrivateChar (c : Char) : Bool :=
  inRanges [(0xE000, 0xF8FF), (0xF0000, 0xFFFFD), (0x100000, 0x10FFFD)] c

/-- Whether a part holds only common characters, some further ones and percent signs with two
hexadecimal digits. -/
def holdsOnly (further : Char → Bool) : List Char → Bool
  | [] => true
  | '%' :: a :: b :: cs => isHex a && isHex b && holdsOnly further cs
  | c :: cs => c ≠ '%' && (isCommonChar c || further c) && holdsOnly further cs

/-- A decimal number up to 255 without leading zeros. -/
def isByte (cs : List Char) : Bool :=
  !cs.isEmpty && cs.length ≤ 3 && cs.all Char.isDigit && (cs.length = 1 || cs.head? ≠ some '0') &&
    cs.foldl (fun n c => 10 * n + (c.toNat - '0'.toNat)) 0 ≤ 255

/-- An address of four bytes. -/
def isFourBytes (cs : List Char) : Bool :=
  (pieces '.' cs).length = 4 && (pieces '.' cs).all isByte

/-- The number of 16-bit groups of a part of an address; an address of four bytes may come last and
counts twice. -/
def countGroups? (bytesAllowed : Bool) : List (List Char) → Option Nat
  | [] => some 0
  | g :: gs =>
    if !g.isEmpty && g.length ≤ 4 && g.all isHex then (countGroups? bytesAllowed gs).map (· + 1)
    else if bytesAllowed && gs.isEmpty && isFourBytes g then some 2
    else none

/-- The number of groups of a text that may be empty. -/
def groupsOf? (bytesAllowed : Bool) (cs : List Char) : Option Nat :=
  if cs.isEmpty then some 0 else countGroups? bytesAllowed (pieces ':' cs)

/-- The texts before and after the first two colons in a row. -/
def splitGap : List Char → Option (List Char × List Char)
  | ':' :: ':' :: cs => some ([], cs)
  | c :: cs => (splitGap cs).map fun (before, after) => (c :: before, after)
  | [] => none

/-- An address of eight groups of hexadecimal digits, of which two colons may stand for some. -/
def isEightGroups (cs : List Char) : Bool :=
  match splitGap cs with
  | some (before, after) =>
    match groupsOf? false before, groupsOf? true after with
    | some m, some n => m + n ≤ 7
    | _, _ => false
  | none => countGroups? true (pieces ':' cs) = some 8

/-- What may stand between the brackets of a host. -/
def isBracketedHost : List Char → Bool
  | c :: cs =>
    if c = 'v' || c = 'V' then
      match cs.span isHex with
      | (_ :: _, '.' :: rest) =>
        !rest.isEmpty && rest.all fun c => c = ':' || (isCommonChar c && c.toNat < 128)
      | _ => false
    else isEightGroups (c :: cs)
  | [] => false

/-- What may follow a host: nothing, or a colon and digits. -/
def isAfterHost : List Char → Bool
  | [] => true
  | ':' :: digits => digits.all Char.isDigit
  | _ => false

/-- Whether an authority without a user is valid: a host and maybe a number. -/
def isHostAndNumber : List Char → Bool
  | '[' :: cs =>
    match cs.dropWhile (· ≠ ']') with
    | ']' :: rest => isBracketedHost (cs.takeWhile (· ≠ ']')) && isAfterHost rest
    | _ => false
  | cs =>
    holdsOnly (fun _ => false) (cs.takeWhile (· ≠ ':')) && isAfterHost (cs.dropWhile (· ≠ ':'))

/-- Whether an authority is valid; a user may come before an at sign. -/
def isAuthority (cs : List Char) : Bool :=
  match cs.dropWhile (· ≠ '@') with
  | '@' :: host => holdsOnly (· = ':') (cs.takeWhile (· ≠ '@')) && isHostAndNumber host
  | _ => isHostAndNumber cs

/-- Whether every part is valid. Without a scheme, there is no colon in the first segment of the
path, for what is before it would have to be a scheme. -/
def isValid (r : IriReference) : Bool :=
  (r.scheme?.isSome || !(r.path.takeWhile (· ≠ '/')).contains ':') &&
    r.authority?.all isAuthority &&
    holdsOnly (fun c => c = ':' || c = '@' || c = '/') r.path &&
    r.query?.all (holdsOnly fun c => ":@/?".toList.contains c || isPrivateChar c) &&
    r.fragment?.all (holdsOnly fun c => ":@/?".toList.contains c)

/-! ### Resolution -/

/-- The directory where a relative path goes on. -/
def directory (base : IriReference) : Directory :=
  let d := Directory.ofPath base.path
  if d.isEmpty && base.authority?.isSome then [[]] else d

/-- The path that a path leads to beside a base. Nothing leads out of the root of an authority. -/
def goTo (base : IriReference) (path : List Char) : List Char :=
  let start : Directory := if path.head? = some '/' then [] else base.directory
  start.follow base.authority?.isSome (pieces '/' path)

/-- What a reference means beside a base. A path that starts with two slashes cannot come without an
authority, for it would be read as one. -/
def resolve? (base r : IriReference) : Option IriReference :=
  if r.scheme?.isSome then some r
  else if r.authority?.isSome then some { r with scheme? := base.scheme? }
  else if r.path.isEmpty then
    some { base with query? := r.query? <|> base.query?, fragment? := r.fragment? }
  else
    let path := base.goTo r.path
    if base.authority?.isNone && path.take 2 = ['/', '/'] then none
    else some { r with scheme? := base.scheme?, authority? := base.authority?, path := path }

/-- A reference resolved beside an absolute base is absolute. -/
theorem isSome_scheme?_of_resolve? {base r r' : IriReference} (hb : base.scheme?.isSome = true)
    (h : resolve? base r = some r') : r'.scheme?.isSome = true := by
  unfold resolve? at h
  split at h
  · cases h; assumption
  · split at h
    · cases h; exact hb
    · split at h
      · cases h; exact hb
      · dsimp only at h
        split at h
        · cases h
        · cases h; exact hb

end IriReference

/-- The IRI that a text stands for beside a base; without a base the text has to have a scheme and
is left as it is. -/
def readIri? (base? : Option IriReference) (cs : List Char) : Option IriReference :=
  let r := IriReference.ofText cs
  if !r.isValid then none
  else
    match base? with
    | some base => base.resolve? r
    | none => if r.scheme?.isSome then some r else none

/-- What is read beside an absolute base, or without one, is absolute. -/
theorem isSome_scheme?_readIri? {base? : Option IriReference} {cs : List Char} {r : IriReference}
    (hb : ∀ base ∈ base?, base.scheme?.isSome = true) (h : readIri? base? cs = some r) :
    r.scheme?.isSome = true := by
  unfold readIri? at h
  dsimp only at h
  split at h
  · cases h
  · cases base? with
    | some base =>
      exact IriReference.isSome_scheme?_of_resolve? (hb base rfl) h
    | none =>
      dsimp only at h
      split at h
      · cases h; assumption
      · cases h

end StarShapes
