import StarShapes.Text.Parser
import StarShapes.Text.Pieces

/-!
Language tags: subtags with hyphens between them, in a fixed order of kinds.

* `LanguageTag.Stage`: what has been read of a tag. `LanguageTag.next?` says which subtags may
  follow, `LanguageTag.Stage.isComplete` where a tag may end.
* `isLanguageTag`: whether a text is a tag; some tags of old are allowed as they are, and tags of
  private use start with `x`.
* `Parser.languageTag`: a tag after its at sign, in small letters.
-/

namespace StarShapes

namespace LanguageTag

/-- Tags that were registered before there was an order of subtags, in small letters. -/
def grandfathered : List String :=
  ["art-lojban", "cel-gaulish", "en-gb-oed", "i-ami", "i-bnn", "i-default", "i-enochian", "i-hak",
    "i-klingon", "i-lux", "i-mingo", "i-navajo", "i-pwn", "i-tao", "i-tay", "i-tsu", "no-bok",
    "no-nyn", "sgn-be-fr", "sgn-be-nl", "sgn-ch-de", "zh-guoyu", "zh-hakka", "zh-min",
    "zh-min-nan", "zh-xiang"]

/-- What has been read of a tag. -/
inductive Stage where
  /-- A short language and some extensions of it. -/
  | language (extensions : Nat)
  /-- A language that cannot be extended. -/
  | longLanguage
  /-- A script. -/
  | script
  /-- A region or a variant. -/
  | region
  /-- A letter or digit that announces an extension, and maybe a part of it. -/
  | extended (isEmpty : Bool)
  /-- The mark of private use, and maybe a part of it. -/
  | privateUse (isEmpty : Bool)
  deriving DecidableEq, Repr

/-- Whether a tag may end here: what is announced has to follow. -/
def Stage.isComplete : Stage → Bool
  | extended isEmpty => !isEmpty
  | privateUse isEmpty => !isEmpty
  | _ => true

/-- Whether a script may follow. -/
def Stage.isBeforeScript : Stage → Bool
  | language _ | longLanguage => true
  | _ => false

/-- Whether a region may follow. -/
def Stage.isBeforeRegion : Stage → Bool
  | language _ | longLanguage | script => true
  | _ => false

/-- A variant: at least five characters, or four of which the first is a digit. -/
def isVariant (subtag : List Char) : Bool :=
  subtag.all Char.isAlphanum && match subtag with
    | c :: rest => (rest.length ≥ 4 && c.isAlpha) || (rest.length ≥ 3 && c.isDigit)
    | [] => false

/-- A region: two letters or three digits. -/
def isRegion (subtag : List Char) : Bool :=
  (subtag.length = 2 && subtag.all Char.isAlpha) || (subtag.length = 3 && subtag.all Char.isDigit)

/-- Whether a subtag is the mark of private use. -/
def isPrivateMark (subtag : List Char) : Bool := subtag = ['x'] || subtag = ['X']

/-- The stage after the first subtag, which is the language or the mark of private use. -/
def start? (subtag : List Char) : Option Stage :=
  if isPrivateMark subtag then some (.privateUse true)
  else if 2 ≤ subtag.length ∧ subtag.length ≤ 8 ∧ subtag.all Char.isAlpha then
    some (if subtag.length < 4 then .language 0 else .longLanguage)
  else none

/-- The stage after one more subtag. -/
def next? (stage : Stage) (subtag : List Char) : Option Stage :=
  if subtag.isEmpty || subtag.length > 8 || !subtag.all Char.isAlphanum then none
  else match stage with
    | .privateUse _ => some (.privateUse false)
    | .extended true => if subtag.length = 1 then none else some (.extended false)
    | stage =>
      if isPrivateMark subtag then some (.privateUse true)
      else if subtag.length = 1 then some (.extended true)
      else match stage with
        | .extended _ => some (.extended false)
        | stage =>
          if subtag.length = 3 && subtag.all Char.isAlpha then
            match stage with
            | .language n => if n < 3 then some (.language (n + 1)) else none
            | _ => none
          else if stage.isBeforeScript && subtag.length = 4 && subtag.all Char.isAlpha then
            some .script
          else if stage.isBeforeRegion && isRegion subtag then some .region
          else if isVariant subtag then some .region
          else none

/-- Whether the subtags are those of a tag. -/
def isOrdered : List (List Char) → Bool
  | [] => false
  | first :: rest => ((start? first).bind fun s => rest.foldlM next? s).any Stage.isComplete

end LanguageTag

/-- Whether a text is a language tag. -/
def isLanguageTag (tag : List Char) : Bool :=
  LanguageTag.grandfathered.contains (String.ofList (tag.map Char.toLower)) ||
    LanguageTag.isOrdered (pieces '-' tag)

/-- A language tag after its at sign, in small letters. -/
def Parser.languageTag {σ : Type} : Parser σ String := do
  text "@"
  let first ← takeWhile1 Char.isAlpha
  let rest ← many do
    text "-"
    let cs ← takeWhile1 Char.isAlphanum
    pure ('-' :: cs)
  let tag := (first ++ rest.flatten).map Char.toLower
  guard (isLanguageTag tag)
  pure (String.ofList tag)

end StarShapes
