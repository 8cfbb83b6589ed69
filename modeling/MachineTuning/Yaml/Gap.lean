import MachineTuning.Yaml.Cursor

namespace MachineTuning.Yaml

/-!
# Gaps — blanks and line breaks inside a text

A text that runs over several lines is folded: a single line break stands for a space, further
ones for themselves, and the blanks around them for nothing.  `Gap.take?` reads a gap and
`Gap.folded` says what it stands for.
-/

/-- A gap between the words of a text. -/
structure Gap where
  /-- The blanks in front of the first break. -/
  blanks : List Char
  /-- The breaks, as the characters that they stand for. -/
  breaks : List Char

namespace Gap

/-- The breaks that come next, blanks between them passed over.  A tab left of column `floor` is
    refused. -/
def takeBreaks? (floor : Int) : List Char → Mark → Option (List Char × Cursor)
  | [], mark => some ([], ⟨[], mark⟩)
  | '\r' :: '\n' :: cs, mark => do
    let (breaks, cur) ← takeBreaks? floor cs (mark.nextLine 2)
    some ('\n' :: breaks, cur)
  | c :: cs, mark =>
    if isBreak c then do
      let (breaks, cur) ← takeBreaks? floor cs (mark.nextLine c.utf8Size)
      some (breakChar c :: breaks, cur)
    else if isBlank c then
      if c = '\t' ∧ mark.column < floor then none else takeBreaks? floor cs (mark.next c)
    else some ([], ⟨c :: cs, mark⟩)

/-- The gap that stands here. -/
def take? (floor : Int) (cur : Cursor) : Option (Gap × Cursor) := do
  let (blanks, cur) := cur.takeWhile isBlank
  let (breaks, cur) ← takeBreaks? floor cur.rest cur.mark
  some (⟨blanks, breaks⟩, cur)

/-- What the breaks of a gap stand for. -/
def foldedBreaks : List Char → List Char
  | [] => []
  | c :: rest =>
    if c = '\n' then
      if rest.isEmpty then [' '] else rest
    else c :: rest

/-- What a gap stands for inside a text. -/
def folded (gap : Gap) : List Char :=
  if gap.breaks.isEmpty then gap.blanks else foldedBreaks gap.breaks

end Gap

end MachineTuning.Yaml
