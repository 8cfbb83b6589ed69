import MachineTuning.Yaml.Cursor

namespace MachineTuning.Yaml

/-!
# Block scalars — texts that stand on lines of their own

A bar keeps the line breaks of the lines below it, an angle bracket folds them.  The header may
give the indentation of the lines and say what becomes of the breaks at the end.
-/

namespace BlockScalar

/-- What becomes of the line breaks at the end of a text. -/
inductive Chomping where
  /-- All are dropped. -/
  | strip
  /-- One stays. -/
  | clip
  /-- All stay. -/
  | keep
  deriving DecidableEq

/-- The chomping that a header asks for here. -/
def chomping? (cur : Cursor) : Option (Chomping × Cursor) :=
  match cur.rest.head? with
  | some '+' => some (.keep, cur.skip 1)
  | some '-' => some (.strip, cur.skip 1)
  | _ => none

/-- The indentation that a header gives here, if a digit stands here.  Zero is refused. -/
def increment? (cur : Cursor) : Option (Option Nat × Cursor) :=
  match cur.rest.head? with
  | some c =>
    if c = '0' then none
    else if c.isDigit then some (some (c.toNat - '0'.toNat), cur.skip 1)
    else some (none, cur)
  | none => some (none, cur)

/-- The chomping and the indentation of a header, in either order, and the place where the
    first line below it starts. -/
def header? (cur : Cursor) : Option (Chomping × Option Nat × Cursor) := do
  let (chomping, increment, cur) ← match chomping? cur with
    | some (chomping, cur) => do
      let (increment, cur) ← increment? cur
      some (chomping, increment, cur)
    | none => do
      let (increment, cur) ← increment? cur
      match increment, chomping? cur with
      | some _, some (chomping, cur) => some (chomping, increment, cur)
      | _, _ => some (.clip, increment, cur)
  let cur := cur.skipBlanks
  let cur := if cur.rest.head? = some '#' then cur.skipLine else cur
  if atLineEnd cur.rest then some (chomping, increment, cur.skipBreak) else none

/-- The place behind the spaces that indent a line to column `limit`, or behind all of them if
    there is no limit. -/
def skipIndent (limit : Option Nat) : List Char → Mark → Cursor
  | ' ' :: cs, mark =>
    if limit.all (mark.column < ·) then skipIndent limit cs (mark.next ' ') else ⟨' ' :: cs, mark⟩
  | cs, mark => ⟨cs, mark⟩

/-- The empty lines that come next: their breaks, the greatest indentation among them and of the
    line behind them, and the place where that line's content starts.  A tab in the indentation
    is refused. -/
def emptyLines? (limit : Option Nat) : Nat → Cursor → Option (List Char × Nat × Cursor)
  | 0, _ => none
  | fuel + 1, cur => do
    let cur := skipIndent limit cur.rest cur.mark
    if limit.all (cur.mark.column < ·) ∧ cur.rest.head? = some '\t' then none
    match cur.takeBreak? with
    | none => some ([], cur.mark.column, cur)
    | some (c, following) =>
      let (breaks, widest, following) ← emptyLines? limit fuel following
      some (c :: breaks, max cur.mark.column widest, following)

/-- The line breaks that stay at the end of a text: `pending` is the break behind its last line,
    `breaks` are those of the empty lines behind that. -/
def lastBreaks (pending breaks : List Char) : Chomping → List Char
  | .strip => []
  | .clip => pending
  | .keep => pending ++ breaks

/-- What stands for the breaks between two lines.  A folded text joins two lines that do not
    start with a blank by a space, or by the breaks of the empty lines between them. -/
def joint (folds : Bool) (pending breaks : List Char) : List Char :=
  if folds ∧ pending = ['\n'] then
    if breaks.isEmpty then [' '] else breaks
  else pending ++ breaks

/-- The text of the lines from here on.  `pending` is the break behind the line before, `blank`
    whether that line started with a blank, and `breaks` the breaks of the empty lines in
    between. -/
def lines? (folds : Bool) (chomping : Chomping) (indent : Nat) :
    Nat → (pending : List Char) → (blank : Bool) → (breaks : List Char) → Cursor →
      Option (List Char × Cursor)
  | 0, _, _, _, _ => none
  | fuel + 1, pending, blank, breaks, cur =>
    if cur.rest.isEmpty ∨ cur.mark.column ≠ indent then
      some (lastBreaks pending breaks chomping, cur)
    else do
      -- Lines that start with a blank are not folded.
      let startsBlank := cur.rest.head?.any isBlank
      let (line, cur) := cur.takeWhile fun c => !isBreak c
      let (nextPending, cur) : List Char × Cursor := match cur.takeBreak? with
        | some (c, cur) => ([c], cur)
        | none => ([], cur)
      let (nextBreaks, _, cur) ← emptyLines? (some indent) fuel cur
      let (text, cur) ← lines? folds chomping indent fuel nextPending startsBlank nextBreaks cur
      some (joint (folds && !blank && !startsBlank) pending breaks ++ line ++ text, cur)

/-- The text of the block scalar that starts here with its indicator, where the block around it
    is indented to `outer`. -/
def take? (folds : Bool) (outer : Int) (cur : Cursor) : Option (List Char × Cursor) := do
  let fuel := cur.rest.length + 2
  let (chomping, increment, cur) ← header? (cur.skip 1)
  -- An indentation in the header counts from the block around.
  let limit := increment.map fun n => (max outer 0).toNat + n
  let (breaks, widest, cur) ← emptyLines? limit fuel cur
  -- Without one, the widest of the lines up to the first with content says it.
  let indent := limit.getD (max widest (max (outer + 1).toNat 1))
  lines? folds chomping indent fuel [] false breaks cur

end BlockScalar

end MachineTuning.Yaml
