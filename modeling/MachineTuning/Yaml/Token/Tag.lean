import MachineTuning.Text.Hexadecimal
import MachineTuning.Text.Utf8
import MachineTuning.Yaml.Token

namespace MachineTuning.Yaml

/-!
# Tags, names and directives

A node may carry a tag that names its type and an anchor that other nodes refer to; a document
may start with directives that set the version of the format and abbreviate tags.
-/

namespace Tag

/-- The characters of a tag besides those of names. -/
def isTagChar (verbatim : Bool) (c : Char) : Bool :=
  isNameChar c || ";/?:@&=+$.!~*'()".toList.contains c || (verbatim && ",[]".toList.contains c)

/-- The number of bytes of a character by its first byte. -/
def byteWidth? (b : Nat) : Option Nat :=
  if b < 0x80 then some 1
  else if 0xC0 ≤ b ∧ b < 0xE0 then some 2
  else if 0xE0 ≤ b ∧ b < 0xF0 then some 3
  else if 0xF0 ≤ b ∧ b < 0xF8 then some 4
  else none

/-- A byte written as a percent sign and two hexadecimal digits. -/
def escapedByte? (cur : Cursor) : Option (Nat × Cursor) :=
  match cur.rest with
  | '%' :: a :: b :: _ => do some (← Text.hexValue? [a, b], cur.skip 3)
  | _ => none

/-- Bytes behind the first of a character. -/
def followingBytes? : Nat → Cursor → Option (List Nat × Cursor)
  | 0, cur => some ([], cur)
  | n + 1, cur => do
    let (b, cur) ← escapedByte? cur
    if b < 0x80 ∨ 0xC0 ≤ b then none
    let (bytes, cur) ← followingBytes? n cur
    some (b :: bytes, cur)

/-- A character written as escaped bytes. -/
def escapedChar? (cur : Cursor) : Option (Char × Cursor) := do
  let (b, cur) ← escapedByte? cur
  let width ← byteWidth? b
  let (bytes, cur) ← followingBytes? (width - 1) cur
  let text := Text.ofUtf8? ((b :: bytes).map UInt8.ofNat)
  some ((text.bind (·.toList.head?)).getD '\ufffd', cur)

/-- The characters of a tag that come next. -/
def chars? (verbatim : Bool) : Nat → Cursor → Option (List Char × Cursor)
  | 0, _ => none
  | fuel + 1, cur =>
    match cur.rest with
    | c :: _ =>
      if c = '%' then do
        let (c, cur) ← escapedChar? cur
        let (cs, cur) ← chars? verbatim fuel cur
        some (c :: cs, cur)
      else if isTagChar verbatim c then do
        let (cs, cur) ← chars? verbatim fuel (cur.skip 1)
        some (c :: cs, cur)
      else some ([], cur)
    | [] => some ([], cur)

/-- The characters of a tag that come next, at least one of them. -/
def someChars? (verbatim : Bool) (cur : Cursor) : Option (List Char × Cursor) := do
  let (cs, cur) ← chars? verbatim (cur.rest.length + 1) cur
  if cs.isEmpty then none else some (cs, cur)

/-- What counts of the text of a tag: it ends at the first null character. -/
def effective (cs : List Char) : List Char :=
  cs.takeWhile (· ≠ '\x00')

/-- An exclamation mark, a name and, if it stands there, another exclamation mark. -/
def handle? (cur : Cursor) : Option (List Char × Cursor) := do
  if cur.rest.head? ≠ some '!' then none
  let (name, cur) := (cur.skip 1).takeWhile isNameChar
  if cur.rest.head? = some '!' then some ('!' :: name ++ ['!'], cur.skip 1)
  else some ('!' :: name, cur)

/-- Whether a handle is delimited on both sides. -/
def isClosed (handle : List Char) : Bool :=
  1 < handle.length && handle.getLast? = some '!'

/-- The tag that starts here.  A verbatim tag, and the single exclamation mark, have an empty
    handle. -/
def take? (inFlow : Bool) (cur : Cursor) : Option (TokenKind × Cursor) := do
  let (handle, rest, cur) ←
    if ['!', '<'].isPrefixOf cur.rest then do
      let (rest, cur) ← someChars? true (cur.skip 2)
      if cur.rest.head? ≠ some '>' then none
      some ([], effective rest, cur.skip 1)
    else do
      let (handle, cur) ← handle? cur
      if isClosed handle then do
        let (rest, cur) ← someChars? false cur
        some (handle, effective rest, cur)
      else do
        let (more, cur) ← chars? false (cur.rest.length + 1) cur
        let rest := handle.drop 1 ++ effective more
        some (if rest.isEmpty then ([], ['!'], cur) else (['!'], rest, cur))
  if atGap cur.rest ∨ (inFlow ∧ cur.rest.head? = some ',') then some (.tag handle rest, cur)
  else none

end Tag

/-- The name of an anchor or an alias, behind its indicator. -/
def anchorName? (cur : Cursor) : Option (List Char × Cursor) := do
  let (name, cur) := cur.takeWhile isNameChar
  if name.isEmpty then none
  if atGap cur.rest ∨ cur.rest.head?.any ("?:,]\x7d%@\x60".toList.contains ·) then some (name, cur)
  else none

namespace Directive

/-- A number of a version, which has at most nine digits. -/
def number? (cur : Cursor) : Option (Nat × Cursor) := do
  let (digits, cur) := cur.takeWhile Char.isDigit
  if digits.isEmpty ∨ 9 < digits.length then none
  some (digits.foldl (fun n c => 10 * n + (c.toNat - '0'.toNat)) 0, cur)

/-- A version, such as `1.2`. -/
def version? (cur : Cursor) : Option (TokenKind × Cursor) := do
  let (major, cur) ← number? cur.skipBlanks
  if cur.rest.head? ≠ some '.' then none
  let (minor, cur) ← number? (cur.skip 1)
  some (.versionDirective major minor, cur)

/-- A tag handle and what it stands for. -/
def tag? (cur : Cursor) : Option (TokenKind × Cursor) := do
  let (handle, cur) ← Tag.handle? cur.skipBlanks
  if handle ≠ ['!'] ∧ ¬ Tag.isClosed handle then none
  if ¬ cur.rest.head?.any isBlank then none
  let (expansion, cur) ← Tag.someChars? true cur.skipBlanks
  if ¬ atGap cur.rest then none
  some (.tagDirective handle (Tag.effective expansion), cur)

/-- The directive that starts here with its percent sign, and the place where the next line
    starts. -/
def take? (cur : Cursor) : Option (TokenKind × Cursor) := do
  let (name, cur) := (cur.skip 1).takeWhile isNameChar
  if name.isEmpty ∨ ¬ atGap cur.rest then none
  let (kind, cur) ←
    if name = "YAML".toList then version? cur
    else if name = "TAG".toList then tag? cur
    else none
  let cur := cur.skipBlanks
  let cur := if cur.rest.head? = some '#' then cur.skipLine else cur
  if atLineEnd cur.rest then some (kind, cur.skipBreak) else none

end Directive

end MachineTuning.Yaml
