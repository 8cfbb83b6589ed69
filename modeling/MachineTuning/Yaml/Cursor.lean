namespace MachineTuning.Yaml

/-!
# Cursors — a place in the text of a document

A `Cursor` is what is left of a text together with the `Mark` of the place.  Line breaks are
counted the way the format counts them: a carriage return followed by a line feed is one break,
and the next-line, line-separator and paragraph-separator characters are breaks too.
-/

/-- A place in a text; everything counts from zero. -/
structure Mark where
  /-- The number of UTF-8 bytes in front of the place. -/
  offset : Nat
  line : Nat
  /-- The number of characters in front of the place on its line. -/
  column : Nat
  deriving DecidableEq

namespace Mark

/-- The place where a text starts. -/
def start : Mark := ⟨0, 0, 0⟩

/-- The place behind a character that does not break the line. -/
def next (m : Mark) (c : Char) : Mark := ⟨m.offset + c.utf8Size, m.line, m.column + 1⟩

/-- The start of the next line, behind a break of so many bytes. -/
def nextLine (m : Mark) (width : Nat) : Mark := ⟨m.offset + width, m.line + 1, 0⟩

end Mark

/-! ### Character classes -/

/-- The characters that break a line. -/
def isBreak (c : Char) : Bool :=
  c = '\n' || c = '\r' || c = '\u0085' || c = '\u2028' || c = '\u2029'

/-- The characters that separate words on a line. -/
def isBlank (c : Char) : Bool :=
  c = ' ' || c = '\t'

/-- Whether a text is over or goes on with a blank or a break. -/
def atGap : List Char → Bool
  | [] => true
  | c :: _ => isBlank c || isBreak c

/-- Whether a line is over. -/
def atLineEnd : List Char → Bool
  | [] => true
  | c :: _ => isBreak c

/-- The characters of names. -/
def isNameChar (c : Char) : Bool :=
  c.isAlphanum || c = '_' || c = '-'

/-- The characters with a meaning of their own inside brackets. -/
def isFlowIndicator (c : Char) : Bool :=
  c = ',' || c = '[' || c = ']' || c = '\x7b' || c = '\x7d'

/-- The characters that a document may hold. -/
def isPermitted (c : Char) : Bool :=
  let n := c.toNat
  c = '\t' || c = '\n' || c = '\r' || (0x20 ≤ n && n ≤ 0x7E) || n = 0x85 ||
    (0xA0 ≤ n && n ≤ 0xD7FF) || (0xE000 ≤ n && n ≤ 0xFFFD) || 0x10000 ≤ n

/-- What a break stands for inside a text: a line feed, unless it is one of the two separators. -/
def breakChar (c : Char) : Char :=
  if c = '\u2028' || c = '\u2029' then c else '\n'

/-! ### Cursors -/

/-- What is left of a text, and the place where it starts. -/
structure Cursor where
  rest : List Char
  mark : Mark

namespace Cursor

/-- The start of a text. -/
def ofList (cs : List Char) : Cursor := ⟨cs, .start⟩

/-- The place so many characters on, none of which breaks the line. -/
def skip : Nat → Cursor → Cursor
  | 0, cur => cur
  | n + 1, ⟨[], mark⟩ => skip n ⟨[], mark⟩
  | n + 1, ⟨c :: cs, mark⟩ => skip n ⟨cs, mark.next c⟩

/-- The characters of a class that come next on this line, and the place behind them. -/
def takeWhile (p : Char → Bool) (cur : Cursor) : List Char × Cursor :=
  go cur.rest cur.mark
where
  /-- The characters of the class from a place on. -/
  go : List Char → Mark → List Char × Cursor
    | [], mark => ([], ⟨[], mark⟩)
    | c :: cs, mark =>
      if p c then
        let (taken, cur) := go cs (mark.next c)
        (c :: taken, cur)
      else ([], ⟨c :: cs, mark⟩)

/-- The place behind the characters of a class. -/
def skipWhile (p : Char → Bool) (cur : Cursor) : Cursor :=
  (cur.takeWhile p).2

/-- The place behind any blanks. -/
def skipBlanks (cur : Cursor) : Cursor :=
  cur.skipWhile isBlank

/-- The place at the end of this line. -/
def skipLine (cur : Cursor) : Cursor :=
  cur.skipWhile fun c => !isBreak c

/-- The line break that stands here, as the character that it stands for, and the place behind
    it. -/
def takeBreak? (cur : Cursor) : Option (Char × Cursor) :=
  match cur.rest with
  | '\r' :: '\n' :: cs => some ('\n', ⟨cs, cur.mark.nextLine 2⟩)
  | c :: cs => if isBreak c then some (breakChar c, ⟨cs, cur.mark.nextLine c.utf8Size⟩) else none
  | [] => none

/-- The place behind a line break, if one stands here. -/
def skipBreak (cur : Cursor) : Cursor :=
  match cur.takeBreak? with
  | some (_, cur) => cur
  | none => cur

/-- Whether three equal characters stand alone at the start of a line. -/
def atIndicator (c : Char) (cur : Cursor) : Bool :=
  cur.mark.column = 0 &&
    match [c, c, c].isPrefixOf? cur.rest with
    | some cs => atGap cs
    | none => false

/-- Whether a marker between documents stands here. -/
def atDocumentBorder (cur : Cursor) : Bool :=
  cur.atIndicator '-' || cur.atIndicator '.'

end Cursor

end MachineTuning.Yaml
