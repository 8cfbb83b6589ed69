import MachineTuning.Yaml.Token.BlockScalar
import MachineTuning.Yaml.Token.PlainScalar
import MachineTuning.Yaml.Token.QuotedScalar
import MachineTuning.Yaml.Token.Tag

namespace MachineTuning.Yaml

/-!
# From text to tokens

`Token.ofChars?` splits a document's text into tokens, or finds that no document reads like
this.  Two things make the format harder than its punctuation:

* blocks have no brackets, so a `Scanner` keeps the columns of the open blocks and adds the
  tokens that open and close them;
* a key is known to be one only when its colon comes, so a scanner remembers where a key may
  have started (`PendingKey`) and adds the token in front of it afterwards.
-/

/-- A place where a key may have started. -/
structure PendingKey where
  /-- Whether nothing but a key may stand there. -/
  required : Bool
  /-- The number of tokens in front of it. -/
  position : Nat
  mark : Mark

/-- A key must fit on one line and into 1024 bytes. -/
def PendingKey.isStale (now : Mark) (k : PendingKey) : Bool :=
  k.mark.line < now.line || k.mark.offset + 1024 < now.offset

/-- The state of splitting a text. -/
structure Scanner where
  cursor : Cursor
  /-- The tokens so far, the latest first. -/
  tokens : List Token := []
  /-- The columns of the open blocks, the innermost first. -/
  indents : List Nat := []
  /-- Whether a key may start here. -/
  keyAllowed : Bool := true
  /-- The place where a key may have started inside the innermost brackets. -/
  key : Option PendingKey := none
  /-- The same for each pair of open brackets around those. -/
  outerKeys : List (Option PendingKey) := []

namespace Scanner

/-- The place that the scanner has reached. -/
def mark (s : Scanner) : Mark := s.cursor.mark

/-- Whether brackets are open. -/
def inFlow (s : Scanner) : Bool := !s.outerKeys.isEmpty

/-- The column of the innermost block; outside of all blocks it is -1. -/
def indent (s : Scanner) : Int :=
  match s.indents with
  | [] => -1
  | column :: _ => column

/-- The scanner with one more token. -/
def emit (s : Scanner) (kind : TokenKind) (start stop : Mark) : Scanner :=
  { s with tokens := ⟨kind, start, stop⟩ :: s.tokens }

/-- The scanner behind a token of so many characters. -/
def emitSkip (s : Scanner) (kind : TokenKind) (width : Nat) : Scanner :=
  let cursor := s.cursor.skip width
  { s.emit kind s.mark cursor.mark with cursor }

/-- The scanner with a token added behind the first `position` tokens. -/
def insertAt (s : Scanner) (position : Nat) (token : Token) : Scanner :=
  -- Tokens are kept with the latest first.
  let behind := s.tokens.length - position
  { s with tokens := s.tokens.take behind ++ token :: s.tokens.drop behind }

/-! ### Keys -/

/-- A pending key, unless it is stale; a required one may not become stale. -/
def fresh? (now : Mark) : Option PendingKey → Option (Option PendingKey)
  | none => some none
  | some k => if k.isStale now then (if k.required then none else some none) else some (some k)

/-- The scanner without the pending keys that are stale. -/
def dropStaleKeys? (s : Scanner) : Option Scanner := do
  let key ← fresh? s.mark s.key
  let outerKeys ← s.outerKeys.mapM (fresh? s.mark)
  some { s with key, outerKeys }

/-- The scanner without the innermost pending key, which must not be required. -/
def dropKey? (s : Scanner) : Option Scanner :=
  if s.key.any (·.required) then none else some { s with key := none }

/-- The scanner that remembers that a key may start here, if one may. -/
def saveKey? (s : Scanner) : Option Scanner := do
  if s.keyAllowed then
    let dropped ← s.dropKey?
    -- What stands at the indentation of its block can only be a key.
    let required := !s.inFlow && s.indent = s.mark.column
    some { dropped with key := some ⟨required, s.tokens.length, s.mark⟩ }
  else some s

/-! ### Blocks -/

/-- The scanner with a block opened at a column that lies deeper than the others, by a token in
    front of which `position` tokens stand. -/
def openBlock (s : Scanner) (column position : Nat) (kind : TokenKind) (mark : Mark) : Scanner :=
  if s.inFlow ∨ (column : Int) ≤ s.indent then s
  else { s.insertAt position ⟨kind, mark, mark⟩ with indents := column :: s.indents }

/-- The open blocks up to a column, and the tokens that close the others. -/
def closeDeeper (column : Int) (mark : Mark) : List Nat → List Token → List Nat × List Token
  | [], tokens => ([], tokens)
  | indent :: indents, tokens =>
    if column < indent then closeDeeper column mark indents (⟨.blockEnd, mark, mark⟩ :: tokens)
    else (indent :: indents, tokens)

/-- The scanner with the blocks closed that lie deeper than a column. -/
def closeBlocks (s : Scanner) (column : Int) : Scanner :=
  if s.inFlow then s
  else
    let (indents, tokens) := closeDeeper column s.mark s.indents s.tokens
    { s with indents, tokens }

/-! ### Reading one token -/

/-- The place of the next token, past blanks, comments and breaks, and whether a key may start
    there.  A tab separates only where no indentation can be, and a byte order mark may start any
    line. -/
def skipToToken (inFlow : Bool) : Nat → (keyAllowed : Bool) → Cursor → Bool × Cursor
  | 0, keyAllowed, cur => (keyAllowed, cur)
  | fuel + 1, keyAllowed, cur =>
    let cur := if cur.mark.column = 0 ∧ cur.rest.head? = some '\ufeff' then cur.skip 1 else cur
    let cur := cur.skipWhile fun c => c = ' ' || ((inFlow || !keyAllowed) && c = '\t')
    let cur := if cur.rest.head? = some '#' then cur.skipLine else cur
    match cur.takeBreak? with
    -- On a new line a key may start, but brackets go on as before.
    | some (_, cur) => skipToToken inFlow fuel (keyAllowed || !inFlow) cur
    | none => (keyAllowed, cur)

/-- The scanner at its next token. -/
def approach? (s : Scanner) : Option Scanner := do
  let (keyAllowed, cursor) :=
    skipToToken s.inFlow (s.cursor.rest.length + 1) s.keyAllowed s.cursor
  let s ← { s with keyAllowed, cursor }.dropStaleKeys?
  some (s.closeBlocks s.mark.column)

/-- A token between documents or parts of one, which no block spans. -/
def borderToken? (s : Scanner) (read? : Cursor → Option (TokenKind × Cursor)) :
    Option Scanner := do
  let s ← (s.closeBlocks (-1)).dropKey?
  let (kind, cursor) ← read? s.cursor
  some { s.emit kind s.mark cursor.mark with cursor, keyAllowed := false }

/-- A marker between documents. -/
def documentMarker? (s : Scanner) (kind : TokenKind) : Option Scanner :=
  s.borderToken? fun cur => some (kind, cur.skip 3)

/-- An opening bracket. -/
def openFlow? (s : Scanner) (kind : TokenKind) : Option Scanner := do
  let s ← s.saveKey?
  -- The key that is pending outside waits until the bracket closes.
  some { s.emitSkip kind 1 with key := none, outerKeys := s.key :: s.outerKeys, keyAllowed := true }

/-- A closing bracket. -/
def closeFlow? (s : Scanner) (kind : TokenKind) : Option Scanner := do
  let s ← s.dropKey?
  let s := { s.emitSkip kind 1 with keyAllowed := false }
  some (match s.outerKeys with
    | [] => s
    | key :: outerKeys => { s with key, outerKeys })

/-- A comma between the items of brackets. -/
def flowEntry? (s : Scanner) : Option Scanner := do
  let s ← s.dropKey?
  some { s.emitSkip .flowEntry 1 with keyAllowed := true }

/-- The scanner with a block opened here, where a key may start. -/
def startBlock? (s : Scanner) (kind : TokenKind) : Option Scanner :=
  if s.inFlow then some s
  else if s.keyAllowed then some (s.openBlock s.mark.column s.tokens.length kind s.mark)
  else none

/-- A dash in front of an item. -/
def blockEntry? (s : Scanner) : Option Scanner := do
  let s ← (← s.startBlock? .blockSequenceStart).dropKey?
  some { s.emitSkip .blockEntry 1 with keyAllowed := true }

/-- A question mark in front of a key. -/
def keyToken? (s : Scanner) : Option Scanner := do
  let s ← (← s.startBlock? .blockMappingStart).dropKey?
  some { s.emitSkip .key 1 with keyAllowed := !s.inFlow }

/-- A colon in front of a value.  If a key is pending, it is one. -/
def valueToken? (s : Scanner) : Option Scanner := do
  let s ← match s.key with
    | some k =>
      -- What was read as a scalar turns out to be a key: its mark goes in front of it, and the
      -- start of a mapping in front of that.
      let s := s.insertAt k.position ⟨.key, k.mark, k.mark⟩
      let s := s.openBlock k.mark.column k.position .blockMappingStart k.mark
      some { s with key := none, keyAllowed := false }
    | none => do
      let s ← s.startBlock? .blockMappingStart
      some { s with keyAllowed := !s.inFlow }
  some (s.emitSkip .value 1)

/-- An anchor or an alias. -/
def nameToken? (s : Scanner) (kind : List Char → TokenKind) : Option Scanner := do
  let s ← s.saveKey?
  let (name, cursor) ← anchorName? (s.cursor.skip 1)
  some { s.emit (kind name) s.mark cursor.mark with cursor, keyAllowed := false }

/-- A tag. -/
def tagToken? (s : Scanner) : Option Scanner := do
  let s ← s.saveKey?
  let (kind, cursor) ← Tag.take? s.inFlow s.cursor
  some { s.emit kind s.mark cursor.mark with cursor, keyAllowed := false }

/-- A text on lines of its own. -/
def blockScalar? (s : Scanner) (style : ScalarStyle) : Option Scanner := do
  let s ← s.dropKey?
  let (text, cursor) ← BlockScalar.take? (style = .folded) s.indent s.cursor
  some { s.emit (.scalar style text) s.mark cursor.mark with cursor, keyAllowed := true }

/-- A text between quotes. -/
def quotedScalar? (s : Scanner) (style : ScalarStyle) : Option Scanner := do
  let s ← s.saveKey?
  let (text, cursor) ← QuotedScalar.take? (style = .doubleQuoted) s.cursor
  some { s.emit (.scalar style text) s.mark cursor.mark with cursor, keyAllowed := false }

/-- A text without quotes. -/
def plainScalar? (s : Scanner) : Option Scanner := do
  let s ← s.saveKey?
  let scalar ← PlainScalar.take? s.inFlow s.indent s.cursor
  some { s.emit (.scalar .plain scalar.text) s.mark scalar.stop with
    cursor := scalar.after, keyAllowed := scalar.brokeLine }

/-- Whether a character may start a text without quotes, whatever follows it. -/
def startsPlain (c : Char) : Bool :=
  !isBlank c && !isBreak c && !"-?:,[]\x7b\x7d#&*!|>'\"%@\x60".toList.contains c

/-- The scanner behind the token that starts here with `c`, which `cs` follow. -/
def token? (s : Scanner) (c : Char) (cs : List Char) : Option Scanner :=
  if s.mark.column = 0 ∧ c = '%' then s.borderToken? Directive.take?
  else if s.cursor.atIndicator '-' then s.documentMarker? .documentStart
  else if s.cursor.atIndicator '.' then s.documentMarker? .documentEnd
  else if c = '[' then s.openFlow? .flowSequenceStart
  else if c = '\x7b' then s.openFlow? .flowMappingStart
  else if c = ']' then s.closeFlow? .flowSequenceEnd
  else if c = '\x7d' then s.closeFlow? .flowMappingEnd
  else if c = ',' then s.flowEntry?
  -- Outside of brackets these three are punctuation only in front of a gap.
  else if c = '-' ∧ atGap cs then s.blockEntry?
  else if c = '?' ∧ (s.inFlow ∨ atGap cs) then s.keyToken?
  else if c = ':' ∧ (s.inFlow ∨ atGap cs) then s.valueToken?
  else if c = '*' then s.nameToken? .alias
  else if c = '&' then s.nameToken? .anchor
  else if c = '!' then s.tagToken?
  else if c = '|' ∧ ¬ s.inFlow then s.blockScalar? .literal
  else if c = '>' ∧ ¬ s.inFlow then s.blockScalar? .folded
  else if c = '\'' then s.quotedScalar? .singleQuoted
  else if c = '"' then s.quotedScalar? .doubleQuoted
  else if startsPlain c ∨ c = '-' ∨ (¬ s.inFlow ∧ (c = '?' ∨ c = ':')) then s.plainScalar?
  else none

/-- The scanner at the end of a text, all blocks closed.  A line that is not ended counts as
    ended. -/
def finish? (s : Scanner) : Option Scanner := do
  let mark := if s.mark.column = 0 then s.mark else ⟨s.mark.offset, s.mark.line + 1, 0⟩
  let s ← ({ s with cursor := ⟨[], mark⟩ }.closeBlocks (-1)).dropKey?
  some (s.emit .streamEnd mark mark)

/-- All tokens from here on.  Every token but the last takes up at least one character. -/
def run? : Nat → Scanner → Option (List Token)
  | 0, _ => none
  | fuel + 1, s => do
    let s ← s.approach?
    match s.cursor.rest with
    | [] => do some (← s.finish?).tokens.reverse
    | c :: cs => run? fuel (← s.token? c cs)

end Scanner

/-- The tokens of a text. -/
def Token.ofChars? (cs : List Char) : Option (List Token) :=
  if cs.all isPermitted then Scanner.run? (cs.length + 1) { cursor := .ofList cs } else none

end MachineTuning.Yaml
