import MachineTuning.Json.Printer
import MachineTuning.Yaml.Style

namespace MachineTuning.Yaml

/-!
# Writing YAML

`print` writes a value as a block document.  The members of a mapping stand two spaces deeper
than the mapping's own key; the items of a sequence stand directly below their key.  Every
printer gives whole lines: what it writes ends with a line break.
-/

/-- The spaces in front of a line. -/
def indentation (indent : Nat) : List Char :=
  List.replicate indent ' '

/-! ### Texts -/

/-- A line break that starts a new line at an indentation, unless a break already did. -/
def indentLines (indent : Nat) (cs : List Char) : List Char :=
  go false cs
where
  /-- The rest of a text, with the indentation pending if the last character was a break. -/
  go (pending : Bool) : List Char → List Char
    | [] => []
    | c :: cs =>
      if isBreak c then c :: go true cs
      else if pending then indentation indent ++ c :: go false cs
      else c :: go false cs

/-- A text between single quotes, lines continued at an indentation. -/
def singleQuotedChars (indent : Nat) (cs : List Char) : List Char :=
  let body := indentLines indent (cs.flatMap fun c => if c = '\'' then ['\'', '\''] else [c])
  let close := if cs.getLast?.any isBreak then indentation indent else []
  '\'' :: body ++ close ++ ['\'']

/-- The letter of an escape. -/
def escapeLetter? (c : Char) : Option Char :=
  [('\x00', '0'), ('\x07', 'a'), ('\x08', 'b'), ('\t', 't'), ('\n', 'n'), ('\x0b', 'v'),
    ('\x0c', 'f'), ('\r', 'r'), ('\x1b', 'e'), ('"', '"'), ('\\', '\\'), ('\u0085', 'N'),
    ('\u00a0', '_'), ('\u2028', 'L'), ('\u2029', 'P')].lookup c

/-- An upper-case hexadecimal number of a fixed width. -/
def upperHex (width n : Nat) : List Char :=
  Text.padded width ((Text.hexadecimal n).map Char.toUpper)

/-- An escape. -/
def escapeChars (c : Char) : List Char :=
  match escapeLetter? c with
  | some letter => ['\\', letter]
  | none =>
    if c.toNat ≤ 0xFF then '\\' :: 'x' :: upperHex 2 c.toNat
    else if c.toNat ≤ 0xFFFF then '\\' :: 'u' :: upperHex 4 c.toNat
    else '\\' :: 'U' :: upperHex 8 c.toNat

/-- A text between double quotes. -/
def doubleQuotedChars (cs : List Char) : List Char :=
  let shown := cs.flatMap fun c =>
    if !Style.isPrintable c || isBreak c || c = '"' || c = '\\' then escapeChars c else [c]
  '"' :: shown ++ ['"']

/-- What the header of a literal text says about its indentation and the breaks at its end. -/
def literalHints (cs : List Char) : List Char :=
  -- Behind a space or an empty line a reader could not tell the indentation.
  let indent := if cs.head?.any fun c => c = ' ' || isBreak c then ['2'] else []
  let chomping :=
    match cs.reverse with
    | [] => ['-']
    | [c] => if isBreak c then ['+'] else ['-']
    | c :: d :: _ => if isBreak c then (if isBreak d then ['+'] else []) else ['-']
  indent ++ chomping

/-- A text on lines of its own, below a header. -/
def literalChars (indent : Nat) (cs : List Char) : List Char :=
  '|' :: literalHints cs ++ '\n' :: indentLines.go indent true cs

/-- The end of a line, unless the line has ended. -/
def closeLine (cs : List Char) : List Char :=
  if cs.getLast?.any isBreak then cs else cs ++ ['\n']

/-- A text in a style, as whole lines whose continuations stand at an indentation. -/
def styledLine (style : Style) (indent : Nat) (s : String) : List Char :=
  match style with
  | .plain => s.toList ++ ['\n']
  | .singleQuoted => singleQuotedChars indent s.toList ++ ['\n']
  | .doubleQuoted => doubleQuotedChars s.toList ++ ['\n']
  | .literal => closeLine (literalChars indent s.toList)

/-- A text as whole lines. -/
def textLine (indent : Nat) (s : String) : List Char :=
  styledLine (Style.ofText s) indent s

/-- A text as the key of a mapping on one line. -/
def keyChars (s : String) : List Char :=
  match Style.ofText s with
  | .plain => s.toList
  | .singleQuoted => singleQuotedChars 0 s.toList
  | _ => doubleQuotedChars s.toList

/-! ### Values -/

/-- A value without parts as whole lines. -/
def scalarLine (indent : Nat) : Json → List Char
  | .boolean b => (if b then "true" else "false").toList ++ ['\n']
  | .number (.integer n) => Json.integerChars n ++ ['\n']
  | .number (.real x) => x.positionalText.toList ++ ['\n']
  | .text s => textLine indent s
  | _ => "null\n".toList

/-- A key with its colon.  A long key stands on lines of its own with marks in front of it and of
    its value. -/
def keyLine (indent : Nat) (key : String) : List Char :=
  if Style.admitsSimpleKey key then keyChars key ++ [':']
  else '?' :: ' ' :: textLine (indent + 2) key ++ indentation indent ++ [':']

/-- What stands between a key, dash or mark and a collection: a space, or a line break where the
    collection starts on a line of its own. -/
def opening (sameLine : Bool) (indent : Nat) : List Char :=
  if sameLine then [' '] else '\n' :: indentation indent

mutual
/-- A value behind its key, in a mapping at an indentation.  Behind a dash or a mark (`sameLine`)
    a collection starts on the same line, and its parts stand two spaces deeper. -/
def printValue (sameLine : Bool) (indent : Nat) : Json → List Char
  | .array [] => " []\n".toList
  | .object [] => " \x7b\x7d\n".toList
  | .array (item :: items) =>
    -- Behind a key the items stand at the indentation of the key.
    let inner := if sameLine then indent + 2 else indent
    opening sameLine inner ++ '-' :: printValue true inner item ++ printItems inner items
  | .object ((key, value) :: members) =>
    let inner := indent + 2
    opening sameLine inner ++ keyLine inner key ++
      printValue (!Style.admitsSimpleKey key) inner value ++ printMembers inner members
  | v => ' ' :: scalarLine (indent + 2) v

/-- Items, each on lines of its own. -/
def printItems (indent : Nat) : List Json → List Char
  | [] => []
  | item :: items =>
    indentation indent ++ '-' :: printValue true indent item ++ printItems indent items

/-- Members, each on lines of its own. -/
def printMembers (indent : Nat) : List (String × Json) → List Char
  | [] => []
  | (key, value) :: members =>
    indentation indent ++ keyLine indent key ++
      printValue (!Style.admitsSimpleKey key) indent value ++ printMembers indent members
end

/-- A value as a document. -/
def print (v : Json) : String :=
  String.ofList (match v with
    | .array [] => "[]\n".toList
    | .object [] => "\x7b\x7d\n".toList
    | .array items => printItems 0 items
    | .object members => printMembers 0 members
    | v => scalarLine 2 v)

end MachineTuning.Yaml
