import MachineTuning.Text.Hexadecimal
import MachineTuning.Yaml.Gap

namespace MachineTuning.Yaml

/-!
# Quoted scalars — texts between quotes

Between single quotes a quote is written twice and nothing else is special; between double
quotes a backslash starts an escape.  Gaps are folded in both, and a backslash at the end of a
line takes the break away.
-/

namespace QuotedScalar

/-- The character that an escape of one letter stands for. -/
def simpleEscape? (c : Char) : Option Char :=
  [('0', '\x00'), ('a', '\x07'), ('b', '\x08'), ('t', '\t'), ('\t', '\t'), ('n', '\n'),
    ('v', '\x0b'), ('f', '\x0c'), ('r', '\r'), ('e', '\x1b'), (' ', ' '), ('"', '"'),
    ('/', '/'), ('\\', '\\'), ('N', '\u0085'), ('_', '\u00a0'), ('L', '\u2028'),
    ('P', '\u2029')].lookup c

/-- The number of hexadecimal digits behind an escape letter. -/
def escapeWidth? (c : Char) : Option Nat :=
  [('x', 2), ('u', 4), ('U', 8)].lookup c

/-- The character that an escape stands for, behind the backslash. -/
def escape? (cur : Cursor) : Option (Char × Cursor) := do
  let c ← cur.rest.head?
  match simpleEscape? c with
  | some d => some (d, cur.skip 1)
  | none =>
    let width ← escapeWidth? c
    let digits := (cur.rest.drop 1).take width
    let n ← Text.hexValue? digits
    if digits.length = width ∧ n.isValidChar then some (Char.ofNat n, cur.skip (width + 1))
    else none

/-- The text up to the closing quote, and the place behind it.  No marker between documents may
    follow a gap. -/
def body? (double : Bool) : Nat → Cursor → Option (List Char × Cursor)
  | 0, _ => none
  | fuel + 1, cur =>
    match cur.rest with
    | [] => none
    | c :: cs =>
      if isBlank c ∨ isBreak c then do
        let (gap, cur) ← Gap.take? 0 cur
        if cur.atDocumentBorder then none
        let (text, cur) ← body? double fuel cur
        some (gap.folded ++ text, cur)
      else if c = (if double then '"' else '\'') then
        -- A single quote that is written twice stands for itself.
        if ¬ double ∧ cs.head? = some '\'' then do
          let (text, cur) ← body? double fuel (cur.skip 2)
          some ('\'' :: text, cur)
        else some ([], cur.skip 1)
      else if double ∧ c = '\\' then
        -- A backslash takes the break behind it away, but not those of empty lines.
        match (cur.skip 1).takeBreak? with
        | some (_, cur) => do
          let (breaks, cur) ← Gap.takeBreaks? 0 cur.rest cur.mark
          if cur.atDocumentBorder then none
          let (text, cur) ← body? double fuel cur
          some (breaks ++ text, cur)
        | none => do
          let (c, cur) ← escape? (cur.skip 1)
          let (text, cur) ← body? double fuel cur
          some (c :: text, cur)
      else do
        let (text, cur) ← body? double fuel (cur.skip 1)
        some (c :: text, cur)

/-- The text of the quoted scalar that starts here with its quote. -/
def take? (double : Bool) (cur : Cursor) : Option (List Char × Cursor) :=
  body? double (cur.rest.length + 1) (cur.skip 1)

end QuotedScalar

end MachineTuning.Yaml
