import MachineTuning.Yaml.Gap

namespace MachineTuning.Yaml

/-!
# Plain scalars — texts without quotes

A plain scalar is words with gaps between them.  It ends at a colon before a gap, at a comment,
at a marker between documents, inside brackets at any punctuation of theirs, and outside of
brackets where a line is not indented enough.
-/

/-- What reading a plain scalar gives. -/
structure PlainScalar where
  text : List Char
  /-- Where the last word stops. -/
  stop : Mark
  /-- Where reading goes on, behind the gap after the last word. -/
  after : Cursor
  /-- Whether that gap holds a line break. -/
  brokeLine : Bool

namespace PlainScalar

/-- Whether a plain scalar ends here. -/
def endsHere (inFlow : Bool) : List Char → Bool
  | [] => true
  | c :: cs =>
    isBlank c || isBreak c || (c = ':' && atGap cs) || (inFlow && isFlowIndicator c)

/-- Whether a colon stands directly before punctuation of brackets, which is refused there. -/
def badColon (inFlow : Bool) : List Char → Bool
  | ':' :: c :: _ => inFlow && (isFlowIndicator c || c = '?')
  | _ => false

/-- The word that stands here, and the place behind it. -/
def takeWord? (inFlow : Bool) : List Char → Mark → Option (List Char × Cursor)
  | [], mark => some ([], ⟨[], mark⟩)
  | c :: cs, mark =>
    if badColon inFlow (c :: cs) then none
    else if endsHere inFlow (c :: cs) then some ([], ⟨c :: cs, mark⟩)
    else do
      let (word, cur) ← takeWord? inFlow cs (mark.next c)
      some (c :: word, cur)

/-- Words from here on, behind a gap.  `stop` is the end of the word before the gap. -/
def takeWords? (inFlow : Bool) (indent : Int) :
    Nat → Gap → (stop : Mark) → Cursor → Option PlainScalar
  | 0, _, _, _ => none
  | fuel + 1, gap, stop, cur => do
    -- What is given if no word follows the gap.
    let done : PlainScalar := ⟨[], stop, cur, !gap.breaks.isEmpty⟩
    if cur.atDocumentBorder ∨ cur.rest.head? = some '#' then return done
    let (word, cur) ← takeWord? inFlow cur.rest cur.mark
    if word.isEmpty then return done
    let stop := cur.mark
    let last : PlainScalar := ⟨gap.folded ++ word, stop, cur, false⟩
    if cur.rest.isEmpty ∨ ¬ atGap cur.rest then return last
    let (nextGap, cur) ← Gap.take? (indent + 1) cur
    -- The line behind the gap is not part of the block.
    if ¬ inFlow ∧ cur.mark.column < indent + 1 then
      return { last with after := cur, brokeLine := !nextGap.breaks.isEmpty }
    let following ← takeWords? inFlow indent fuel nextGap stop cur
    return { following with text := gap.folded ++ word ++ following.text }

/-- The plain scalar that stands here, where the block around it is indented to `indent`. -/
def take? (inFlow : Bool) (indent : Int) (cur : Cursor) : Option PlainScalar :=
  takeWords? inFlow indent (cur.rest.length + 1) ⟨[], []⟩ cur.mark cur

end PlainScalar

end MachineTuning.Yaml
