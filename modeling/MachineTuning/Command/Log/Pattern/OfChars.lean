import MachineTuning.Command.Log.Pattern
import MachineTuning.Text.Alphanumeric
import MachineTuning.Text.Blank
import MachineTuning.Text.Hexadecimal

namespace MachineTuning.Command

/-!
# From characters to patterns

`Pattern.ofChars?` reads the regular expression that a text spells: alternatives, groups,
repetitions, classes with set operations, escapes, and modes that switch how the rest of a group is
read.  References to groups, counted repetitions and looking around are unknown.  Groups and
brackets that are open stand in a list with the innermost first, so each step takes at least one
character from the text.
-/

namespace Pattern

/-- What is left behind blanks and comments, where these mean nothing.  A comment runs from a
    number sign to the end of its line. -/
def skipBlanks (spaced : Bool) (cs : List Char) : List Char :=
  if spaced then go false cs else cs
where
  /-- The same, where `inComment` says whether a comment has begun. -/
  go (inComment : Bool) : List Char → List Char
    | [] => []
    | c :: cs =>
      if inComment then go (c ≠ '\n') cs
      else if Text.isBlank c then go false cs
      else if c = '#' then go true cs
      else c :: cs

/-! ### Escapes -/

/-- The number of hexadecimal digits behind an escape letter. -/
def escapeWidth? (c : Char) : Option Nat :=
  [('x', 2), ('u', 4), ('U', 8)].lookup c

/-- The control character of an escape letter. -/
def control? (c : Char) : Option Char :=
  [('a', '\x07'), ('f', '\x0c'), ('t', '\t'), ('n', '\n'), ('r', '\r'), ('v', '\x0b')].lookup c

/-- The number that so many digits spell behind those of a value, and what is left behind them.
    Blanks may stand between them where they mean nothing. -/
def hexNumber? (spaced : Bool) : Nat → (value : Nat) → List Char → Option (Nat × List Char)
  | 0, value, cs => some (value, cs)
  | width + 1, value, cs =>
    match skipBlanks spaced cs with
    | [] => none
    | c :: cs => do hexNumber? spaced width (16 * value + (← Text.hexDigit? c)) cs

/-- The escape that stands here, behind its backslash, and what is left behind it. -/
def escape? (spaced : Bool) : List Char → Option (Pattern × List Char)
  | [] => none
  | c :: cs =>
    match escapeWidth? c, control? c with
    | some width, _ => do
      let (n, cs) ← hexNumber? spaced width 0 cs
      if ¬ n.isValidChar then none
      some (.literal { char := Char.ofNat n, asByte := c = 'x' }, cs)
    | none, some d => some (.literal { char := d }, cs)
    | none, none =>
      if ['d', 's', 'w'].contains c then some (.shorthand false, cs)
      else if ['D', 'S', 'W'].contains c then some (.shorthand true, cs)
      else if ['b', 'B', '<', '>'].contains c then some (.wordBorder, cs)
      else if ['A', 'z'].contains c then some (.anchor, cs)
      else if c.toNat < 0x80 ∧ ¬ c.isAlphanum then some (.literal { char := c }, cs)
      else none

/-! ### Classes -/

/-- The classes that brackets may name. -/
def classNames : List String :=
  ["alnum", "alpha", "ascii", "blank", "cntrl", "digit", "graph", "lower", "print", "punct",
    "space", "upper", "word", "xdigit"]

/-- A class by its name, behind its opening bracket, and what is left behind it. -/
def namedClass? (cs : List Char) : Option (CharSet × List Char) := do
  let cs ← [':'].isPrefixOf? cs
  let (negated, cs) : Bool × List Char := match cs with
    | '^' :: cs => (true, cs)
    | cs => (false, cs)
  let name := cs.takeWhile (· ≠ ':')
  let cs ← [':', ']'].isPrefixOf? (cs.drop name.length)
  if String.ofList name ∈ classNames then some (.named negated, cs) else none

/-- An item of a class that is no range: a character, or what an escape stands for, and what is
    left behind it. -/
def classItem? (spaced : Bool) : List Char → Option (CharSet × List Char)
  | [] => none
  | '\\' :: cs => do
    let (escape, cs) ← escape? spaced cs
    match escape with
    | .literal c => some (.literal c, cs)
    | .shorthand negated => some (.shorthand negated, cs)
    | _ => none
  | c :: cs => some (.literal { char := c }, cs)

/-- What says, behind a dash, whether the dash makes a range.  Where blanks mean nothing they are
    passed over, and so is a number sign, but not the comment that it starts. -/
def behindDash (spaced : Bool) (cs : List Char) : List Char :=
  if spaced then
    match cs.dropWhile Text.isBlank with
    | '#' :: cs => cs.dropWhile Text.isBlank
    | cs => cs
  else cs

/-- An item of a class or a range of characters, and what is left behind it.  A dash in front of
    the end of the class, or of another dash, makes no range. -/
def classPart? (spaced : Bool) (cs : List Char) : Option (CharSet × List Char) := do
  let (first, cs) ← classItem? spaced cs
  match skipBlanks spaced cs with
  | '-' :: cs =>
    match behindDash spaced cs with
    | ']' :: _ | '-' :: _ => some (first, '-' :: cs)
    | _ => do
      let (last, cs) ← classItem? spaced (skipBlanks spaced cs)
      match first, last with
      | .literal a, .literal b => if a.char ≤ b.char then some (.range a b, cs) else none
      | _, _ => none
  | cs => some (first, cs)

/-- What is left behind an operator of sets, which is one of its signs twice. -/
def setOperator? : List Char → Option (List Char)
  | c :: d :: cs => if c = d ∧ ['&', '-', '~'].contains c then some cs else none
  | _ => none

/-- Brackets that are open, with what stands in them so far. -/
structure OpenBrackets where
  negated : Bool
  /-- Nothing but dashes stands here yet. -/
  starting : Bool := true
  /-- What stands in front of the last operator. -/
  left : Option CharSet := none
  /-- The items behind it, the last one first. -/
  items : List CharSet := []

namespace OpenBrackets

/-- The brackets that start behind their sign, and what is left behind that start. -/
def ofChars (spaced : Bool) (cs : List Char) : OpenBrackets × List Char :=
  match skipBlanks spaced cs with
  | '^' :: cs => ({ negated := true }, cs)
  | cs => ({ negated := false }, cs)

/-- The brackets with one more item. -/
def add (b : OpenBrackets) (item : CharSet) : OpenBrackets :=
  { b with items := item :: b.items }

/-- What stands in the brackets.  Operations group to the left. -/
def set (b : OpenBrackets) : CharSet :=
  let items := CharSet.ofItems b.items.reverse
  match b.left with
  | some left => .operation left items
  | none => items

/-- The brackets behind an operator. -/
def operate (b : OpenBrackets) : OpenBrackets :=
  { b with left := some b.set, items := [] }

/-- Whether a character stands for itself because of its place: dashes at the start, and a closing
    bracket where nothing can be closed yet. -/
def takesLiterally (b : OpenBrackets) (c : Char) : Bool :=
  b.starting && (c = '-' || (c = ']' && b.items.isEmpty))

end OpenBrackets

/-- The class whose innermost open brackets are given, and what is left behind it. -/
def classFrom? (spaced : Bool) : Nat → (inner : OpenBrackets) → (outer : List OpenBrackets) →
    List Char → Option (Pattern × List Char)
  | 0, _, _, _ => none
  | fuel + 1, inner, outer, cs =>
    match skipBlanks spaced cs with
    | [] => none
    | c :: cs =>
      let literally := inner.takesLiterally c
      let inner := { inner with starting := literally && c = '-' }
      if literally then classFrom? spaced fuel (inner.add (.literal { char := c })) outer cs
      else if c = ']' then
        match outer with
        | [] => some (.brackets inner.negated inner.set, cs)
        | next :: outer =>
          classFrom? spaced fuel (next.add (.brackets inner.negated inner.set)) outer cs
      else if c = '[' then
        match namedClass? cs with
        | some (item, cs) => classFrom? spaced fuel (inner.add item) outer cs
        | none =>
          let (new, cs) := OpenBrackets.ofChars spaced cs
          classFrom? spaced fuel new (inner :: outer) cs
      else
        match setOperator? (c :: cs) with
        | some cs => classFrom? spaced fuel inner.operate outer cs
        | none => do
          let (item, cs) ← classPart? spaced (c :: cs)
          classFrom? spaced fuel (inner.add item) outer cs

/-- The class that starts here, behind its bracket, and what is left behind it. -/
def charClass? (spaced : Bool) (cs : List Char) : Option (Pattern × List Char) :=
  let (new, cs) := OpenBrackets.ofChars spaced cs
  classFrom? spaced (cs.length + 1) new [] cs

/-! ### Groups -/

/-- The letters of all modes. -/
def modeLetters : List Char := ['i', 'm', 's', 'U', 'u', 'R', 'x']

/-- The switches up to a colon or a closing parenthesis, which is kept.  A single dash says that
    the letters behind it switch their modes off; one of them must follow it. -/
def switches? : (on bare : Bool) → Switches → List Char → Option (Switches × List Char)
  | _, _, _, [] => none
  | on, bare, read, c :: cs =>
    if c = ':' ∨ c = ')' then if bare then none else some (read, c :: cs)
    else if c = '-' then if on then switches? false true read cs else none
    else if c ∈ modeLetters ∧ read.all (·.1 ≠ c) then switches? on false ((c, on) :: read) cs
    else none

/-- Whether a text may name a group: letters, numbers, underscores, points and square brackets, of
    which only a letter or an underscore may stand first. -/
def isGroupName : List Char → Bool
  | [] => false
  | c :: cs =>
    (c = '_' || Text.isAlphabetic c) &&
      cs.all fun d => Text.isAlphanumeric d || ['_', '.', '[', ']'].contains d

/-- What an opening parenthesis starts. -/
inductive Opening where
  | group (switches : Switches) (name : Option (List Char))
  /-- No group: modes for the rest of the group around it. -/
  | switch (switches : Switches)

/-- What the parenthesis in front of these characters starts, and what is left behind that. -/
def opening? (spaced : Bool) (cs : List Char) : Option (Opening × List Char) :=
  let cs := skipBlanks spaced cs
  match (['?', 'P', '<'].isPrefixOf? cs).or (['?', '<'].isPrefixOf? cs) with
  | some cs => do
    let name := cs.takeWhile (· ≠ '>')
    let cs ← ['>'].isPrefixOf? (cs.drop name.length)
    if isGroupName name then some (.group [] name, cs) else none
  | none =>
    match cs with
    | '?' :: cs => do
      let (switches, cs) ← switches? true false [] cs
      match cs with
      | ':' :: cs => some (.group switches none, cs)
      | _ :: cs => if switches.isEmpty then none else some (.switch switches, cs)
      | [] => none
    | cs => some (.group [] none, cs)

/-- A group that is open, with what stands in it so far.  The whole pattern is one, too. -/
structure OpenGroup where
  switches : Switches := []
  /-- Blanks and comments mean nothing from here on. -/
  spaced : Bool := false
  /-- The branches that are over, the last one first. -/
  branches : List Pattern := []
  /-- The parts of the branch that stands here, the last one first. -/
  parts : List Pattern := []

namespace OpenGroup

/-- The group with one more part. -/
def add (g : OpenGroup) (part : Pattern) : OpenGroup :=
  { g with parts := part :: g.parts }

/-- The group with a new branch. -/
def branch (g : OpenGroup) : OpenGroup :=
  { g with branches := .ofParts g.parts.reverse :: g.branches, parts := [] }

/-- What stands in the group. -/
def pattern (g : OpenGroup) : Pattern :=
  .ofBranches g.branch.branches.reverse

/-- The group with its last part repeated.  A switch is nothing to repeat. -/
def repeatLast? (g : OpenGroup) : Option OpenGroup :=
  match g.parts with
  | [] | .switch _ :: _ => none
  | part :: parts => some { g with parts := .repeated part :: parts }

/-- Whether blanks mean nothing behind switches in the group. -/
def spacedBehind (g : OpenGroup) (switches : Switches) : Bool :=
  (switches.lookup 'x').getD g.spaced

end OpenGroup

/-! ### Whole patterns -/

/-- A part that is no group, and what is left behind it.  Counted repetitions are unknown. -/
def part? (spaced : Bool) : List Char → Option (Pattern × List Char)
  | [] => none
  | c :: cs =>
    if c = '[' then charClass? spaced cs
    else if c = '\\' then escape? spaced cs
    else if c = '\x7b' then none
    else if c = '.' then some (.any, cs)
    else if c = '^' ∨ c = '$' then some (.anchor, cs)
    else some (.literal { char := c }, cs)

/-- The pattern whose innermost open group is given; `names` are the names of groups so far.  A
    question mark directly behind a repetition belongs to it. -/
def ofCharsFrom? : Nat → (names : List (List Char)) → (inner : OpenGroup) →
    (outer : List OpenGroup) → List Char → Option Pattern
  | 0, _, _, _, _ => none
  | fuel + 1, names, inner, outer, cs =>
    match skipBlanks inner.spaced cs with
    | [] => if outer.isEmpty then some inner.pattern else none
    | c :: cs =>
      if c = '(' then
        match opening? inner.spaced cs with
        | none => none
        | some (.switch switches, cs) =>
          let spaced := inner.spacedBehind switches
          ofCharsFrom? fuel names { inner.add (.switch switches) with spaced } outer cs
        | some (.group switches name, cs) =>
          if names.any (some · = name) then none
          else
            let spaced := inner.spacedBehind switches
            ofCharsFrom? fuel (name.toList ++ names) { switches, spaced } (inner :: outer) cs
      else if c = ')' then
        match outer with
        | [] => none
        | next :: outer =>
          ofCharsFrom? fuel names (next.add (.group inner.switches inner.pattern)) outer cs
      else if c = '|' then ofCharsFrom? fuel names inner.branch outer cs
      else if c = '*' ∨ c = '+' ∨ c = '?' then do
        ofCharsFrom? fuel names (← inner.repeatLast?) outer ((['?'].isPrefixOf? cs).getD cs)
      else do
        let (part, cs) ← part? inner.spaced (c :: cs)
        ofCharsFrom? fuel names (inner.add part) outer cs

/-- The pattern that a text spells. -/
def ofChars? (cs : List Char) : Option Pattern :=
  ofCharsFrom? (cs.length + 1) [] {} [] cs

/-- Whether a text is a pattern that can be matched. -/
def isWellFormed (cs : List Char) : Bool :=
  (ofChars? cs).any isSupported

end Pattern

end MachineTuning.Command
