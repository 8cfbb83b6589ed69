namespace MachineTuning.Command

/-!
# Patterns — regular expressions in log filters

The value of a field in a log filter may be a regular expression, which an automaton over the bytes
of UTF-8 has to match.  `Pattern` keeps of one what decides whether that can be done:

* `Pattern.nestsWithin` bounds how deep its parts lie in each other;
* `Pattern.modesBehind?` follows the modes in which its parts are read, and refuses what the
  automaton cannot do in them.  It knows no properties of characters, so tests for the borders of
  words and shorthand classes are open to patterns over bytes only, and so is either case of a
  letter.  Where bytes are matched nothing may match a part of a character.
-/

namespace Pattern

/-- A character that stands for itself. -/
structure Literal where
  char : Char
  /-- It is written as a number of two digits, which is that of a byte where bytes are matched. -/
  asByte : Bool := false

/-- The letters of modes, each with whether it switches its mode on. -/
abbrev Switches := List (Char × Bool)

/-- What stands between the brackets of a class. -/
inductive CharSet where
  | empty
  | literal (c : Literal)
  | range (first last : Literal)
  /-- A class of ASCII characters by its name, or its complement. -/
  | named (negated : Bool)
  /-- The digits, the blanks or the characters of words, or their complement. -/
  | shorthand (negated : Bool)
  | brackets (negated : Bool) (inner : CharSet)
  | union (items : List CharSet)
  /-- An intersection, a difference or a symmetric difference. -/
  | operation (left right : CharSet)

end Pattern

open Pattern in
/-- A regular expression. -/
inductive Pattern where
  | empty
  /-- Modes for the rest of the group around it. -/
  | switch (switches : Switches)
  | literal (c : Literal)
  /-- Any character. -/
  | any
  /-- The start or the end of a line or of the text. -/
  | anchor
  /-- A test for the border of a word. -/
  | wordBorder
  /-- The digits, the blanks or the characters of words, or their complement. -/
  | shorthand (negated : Bool)
  | brackets (negated : Bool) (set : CharSet)
  | repeated (inner : Pattern)
  /-- A group with modes of its own. -/
  | group (switches : Switches) (inner : Pattern)
  | concat (parts : List Pattern)
  | alternatives (branches : List Pattern)

namespace Pattern

/-- The set with the given items: a single one is its own set. -/
def CharSet.ofItems : List CharSet → CharSet
  | [] => .empty
  | [item] => item
  | items => .union items

/-- The pattern of what follows each other: a single part is its own pattern. -/
def ofParts : List Pattern → Pattern
  | [] => .empty
  | [part] => part
  | parts => .concat parts

/-- The pattern of what may stand for each other: a single branch is its own pattern. -/
def ofBranches : List Pattern → Pattern
  | [] => .empty
  | [branch] => branch
  | branches => .alternatives branches

/-! ### Nesting -/

mutual
/-- Whether the parts of a set lie at most so deep in each other.  Brackets, unions and operations
    count. -/
def CharSet.nestsWithin : CharSet → Nat → Bool
  | .brackets _ inner, limit + 1 => inner.nestsWithin limit
  | .union items, limit + 1 => CharSet.allNestWithin items limit
  | .operation left right, limit + 1 => left.nestsWithin limit && right.nestsWithin limit
  | .brackets .., 0 | .union _, 0 | .operation .., 0 => false
  | _, _ => true

/-- Whether every set does. -/
def CharSet.allNestWithin : List CharSet → Nat → Bool
  | [], _ => true
  | item :: items, limit => item.nestsWithin limit && CharSet.allNestWithin items limit
end

mutual
/-- Whether the parts of a pattern lie at most so deep in each other.  Classes in brackets count
    with what is in them, as do repetitions, groups and lists of parts or branches. -/
def nestsWithin : Pattern → Nat → Bool
  | .brackets _ set, limit + 1 => set.nestsWithin limit
  | .repeated inner, limit + 1 => inner.nestsWithin limit
  | .group _ inner, limit + 1 => inner.nestsWithin limit
  | .concat parts, limit + 1 => allNestWithin parts limit
  | .alternatives branches, limit + 1 => allNestWithin branches limit
  | .brackets .., 0 | .repeated _, 0 | .group .., 0 | .concat _, 0 | .alternatives _, 0 => false
  | _, _ => true

/-- Whether every pattern does. -/
def allNestWithin : List Pattern → Nat → Bool
  | [], _ => true
  | part :: parts, limit => part.nestsWithin limit && allNestWithin parts limit
end

/-- How deep a pattern may nest. -/
def nestLimit : Nat := 250

/-! ### Modes -/

/-- How a part of a pattern is matched. -/
structure Modes where
  /-- Characters are matched, not bytes. -/
  characters : Bool := true
  /-- Letters match in either case. -/
  anyCase : Bool := false

namespace Modes

/-- The modes behind switches.  All other letters change only what a pattern matches. -/
def switched (modes : Modes) (switches : Switches) : Modes where
  characters := (switches.lookup 'u').getD modes.characters
  anyCase := (switches.lookup 'i').getD modes.anyCase

/-- Whether a character may stand for itself.  Over characters either case would take a table;
    over bytes no byte may be a part of a character. -/
def allowsLiteral (modes : Modes) (c : Literal) : Bool :=
  if modes.characters then !modes.anyCase else !c.asByte || c.char.toNat < 0x80

/-- Whether a character may stand in a class.  A class of bytes holds single bytes only. -/
def allowsMember (modes : Modes) (c : Literal) : Bool :=
  if modes.characters then !modes.anyCase else c.char.toNat < 0x80

/-- Whether the shorthand of a class may stand here.  Its complement would have parts of characters
    in it. -/
def allowsShorthand (modes : Modes) (negated : Bool) : Bool :=
  !modes.characters && !negated

end Modes

mutual
/-- Whether a set can be matched. -/
def CharSet.isSupported (modes : Modes) : CharSet → Bool
  | .empty => true
  | .literal c => modes.allowsMember c
  | .range first last => modes.allowsMember first && modes.allowsMember last
  | .named negated => if modes.characters then !modes.anyCase else !negated
  | .shorthand negated => modes.allowsShorthand negated
  | .brackets negated inner => (modes.characters || !negated) && inner.isSupported modes
  | .union items => CharSet.areSupported modes items
  | .operation left right => left.isSupported modes && right.isSupported modes

/-- Whether every set can. -/
def CharSet.areSupported (modes : Modes) : List CharSet → Bool
  | [] => true
  | item :: items => item.isSupported modes && CharSet.areSupported modes items
end

mutual
/-- The modes behind a pattern, if it can be matched.  A switch holds up to the end of the group
    around it, the branches behind its own included. -/
def modesBehind? : Pattern → Modes → Option Modes
  | .empty, modes | .anchor, modes => some modes
  | .switch switches, modes => some (modes.switched switches)
  | .literal c, modes => if modes.allowsLiteral c then some modes else none
  | .any, modes => if modes.characters then some modes else none
  | .wordBorder, modes => if modes.characters then none else some modes
  | .shorthand negated, modes => if modes.allowsShorthand negated then some modes else none
  | .brackets negated set, modes =>
    if (CharSet.brackets negated set).isSupported modes then some modes else none
  | .repeated inner, modes => inner.modesBehind? modes
  | .group switches inner, modes =>
    (inner.modesBehind? (modes.switched switches)).map fun _ => modes
  | .concat parts, modes | .alternatives parts, modes => modesBehindAll? parts modes

/-- The modes behind patterns that are read one after the other. -/
def modesBehindAll? : List Pattern → Modes → Option Modes
  | [], modes => some modes
  | part :: parts, modes => do modesBehindAll? parts (← part.modesBehind? modes)
end

/-- Whether a pattern can be matched. -/
def isSupported (pattern : Pattern) : Bool :=
  pattern.nestsWithin nestLimit && (pattern.modesBehind? {}).isSome

end Pattern

end MachineTuning.Command
