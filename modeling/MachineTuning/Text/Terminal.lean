import MachineTuning.Text.Utf8

namespace MachineTuning.Text

/-!
# Terminal controls — what of a text can be seen

A terminal acts on some characters instead of showing them: single controls, and sequences that an
escape character starts.  `Terminal.visible` is what is left of a text without them.
-/

namespace Terminal

/-- Where a terminal is inside the sequences that it acts on. -/
inductive Position where
  /-- Outside of all sequences. -/
  | ground
  /-- Behind an escape character. -/
  | escape
  /-- Inside an escape sequence that a single character ends. -/
  | escapeIntermediate
  /-- Inside a control sequence, which a letter or a sign beyond the digits ends. -/
  | control
  /-- At the start of a device control string. -/
  | deviceEntry
  /-- Inside the parameters of a device control string. -/
  | deviceParameters
  /-- Behind the parameters of a device control string. -/
  | deviceIntermediate
  /-- Inside a string that only a string terminator ends. -/
  | string
  /-- Inside a command of the operating system, which a bell ends. -/
  | command
  deriving DecidableEq

/-- The controls that lay out a text and belong to it. -/
def isLayout (c : Char) : Bool :=
  c = '\t' || c = '\n' || c = '\x0c' || c = '\r'

/-- Whether a character can be seen, or lays out a text, outside of all sequences. -/
def isVisible (c : Char) : Bool :=
  isLayout c || (0x20 ≤ c.toNat && c ≠ '\x7f')

namespace Position

/-- Whether a terminal shows a character. -/
def shows (p : Position) (c : Char) : Bool :=
  match p with
  | .ground => isVisible c
  | .escape | .escapeIntermediate | .control => isLayout c
  | _ => false

/-- The position behind a code point in front of the body of a device control string, which may
    have parameters and then intermediate characters. -/
def nextInDevice (p : Position) (n : Nat) : Position :=
  if 0x20 ≤ n ∧ n < 0x30 then .deviceIntermediate
  else if 0x30 ≤ n ∧ n < 0x40 then
    if p = .deviceIntermediate ∨ n = 0x3A ∨ (p = .deviceParameters ∧ 0x3C ≤ n) then .string
    else .deviceParameters
  else if 0x40 ≤ n ∧ n < 0x7F then .string
  else p

/-- The position behind a character.  An escape character starts a sequence everywhere, and the
    characters for cancel and substitute end one. -/
def next (p : Position) (c : Char) : Position :=
  let n := c.toNat
  if c = '\x1b' then .escape
  else if c = '\x18' ∨ c = '\x1a' then .ground
  else
    match p with
    | .ground => .ground
    | .escape =>
      if c = '[' then .control
      else if c = ']' then .command
      else if c = 'P' then .deviceEntry
      else if c = 'X' ∨ c = '^' ∨ c = '_' then .string
      else if 0x20 ≤ n ∧ n < 0x30 then .escapeIntermediate
      else if 0x30 ≤ n ∧ n < 0x7F then .ground
      else .escape
    | .escapeIntermediate => if 0x30 ≤ n ∧ n < 0x7F then .ground else .escapeIntermediate
    | .control => if 0x40 ≤ n ∧ n < 0x7F then .ground else .control
    | .command => if c = '\x07' then .ground else .command
    | .string => if (utf8 c.toString).contains 0x9C then .ground else .string
    | .deviceEntry | .deviceParameters | .deviceIntermediate => p.nextInDevice n

end Position

/-- The visible characters from a position on.  A layout character inside a sequence is shown, and
    what stands behind it is shown as well: `showing` says that this is so.  The next control goes
    on with the sequence. -/
def visibleFrom (p : Position) (showing : Bool) : List Char → List Char
  | [] => []
  | c :: cs =>
    if showing ∧ isVisible c then
      c :: visibleFrom (if c.toNat < 0x80 then p else .ground) true cs
    else if p.shows c then c :: visibleFrom (p.next c) true cs
    else visibleFrom (p.next c) false cs

/-- What can be seen of a text. -/
def visible (s : String) : String :=
  String.ofList (visibleFrom .ground false s.toList)

end Terminal

end MachineTuning.Text
