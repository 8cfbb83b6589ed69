namespace MachineTuning.Base64

/-!
# Base64 — bytes in groups of six bits

The standard alphabet with mandatory padding.  `encode` writes three bytes as four symbols;
`decode` accepts what `encode` writes and nothing else, and otherwise says where the text goes
wrong:

* every group of four but the last is checked symbol by symbol;
* the last group, which alone may hold padding, is checked for misplaced padding, foreign
  symbols, its length, its padding and its unused bits, in this order.
-/

/-- The padding symbol. -/
def pad : Char := '='

/-- The symbol of six bits. -/
def symbol (n : Nat) : Char :=
  if n < 26 then Char.ofNat ('A'.toNat + n)
  else if n < 52 then Char.ofNat ('a'.toNat + (n - 26))
  else if n < 62 then Char.ofNat ('0'.toNat + (n - 52))
  else if n = 62 then '+'
  else '/'

/-- The six bits of a symbol. -/
def bits? (b : UInt8) : Option Nat :=
  let n := b.toNat
  if 'A'.toNat ≤ n ∧ n ≤ 'Z'.toNat then some (n - 'A'.toNat)
  else if 'a'.toNat ≤ n ∧ n ≤ 'z'.toNat then some (n - 'a'.toNat + 26)
  else if '0'.toNat ≤ n ∧ n ≤ '9'.toNat then some (n - '0'.toNat + 52)
  else if n = '+'.toNat then some 62
  else if n = '/'.toNat then some 63
  else none

/-- Four symbols for three bytes; one or two bytes at the end are padded to four symbols. -/
def encode : List UInt8 → List Char
  | [] => []
  | [a] =>
    let n := a.toNat * 0x10
    [symbol (n / 0x40), symbol (n % 0x40), pad, pad]
  | [a, b] =>
    let n := (a.toNat * 0x100 + b.toNat) * 0x4
    [symbol (n / 0x1000), symbol (n / 0x40 % 0x40), symbol (n % 0x40), pad]
  | a :: b :: c :: rest =>
    let n := a.toNat * 0x10000 + b.toNat * 0x100 + c.toNat
    symbol (n / 0x40000) :: symbol (n / 0x1000 % 0x40) :: symbol (n / 0x40 % 0x40) ::
      symbol (n % 0x40) :: encode rest

/-! ### Decoding -/

/-- Why a text is not the encoding of any bytes.  Offsets count the bytes of the text. -/
inductive Fault where
  | invalidSymbol (symbol : UInt8) (offset : Nat)
  | invalidLength (length : Nat)
  | invalidLastSymbol (symbol : UInt8) (offset : Nat)
  | invalidPadding
  deriving DecidableEq

/-- A fault in words. -/
def Fault.message : Fault → String
  | .invalidSymbol symbol offset =>
    "Invalid symbol " ++ toString symbol.toNat ++ ", offset " ++ toString offset ++ "."
  | .invalidLength length => "Invalid input length: " ++ toString length
  | .invalidLastSymbol symbol offset =>
    "Invalid last symbol " ++ toString symbol.toNat ++ ", offset " ++ toString offset ++ "."
  | .invalidPadding => "Invalid padding"

/-- Whether a byte is the padding symbol. -/
def isPad (b : UInt8) : Bool :=
  b.toNat = pad.toNat

/-- The bits of a symbol at an offset. -/
def bitsAt (offset : Nat) (b : UInt8) : Except Fault Nat :=
  match bits? b with
  | some n => .ok n
  | none => .error (.invalidSymbol b offset)

/-- The bits of symbols from an offset on. -/
def bitsFrom (offset : Nat) : List UInt8 → Except Fault (List Nat)
  | [] => .ok []
  | b :: rest => do
    let n ← bitsAt offset b
    return n :: (← bitsFrom (offset + 1) rest)

/-- The number spelled by the bits of several symbols. -/
def joined (sextets : List Nat) : Nat :=
  sextets.foldl (fun n sextet => n * 0x40 + sextet) 0

/-- What the symbols and the padding of a last group say, in order of the checks. -/
def decodeLast (offset : Nat) (group : List UInt8) : Except Fault (List UInt8) := do
  let symbols := group.takeWhile (!isPad ·)
  let padding := group.drop symbols.length
  let sextets ← bitsFrom offset symbols
  -- One symbol is less than a byte, whatever stands behind it.
  if symbols.length < 2 then
    match padding with
    | b :: _ => throw (.invalidSymbol b (offset + symbols.length))
    | [] => throw (.invalidLength (offset + symbols.length))
  match padding with
  | b :: rest =>
    if rest.any (!isPad ·) then throw (.invalidSymbol b (offset + symbols.length))
  | [] => pure ()
  -- The padding must fill the group.
  if group.length ≠ 4 then throw .invalidPadding
  let n := joined sextets
  let last := symbols.getLastD 0
  -- The bits that belong to no byte must be zero.
  match sextets.length with
  | 2 =>
    if n % 0x10 ≠ 0 then throw (.invalidLastSymbol last (offset + 1))
    return [UInt8.ofNat (n / 0x10)]
  | 3 =>
    if n % 0x4 ≠ 0 then throw (.invalidLastSymbol last (offset + 2))
    return [UInt8.ofNat (n / 0x400), UInt8.ofNat (n / 0x4)]
  | _ => return [UInt8.ofNat (n / 0x10000), UInt8.ofNat (n / 0x100), UInt8.ofNat n]

/-- The bytes of a text from an offset on, at a border between groups of four. -/
def decodeGroups (offset : Nat) : List UInt8 → Except Fault (List UInt8)
  | [] => .ok []
  -- Four symbols are a last group if nothing stands behind them.
  | a :: b :: c :: d :: e :: rest => do
    let n := joined (← bitsFrom offset [a, b, c, d])
    return UInt8.ofNat (n / 0x10000) :: UInt8.ofNat (n / 0x100) :: UInt8.ofNat n ::
      (← decodeGroups (offset + 4) (e :: rest))
  | group => decodeLast offset group

/-- The bytes that a text encodes.  A foreign symbol that stands alone behind the last group of
    four is reported before any other fault. -/
def decode (text : List UInt8) : Except Fault (List UInt8) :=
  let last := text.getLastD 0
  if text.length % 4 = 1 ∧ ¬ isPad last ∧ bits? last = none then
    .error (.invalidSymbol last (text.length - 1))
  else decodeGroups 0 text

end MachineTuning.Base64
