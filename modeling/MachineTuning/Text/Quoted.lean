import MachineTuning.Text.Hexadecimal
import MachineTuning.Text.Unprintable

namespace MachineTuning.Text

/-!
# Quoted text — a value as messages show it

Messages and log lines show a text between double quotes, so that blanks at its ends and
characters that leave no trace on a screen can be seen.  `quoted` writes it.
-/

/-- How one character appears inside the quotes: a backslash form for the quote, the backslash
    and the common controls, `\u` with the code point in curly brackets for the rest of what
    cannot be seen, and itself otherwise. -/
def quotedChar (c : Char) : List Char :=
  if c = '"' then ['\\', '"']
  else if c = '\\' then ['\\', '\\']
  else if c = '\n' then ['\\', 'n']
  else if c = '\r' then ['\\', 'r']
  else if c = '\t' then ['\\', 't']
  else if c = '\x00' then ['\\', '0']
  else if isUnprintable c then ['\\', 'u', '\x7b'] ++ hexadecimal c.toNat ++ ['\x7d']
  else [c]

/-- A text between double quotes, unseen characters escaped. -/
def quoted (s : String) : String :=
  String.ofList ('"' :: s.toList.flatMap quotedChar ++ ['"'])

end MachineTuning.Text
