import Throttle.Text.Extender
import Throttle.Text.Printable

/-!
Text in double quotes for diagnostics.

A quote and a backslash are escaped by a backslash, four controls have letters of their own, and
an unprintable or extending character is written as `\u` with its code point in lower case
hexadecimal between braces. A single quote stands as it is.
-/

namespace Throttle.Text

def hexDigits (c : Char) : List Char := Nat.toDigits 16 c.toNat

def escape (c : Char) : List Char :=
  if c = '\x00' then ['\\', '0']
  else if c = '\t' then ['\\', 't']
  else if c = '\r' then ['\\', 'r']
  else if c = '\n' then ['\\', 'n']
  else if c = '\\' ∨ c = '"' then ['\\', c]
  else if isPrintable c ∧ !isExtender c then [c]
  else ['\\', 'u', '\x7b'] ++ hexDigits c ++ ['\x7d']

def quoted (s : String) : String := .ofList ('"' :: s.toList.flatMap escape ++ ['"'])

end Throttle.Text
