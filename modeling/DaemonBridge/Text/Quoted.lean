import DaemonBridge.Text.Numeral
import DaemonBridge.Text.Printable

/-!
# Quoted text

A string as diagnostics show it: between double quotes, with a backslash before a quote or a
backslash, short escapes for NUL, tab, line feed and carriage return, and the code point in braces
for every other character that is not printable on its own.
-/

namespace DaemonBridge.Text

/-- One character inside quotes. -/
def quotedChar (c : Char) : List Char :=
  if c = '"' then ['\\', '"']
  else if c = '\\' then ['\\', '\\']
  else if c = '\n' then ['\\', 'n']
  else if c = '\r' then ['\\', 'r']
  else if c = '\t' then ['\\', 't']
  else if c = '\x00' then ['\\', '0']
  else if isPrintable c then [c]
  else ['\\', 'u', '\x7b'] ++ Nat.toDigits 16 c.toNat ++ ['\x7d']

/-- A string between quotes. -/
def quoted (s : String) : String :=
  String.ofList ('"' :: s.toList.flatMap quotedChar ++ ['"'])

end DaemonBridge.Text
