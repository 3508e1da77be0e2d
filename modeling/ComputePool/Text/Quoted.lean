import ComputePool.Text.Hex
import ComputePool.Text.Printable

/-!
# Quoted text

A text between double quotes, on one line and in visible characters only. A quote and a backslash
get a backslash in front; tab, line feed, carriage return and the null character are `\t`, `\n`,
`\r` and `\0`; every other character that is not shown as itself is its code point in hexadecimal
between braces, after `\u`.
-/

namespace ComputePool.Text

/-- The escaped form of one character. -/
def escape (c : Char) : List Char :=
  if c = '\x00' then ['\\', '0']
  else if c = '\t' then ['\\', 't']
  else if c = '\r' then ['\\', 'r']
  else if c = '\n' then ['\\', 'n']
  else if c = '\\' ∨ c = '"' then ['\\', c]
  else if isPrintable c then [c]
  else ['\\', 'u', '\x7b'] ++ Hex.number c.toNat ++ ['\x7d']

/-- The text in quotes. -/
def quote (s : String) : String :=
  String.ofList ('"' :: s.toList.flatMap escape ++ ['"'])

end ComputePool.Text
