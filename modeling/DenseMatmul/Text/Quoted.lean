import DenseMatmul.Text.Unprinted
/-!
# Quoted text

A text between double quotes, every character of which can be seen. A backslash introduces what
cannot stand for itself: `\0`, `\t`, `\r`, `\n`, the double quote, the backslash, and as `\u` with
its code in braces any other character without a shape of its own. A single quote stands for itself.
-/

namespace DenseMatmul.Text

/-- `\u` and the code in braces, in lower-case hexadecimal digits without leading zeros. -/
def codeEscape (c : Char) : List Char :=
  ['\\', 'u', '\x7b'] ++ Nat.toDigits 16 c.toNat ++ ['\x7d']

def escape (c : Char) : List Char :=
  if c = '\x00' then ['\\', '0']
  else if c = '\t' then ['\\', 't']
  else if c = '\r' then ['\\', 'r']
  else if c = '\n' then ['\\', 'n']
  else if c = '"' || c = '\\' then ['\\', c]
  else if isUnprinted c then codeEscape c
  else [c]

def quote (s : List Char) : List Char :=
  '"' :: s.flatMap escape ++ ['"']

end DenseMatmul.Text
