import HeavyHitters.Text.Printable

/-!
# Quoted texts

A text between quotes, as error messages show it. The quote is an apostrophe, unless the text
holds an apostrophe and no double quote. Inside, the backslash and the quote in use are escaped
with a backslash; tab, line feed and carriage return have short escapes; any other unprintable
character is written as its code point, in two, four or eight hexadecimal digits.
-/

namespace HeavyHitters.Text

/-- The apostrophe. -/
def apostrophe : Char := '\x27'

/-- The quote that a text is put between. -/
def quoteFor (cs : List Char) : Char :=
  if cs.contains apostrophe && !cs.contains '"' then '"' else apostrophe

/-- A number in hexadecimal, filled up with zeros to `width` digits. -/
def hexadecimal (width n : Nat) : List Char :=
  (Nat.toDigits 16 n).leftpad width '0'

/-- An unprintable character by its code point, with the shortest of the three escapes. -/
def escapeCode (n : Nat) : List Char :=
  if n < 0x100 then '\\' :: 'x' :: hexadecimal 2 n
  else if n < 0x10000 then '\\' :: 'u' :: hexadecimal 4 n
  else '\\' :: 'U' :: hexadecimal 8 n

/-- One character inside quotes. -/
def escape (quote c : Char) : List Char :=
  if c == quote || c == '\\' then ['\\', c]
  else if c == '\t' then ['\\', 't']
  else if c == '\n' then ['\\', 'n']
  else if c == '\r' then ['\\', 'r']
  else if isPrintable c then [c]
  else escapeCode c.toNat

/-- A text between quotes. -/
def quoted (cs : List Char) : List Char :=
  let quote := quoteFor cs
  quote :: cs.flatMap (escape quote) ++ [quote]

end HeavyHitters.Text
