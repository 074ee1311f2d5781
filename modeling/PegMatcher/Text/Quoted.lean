import PegMatcher.Text.Printable

/-! # Quoted and escaped text

A quoted text stands between two equal quote marks. The mark is the apostrophe, unless the text holds an
apostrophe and no double quote. Inside the marks a backslash and the mark itself are preceded by a
backslash, and a character that is not printable is written as an escape: a letter for line feed, carriage
return and tab, and otherwise its code point in two, four or eight hexadecimal digits.

Every piece of `quoteChars` starts with a backslash or is a single printable character that is neither a
backslash nor the mark, so the text can be read back from its quoted form.
-/

namespace PegMatcher.Text

def hexDigit (n : Nat) : Char :=
  if n < 10 then Char.ofNat (48 + n) else Char.ofNat (87 + n)

/-- The last `width` hexadecimal digits of a number, the most significant first. -/
def hexDigits : Nat → Nat → List Char
  | 0, _ => []
  | width + 1, n => hexDigits width (n / 16) ++ [hexDigit (n % 16)]

/-- The escape that stands for a character without a visible form. -/
def escapeCode (c : Char) : List Char :=
  if c = '\n' then ['\\', 'n']
  else if c = '\r' then ['\\', 'r']
  else if c = '\t' then ['\\', 't']
  else if c.toNat < 0x100 then '\\' :: 'x' :: hexDigits 2 c.toNat
  else if c.toNat < 0x10000 then '\\' :: 'u' :: hexDigits 4 c.toNat
  else '\\' :: 'U' :: hexDigits 8 c.toNat

/-- A printable character as it is, any other one as its escape. -/
def escapeUnprintable (c : Char) : List Char :=
  if isPrintable c then [c] else escapeCode c

/-- The quote mark for a text: an apostrophe, unless only a double quote avoids escaping it. -/
def quoteMark (text : List Char) : Char :=
  if text.contains '\'' && !text.contains '"' then '"' else '\''

/-- One character as it stands between two quote marks. -/
def quoteChar (mark c : Char) : List Char :=
  if c = mark ∨ c = '\\' then ['\\', c] else escapeUnprintable c

def quoteChars (text : List Char) : List Char :=
  quoteMark text :: text.flatMap (quoteChar (quoteMark text)) ++ [quoteMark text]

def quote (text : String) : String :=
  String.ofList (quoteChars text.toList)

@[simp] theorem toList_quote (text : String) : (quote text).toList = quoteChars text.toList :=
  String.toList_ofList

end PegMatcher.Text
