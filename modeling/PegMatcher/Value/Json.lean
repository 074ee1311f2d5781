import PegMatcher.Value

/-! # JSON text of a value

A value is written on one line. Elements and members are separated by a comma and a blank, a key and its
member by a colon and a blank. In a text the double quote, the backslash and the characters below U+0020
are escaped, and every other character stands for itself.
-/

namespace PegMatcher.Value

def jsonChar (c : Char) : List Char :=
  if c = '"' then ['\\', '"']
  else if c = '\\' then ['\\', '\\']
  else if c = '\n' then ['\\', 'n']
  else if c = '\r' then ['\\', 'r']
  else if c = '\t' then ['\\', 't']
  else if c.toNat = 0x08 then ['\\', 'b']
  else if c.toNat = 0x0c then ['\\', 'f']
  else if c.toNat < 0x20 then '\\' :: 'u' :: Text.hexDigits 4 c.toNat
  else [c]

def jsonString (text : String) : List Char :=
  '"' :: text.toList.flatMap jsonChar ++ ['"']

mutual

/-- The characters of a value's JSON text. -/
def jsonChars : Value → List Char
  | null => ['n', 'u', 'l', 'l']
  | bool flag => if flag then ['t', 'r', 'u', 'e'] else ['f', 'a', 'l', 's', 'e']
  | int number => (toString number).toList
  | str text => jsonString text
  | list elements => '[' :: jsonElements elements ++ [']']
  | object members => '{' :: jsonMembers members ++ ['}']

def jsonElements : List Value → List Char
  | [] => []
  | [element] => element.jsonChars
  | element :: next :: rest => element.jsonChars ++ ',' :: ' ' :: jsonElements (next :: rest)

def jsonMembers : List (String × Value) → List Char
  | [] => []
  | [(key, member)] => jsonString key ++ ':' :: ' ' :: member.jsonChars
  | (key, member) :: next :: rest =>
    jsonString key ++ ':' :: ' ' :: member.jsonChars ++ ',' :: ' ' :: jsonMembers (next :: rest)

end

def toJson (value : Value) : String :=
  String.ofList value.jsonChars

end PegMatcher.Value
