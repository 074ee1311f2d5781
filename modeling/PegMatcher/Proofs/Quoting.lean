import Mathlib.Algebra.Group.Nat.Defs
import Mathlib.Tactic.SplitIfs
import PegMatcher.Text.Quoted

/-! # Quoted text can be read back

A quoted text is read one character at a time: a backslash announces an escape, and every other character stands for
itself. `readUntil` repeats this up to the closing mark. It serves for every notation that writes a text character by
character between two marks, as long as what is written for a character can be read back whatever comes behind it, and
does not begin with the mark. `unquote_quote` is the case of quoted texts.
-/

namespace PegMatcher.Text

def hexValue? (c : Char) : Option Nat :=
  if c.isDigit then some (c.toNat - 48)
  else if 'a' ≤ c ∧ c ≤ 'f' then some (c.toNat - 87)
  else if 'A' ≤ c ∧ c ≤ 'F' then some (c.toNat - 55)
  else none

def hexNumber? (digits : List Char) : Option Nat :=
  digits.foldlM (fun number digit => (hexValue? digit).map (16 * number + ·)) 0

/-- Reads a number with a given number of hexadecimal digits, and returns what is left of the text. -/
def readHex (width : Nat) (text : List Char) : Option (Nat × List Char) :=
  if text.length < width then none else (hexNumber? (text.take width)).map (·, text.drop width)

def char? (code : Nat) : Option Char :=
  if (Char.ofNat code).toNat = code then some (Char.ofNat code) else none

private theorem hexValue?_hexDigit : ∀ n < 16, hexValue? (hexDigit n) = some n := by
  decide

@[simp] theorem length_hexDigits (width n : Nat) : (hexDigits width n).length = width := by
  induction width generalizing n with
  | zero => rfl
  | succ width ih => rw [hexDigits, List.length_append, ih, List.length_singleton]

private theorem hexNumber?_hexDigits {width n : Nat} (fits : n < 16 ^ width) :
    hexNumber? (hexDigits width n) = some n := by
  induction width generalizing n with
  | zero =>
    obtain rfl : n = 0 := by omega
    rfl
  | succ width ih =>
    have front : hexNumber? (hexDigits width (n / 16)) = some (n / 16) := by
      apply ih
      rw [Nat.pow_succ] at fits
      omega
    have last := hexValue?_hexDigit (n % 16) (by omega)
    rw [hexNumber?] at front ⊢
    rw [hexDigits, List.foldlM_append, front]
    simp only [Option.bind_eq_bind, Option.bind_some, List.foldlM_cons, List.foldlM_nil, last, Option.map_some,
      Option.pure_def, Option.some.injEq]
    omega

theorem readHex_hexDigits {width n : Nat} (fits : n < 16 ^ width) (rest : List Char) :
    readHex width (hexDigits width n ++ rest) = some (n, rest) := by
  have enough : ¬(hexDigits width n ++ rest).length < width := by
    rw [List.length_append, length_hexDigits]
    omega
  have front : (hexDigits width n ++ rest).take width = hexDigits width n :=
    List.take_left' (length_hexDigits width n)
  have behind : (hexDigits width n ++ rest).drop width = rest :=
    List.drop_left' (length_hexDigits width n)
  rw [readHex, if_neg enough, front, behind, hexNumber?_hexDigits fits, Option.map_some]

@[simp] theorem char?_toNat (c : Char) : char? c.toNat = some c := by
  rw [char?, Char.ofNat_toNat, if_pos rfl]

/-- Reads characters up to a mark, and returns them with what is left of the text behind the mark. The budget bounds
the number of characters and the mark together. -/
def readUntil (mark : Char) (readChar : List Char → Option (Char × List Char)) :
    Nat → List Char → Option (List Char × List Char)
  | 0, _ => none
  | budget + 1, text =>
    if text.head? = some mark then some ([], text.tail)
    else do
      let (c, rest) ← readChar text
      let (chars, rest) ← readUntil mark readChar budget rest
      some (c :: chars, rest)

/-- What is written character by character is read back, if this holds for one character and none of them begins with
the mark. -/
theorem readUntil_flatMap {mark : Char} {readChar : List Char → Option (Char × List Char)}
    {write : Char → List Char} (reads : ∀ c rest, readChar (write c ++ rest) = some (c, rest))
    (begins : ∀ c rest, (write c ++ rest).head? ≠ some mark) {text : List Char} {budget : Nat}
    (enough : text.length < budget) (rest : List Char) :
    readUntil mark readChar budget (text.flatMap write ++ mark :: rest) = some (text, rest) := by
  induction text generalizing budget with
  | nil =>
    obtain ⟨less, rfl⟩ := Nat.exists_eq_add_one_of_ne_zero (Nat.ne_of_gt enough)
    simp [readUntil]
  | cons c text ih =>
    obtain ⟨less, rfl⟩ := Nat.exists_eq_add_one_of_ne_zero (Nat.ne_of_gt (Nat.zero_lt_of_lt enough))
    have tail := ih (Nat.lt_of_succ_lt_succ enough)
    rw [List.flatMap_cons, List.append_assoc, readUntil, if_neg (begins c _), reads]
    simp only [Option.bind_eq_bind, Option.bind_some, tail]

/-- A text is not longer than what is written for it, if something is written for every character. -/
theorem length_le_flatMap {write : Char → List Char} (written : ∀ c, write c ≠ []) (text : List Char) :
    text.length ≤ (text.flatMap write).length := by
  induction text with
  | nil => exact Nat.le_refl 0
  | cons c text ih =>
    have first := List.length_pos_iff.mpr (written c)
    rw [List.flatMap_cons, List.length_append, List.length_cons]
    omega

/-- The number of digits behind a letter that announces a code point. -/
def escapeWidth? : Char → Option Nat
  | 'x' => some 2
  | 'u' => some 4
  | 'U' => some 8
  | _ => none

/-- The character that another letter stands for behind a backslash. -/
def escapedChar? : Char → Option Char
  | 'n' => some '\n'
  | 'r' => some '\r'
  | 't' => some '\t'
  | '\\' => some '\\'
  | '\'' => some '\''
  | '"' => some '"'
  | _ => none

def readEscape : List Char → Option (Char × List Char)
  | [] => none
  | letter :: rest =>
    match escapeWidth? letter with
    | some width => do
      let (code, rest) ← readHex width rest
      (char? code).map (·, rest)
    | none => (escapedChar? letter).map (·, rest)

def readQuoted : List Char → Option (Char × List Char)
  | [] => none
  | c :: rest => if c = '\\' then readEscape rest else some (c, rest)

/-- The text with a given quoted form: what stands between two equal quote marks, with its escapes undone. -/
def unquote (quoted : String) : Option String :=
  match quoted.toList with
  | [] => none
  | mark :: rest =>
    if mark = '\'' ∨ mark = '"' then
      match readUntil mark readQuoted rest.length rest with
      | some (chars, []) => some (String.ofList chars)
      | _ => none
    else none

private theorem readEscape_code (letter : Char) {width : Nat} (wide : escapeWidth? letter = some width) {c : Char}
    (fits : c.toNat < 16 ^ width) (rest : List Char) :
    readEscape (letter :: (hexDigits width c.toNat ++ rest)) = some (c, rest) := by
  simp only [readEscape, wide, readHex_hexDigits fits, Option.bind_eq_bind, Option.bind_some, char?_toNat,
    Option.map_some]

/-- The three widths of escapes are wide enough for the code points that they are used for. -/
theorem readQuoted_escapeCode (c : Char) (rest : List Char) :
    readQuoted (escapeCode c ++ rest) = some (c, rest) := by
  rw [escapeCode]
  split_ifs with feed carriage tab short medium
  · rw [feed]
    rfl
  · rw [carriage]
    rfl
  · rw [tab]
    rfl
  · have fits : c.toNat < 16 ^ 2 := short
    exact readEscape_code 'x' rfl fits rest
  · have fits : c.toNat < 16 ^ 4 := medium
    exact readEscape_code 'u' rfl fits rest
  · have fits : c.toNat < 16 ^ 8 := c.val.toNat_lt
    exact readEscape_code 'U' rfl fits rest

theorem quoteMark_eq (text : List Char) : quoteMark text = '\'' ∨ quoteMark text = '"' := by
  rw [quoteMark]
  split
  · exact .inr rfl
  · exact .inl rfl

section Marks

variable {mark : Char} (isMark : mark = '\'' ∨ mark = '"')

include isMark

/-- What is written for a character between quote marks is read back as that character. -/
theorem readQuoted_quoteChar (c : Char) (rest : List Char) :
    readQuoted (quoteChar mark c ++ rest) = some (c, rest) := by
  rw [quoteChar]
  split
  · rename_i special
    have escaped : escapeWidth? c = none ∧ escapedChar? c = some c := by
      obtain rfl | rfl := special
      · obtain rfl | rfl := isMark <;> exact ⟨rfl, rfl⟩
      · exact ⟨rfl, rfl⟩
    simp only [List.cons_append, List.nil_append, readQuoted, ↓reduceIte, readEscape, escaped, Option.map_some]
  · rename_i plain
    rw [escapeUnprintable]
    split
    · rw [List.singleton_append, readQuoted, if_neg fun backslash => plain (.inr backslash)]
    · exact readQuoted_escapeCode c rest

omit isMark in
private theorem head?_escapeCode (c : Char) (rest : List Char) : (escapeCode c ++ rest).head? = some '\\' := by
  rw [escapeCode]
  split_ifs <;> rfl

private theorem head?_quoteChar_ne (c : Char) (rest : List Char) : (quoteChar mark c ++ rest).head? ≠ some mark := by
  have other : '\\' ≠ mark := by
    obtain rfl | rfl := isMark <;> decide
  rw [quoteChar]
  split
  · intro same
    exact other (Option.some.inj same)
  · rename_i plain
    rw [escapeUnprintable]
    split
    · intro same
      exact plain (.inl (Option.some.inj same))
    · rw [head?_escapeCode]
      intro same
      exact other (Option.some.inj same)

end Marks

/-- Undoing the quoting of a text gives the text back. -/
theorem unquote_quote (text : String) : unquote (quote text) = some text := by
  have isMark := quoteMark_eq text.toList
  have written (c : Char) : quoteChar (quoteMark text.toList) c ≠ [] := by
    intro nothing
    have reads := readQuoted_quoteChar isMark c []
    rw [nothing] at reads
    cases reads
  have enough : text.toList.length <
      (text.toList.flatMap (quoteChar (quoteMark text.toList)) ++ [quoteMark text.toList]).length := by
    have longer := length_le_flatMap written text.toList
    rw [List.length_append, List.length_singleton]
    omega
  have reads := readUntil_flatMap (readQuoted_quoteChar isMark) (head?_quoteChar_ne isMark) enough []
  simp only [unquote, toList_quote, quoteChars, List.cons_append, isMark, ↓reduceIte, reads, String.ofList_toList]

end PegMatcher.Text
