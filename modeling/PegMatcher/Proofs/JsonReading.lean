import PegMatcher.Matcher
import PegMatcher.Proofs.Quoting
import PegMatcher.Rendering

/-! # JSON text can be read back

`Json.decode` reads a JSON text by the grammar of JSON: blanks may stand around every part, a text may be written with
any escape, and a character beyond the first plane also as a pair of surrogates. Values have no fractions, so a number
is an integer here, without superfluous zeros.

`decode_toJson` says that the JSON text of a value is read back as that value. What is left behind a value is part of
the statements that lead to it, because the reader meets the elements of a list as left-over text of each other; only a
digit must not follow, where a number would go on.
-/

namespace PegMatcher.Json

/-- The characters that may stand between the parts of a JSON text. -/
def isBlank (c : Char) : Bool :=
  c = ' ' || c = '\t' || c = '\n' || c = '\r'

def skipBlanks (text : List Char) : List Char :=
  text.dropWhile isBlank

/-- The character that a letter stands for behind a backslash. -/
def escapedChar? : Char → Option Char
  | '"' => some '"'
  | '\\' => some '\\'
  | '/' => some '/'
  | 'b' => some '\x08'
  | 'f' => some '\x0c'
  | 'n' => some '\n'
  | 'r' => some '\r'
  | 't' => some '\t'
  | _ => none

/-- Reads a character that is given by its code, or the second half of a pair of surrogates behind the first. -/
def readCode (text : List Char) : Option (Char × List Char) := do
  let (code, rest) ← Text.readHex 4 text
  if 0xd800 ≤ code ∧ code < 0xdc00 then
    match rest with
    | '\\' :: 'u' :: rest => do
      let (low, rest) ← Text.readHex 4 rest
      if 0xdc00 ≤ low ∧ low < 0xe000 then
        (Text.char? (0x10000 + 0x400 * (code - 0xd800) + (low - 0xdc00))).map (·, rest)
      else none
    | _ => none
  else (Text.char? code).map (·, rest)

def readEscape : List Char → Option (Char × List Char)
  | [] => none
  | letter :: rest => if letter = 'u' then readCode rest else (escapedChar? letter).map (·, rest)

def readChar : List Char → Option (Char × List Char)
  | [] => none
  | c :: rest =>
    if c = '\\' then readEscape rest
    else if c.toNat < 0x20 then none
    else some (c, rest)

def readText (text : List Char) : Option (String × List Char) :=
  (Text.readUntil '"' readChar text.length text).map fun (chars, rest) => (String.ofList chars, rest)

/-- Reads the digits of a number. A zero is the first of them only if it is the only one. -/
def readNat (text : List Char) : Option (Nat × List Char) :=
  let digits := text.takeWhile Char.isDigit
  if digits = [] ∨ digits.head? = some '0' ∧ digits ≠ ['0'] then none
  else some (Nat.ofDigitChars 10 digits 0, text.dropWhile Char.isDigit)

def readInt (text : List Char) : Option (Int × List Char) :=
  if text.head? = some '-' then (readNat text.tail).map fun (n, rest) => (-(n : Int), rest)
  else (readNat text).map fun (n, rest) => ((n : Int), rest)

def readScalar : List Char → Option (Value × List Char)
  | 'n' :: 'u' :: 'l' :: 'l' :: rest => some (.null, rest)
  | 't' :: 'r' :: 'u' :: 'e' :: rest => some (.bool true, rest)
  | 'f' :: 'a' :: 'l' :: 's' :: 'e' :: rest => some (.bool false, rest)
  | text => (readInt text).map fun (n, rest) => (.int n, rest)

mutual

/-- Reads a value, and returns what is left of the text behind it. The budget bounds the number of steps. -/
def readValue : Nat → List Char → Option (Value × List Char)
  | 0, _ => none
  | budget + 1, text =>
    match skipBlanks text with
    | [] => none
    | c :: rest =>
      if c = '"' then (readText rest).map fun (text, rest) => (.str text, rest)
      else if c = '[' then
        if (skipBlanks rest).head? = some ']' then some (.list [], (skipBlanks rest).tail)
        else (readElements budget rest).map fun (elements, rest) => (.list elements, rest)
      else if c = '{' then
        if (skipBlanks rest).head? = some '}' then some (.object [], (skipBlanks rest).tail)
        else (readMembers budget rest).map fun (members, rest) => (.object members, rest)
      else readScalar (c :: rest)

/-- Reads the elements of a list that has some, up to its closing bracket. -/
def readElements : Nat → List Char → Option (List Value × List Char)
  | 0, _ => none
  | budget + 1, text => do
    let (element, rest) ← readValue budget text
    match skipBlanks rest with
    | ',' :: rest => do
      let (elements, rest) ← readElements budget rest
      some (element :: elements, rest)
    | ']' :: rest => some ([element], rest)
    | _ => none

/-- Reads the members of an object that has some, up to its closing brace. -/
def readMembers : Nat → List Char → Option (List (String × Value) × List Char)
  | 0, _ => none
  | budget + 1, text =>
    match skipBlanks text with
    | '"' :: rest => do
      let (key, rest) ← readText rest
      match skipBlanks rest with
      | ':' :: rest => do
        let (member, rest) ← readValue budget rest
        match skipBlanks rest with
        | ',' :: rest => do
          let (members, rest) ← readMembers budget rest
          some ((key, member) :: members, rest)
        | '}' :: rest => some ([(key, member)], rest)
        | _ => none
      | _ => none
    | _ => none

end

/-- The value of a JSON text. Each step reads a character, so the length of the text is budget enough. -/
def decode (text : String) : Option Value := do
  let (value, rest) ← readValue (text.length + 1) text.toList
  if skipBlanks rest = [] then some value else none

/-- What is written for a character inside a text is read back as that character. -/
theorem readChar_jsonChar (c : Char) (rest : List Char) : readChar (Value.jsonChar c ++ rest) = some (c, rest) := by
  rw [Value.jsonChar]
  split_ifs with mark backslash feed carriage tab back page control
  · rw [mark]
    rfl
  · rw [backslash]
    rfl
  · rw [feed]
    rfl
  · rw [carriage]
    rfl
  · rw [tab]
    rfl
  · have same : c = '\x08' := by rw [← Char.ofNat_toNat c, back]
    rw [same]
    rfl
  · have same : c = '\x0c' := by rw [← Char.ofNat_toNat c, page]
    rw [same]
    rfl
  · have fits : c.toNat < 16 ^ 4 := by omega
    have plain : ¬(0xd800 ≤ c.toNat ∧ c.toNat < 0xdc00) := by omega
    simp only [List.cons_append, readChar, ↓reduceIte, readEscape, readCode, Text.readHex_hexDigits fits,
      Option.bind_eq_bind, Option.bind_some, plain, Text.char?_toNat, Option.map_some]
  · rw [List.singleton_append, readChar, if_neg backslash, if_neg control]

private theorem head?_jsonChar_ne (c : Char) (rest : List Char) : (Value.jsonChar c ++ rest).head? ≠ some '"' := by
  rw [Value.jsonChar]
  split_ifs with mark
  all_goals intro same
  all_goals first | exact mark (Option.some.inj same) | cases same

/-- A text is read back behind its opening quote. -/
theorem readText_flatMap (text : String) (rest : List Char) :
    readText (text.toList.flatMap Value.jsonChar ++ '"' :: rest) = some (text, rest) := by
  have written (c : Char) : Value.jsonChar c ≠ [] := by
    intro nothing
    have reads := readChar_jsonChar c []
    rw [nothing] at reads
    cases reads
  have enough : text.toList.length < (text.toList.flatMap Value.jsonChar ++ '"' :: rest).length := by
    have longer := Text.length_le_flatMap written text.toList
    rw [List.length_append, List.length_cons]
    omega
  rw [readText, Text.readUntil_flatMap readChar_jsonChar head?_jsonChar_ne enough rest]
  simp only [Option.map_some, String.ofList_toList]

def Stops (rest : List Char) : Prop :=
  ∀ c, rest.head? = some c → c.isDigit = false

private theorem stops_nil : Stops [] :=
  nofun

private theorem stops_cons {c : Char} (other : c.isDigit = false) (rest : List Char) : Stops (c :: rest) := by
  intro d same
  rw [← Option.some.inj same]
  exact other

private theorem head?_toDigits_ne {n : Nat} (positive : n ≠ 0) : (Nat.toDigits 10 n).head? ≠ some '0' := by
  induction n using Nat.strongRecOn with
  | ind n ih =>
    by_cases small : n < 10
    · rw [Nat.toDigits_of_lt_base small, List.head?_singleton, ne_eq, Option.some.injEq, Nat.digitChar_eq_zero]
      exact positive
    · have front := ih (n / 10) (by omega) (by omega)
      rw [Nat.toDigits_of_base_le (by decide) (by omega)]
      cases digits : Nat.toDigits 10 (n / 10) with
      | nil => exact absurd digits Nat.toDigits_ne_nil
      | cons c tail => rwa [digits] at front

/-- The digits of a number are what a text begins with, if it does not go on with a digit. -/
theorem readNat_toDigits (n : Nat) {rest : List Char} (stops : Stops rest) :
    readNat (Nat.toDigits 10 n ++ rest) = some (n, rest) := by
  have digits : ∀ c ∈ Nat.toDigits 10 n, c.isDigit = true :=
    fun c member => Nat.isDigit_of_mem_toDigits (by decide) (by decide) member
  have nothing : rest.takeWhile Char.isDigit = [] ∧ rest.dropWhile Char.isDigit = rest := by
    cases rest with
    | nil => exact ⟨rfl, rfl⟩
    | cons c rest =>
      have other : ¬c.isDigit = true := Bool.eq_false_iff.mp (stops c rfl)
      exact ⟨List.takeWhile_cons_of_neg other, List.dropWhile_cons_of_neg other⟩
  have front : (Nat.toDigits 10 n ++ rest).takeWhile Char.isDigit = Nat.toDigits 10 n := by
    rw [List.takeWhile_append_of_pos digits, nothing.1, List.append_nil]
  have behind : (Nat.toDigits 10 n ++ rest).dropWhile Char.isDigit = rest := by
    rw [List.dropWhile_append_of_pos digits, nothing.2]
  have proper : ¬(Nat.toDigits 10 n = [] ∨ (Nat.toDigits 10 n).head? = some '0' ∧ Nat.toDigits 10 n ≠ ['0']) := by
    rintro (nothing | ⟨zero, more⟩)
    · exact Nat.toDigits_ne_nil nothing
    · by_cases positive : n = 0
      · rw [positive, Nat.toDigits_zero] at more
        exact more rfl
      · exact head?_toDigits_ne positive zero
  simp only [readNat, front, behind, if_neg proper, Nat.ofDigitChars_ten_toDigits]

/-- A character that a number can begin with. -/
def StartsNumber (c : Char) : Prop :=
  c.isDigit = true ∨ c = '-'

instance (c : Char) : Decidable (StartsNumber c) :=
  inferInstanceAs (Decidable (_ ∨ _))

private theorem StartsNumber.ne {c d : Char} (starts : StartsNumber c) (other : ¬StartsNumber d) : c ≠ d := by
  rintro rfl
  exact other starts

private theorem exists_toDigits (n : Nat) : ∃ c tail, Nat.toDigits 10 n = c :: tail ∧ c.isDigit = true := by
  obtain ⟨c, tail, same⟩ := List.exists_cons_of_ne_nil (Nat.toDigits_ne_nil (n := n) (b := 10))
  have member : c ∈ Nat.toDigits 10 n := by
    rw [same]
    exact List.mem_cons_self
  exact ⟨c, tail, same, Nat.isDigit_of_mem_toDigits (by decide) (by decide) member⟩

/-- A number is written with its digits, behind a sign if it is negative. -/
theorem toList_toString (number : Int) :
    (toString number).toList =
      if 0 ≤ number then Nat.toDigits 10 number.toNat else '-' :: Nat.toDigits 10 (-number).toNat := by
  change number.repr.toList = _
  rw [Int.repr_eq_if]
  split_ifs
  · rw [Nat.repr_eq_ofList_toDigits, String.toList_ofList]
  · simp only [Nat.repr_eq_ofList_toDigits, String.toList_append, String.toList_ofList]
    exact List.singleton_append

private theorem exists_toString (number : Int) : ∃ c tail, (toString number).toList = c :: tail ∧ StartsNumber c := by
  rw [toList_toString]
  split_ifs
  · obtain ⟨c, tail, same, digit⟩ := exists_toDigits number.toNat
    exact ⟨c, tail, same, .inl digit⟩
  · exact ⟨'-', _, rfl, .inr rfl⟩

private theorem readInt_toString (number : Int) {rest : List Char} (stops : Stops rest) :
    readInt ((toString number).toList ++ rest) = some (number, rest) := by
  rw [toList_toString]
  split_ifs with positive
  · obtain ⟨c, tail, same, digit⟩ := exists_toDigits number.toNat
    have unsigned : (Nat.toDigits 10 number.toNat ++ rest).head? ≠ some '-' := by
      rw [same]
      intro sign
      rw [Option.some.inj sign] at digit
      exact absurd digit (by decide)
    simp only [readInt, unsigned, ↓reduceIte, readNat_toDigits _ stops, Option.map_some,
      Int.toNat_of_nonneg positive]
  · have opposite : 0 ≤ -number := by omega
    simp only [List.cons_append, readInt, List.head?_cons, ↓reduceIte, List.tail_cons, readNat_toDigits _ stops,
      Option.map_some, Int.toNat_of_nonneg opposite, Int.neg_neg]

/-- What begins like a number is no word. -/
theorem readScalar_toString (number : Int) {rest : List Char} (stops : Stops rest) :
    readScalar ((toString number).toList ++ rest) = some (.int number, rest) := by
  obtain ⟨c, tail, same, starts⟩ := exists_toString number
  have reads := readInt_toString number stops
  rw [same, List.cons_append] at reads ⊢
  rw [readScalar.eq_def]
  split
  · rename_i word
    exact absurd (List.head_eq_of_cons_eq word) (starts.ne (by decide))
  · rename_i word
    exact absurd (List.head_eq_of_cons_eq word) (starts.ne (by decide))
  · rename_i word
    exact absurd (List.head_eq_of_cons_eq word) (starts.ne (by decide))
  · rw [reads, Option.map_some]

@[simp] theorem skipBlanks_space (text : List Char) : skipBlanks (' ' :: text) = skipBlanks text :=
  List.dropWhile_cons_of_pos rfl

@[simp] theorem skipBlanks_cons {c : Char} (visible : isBlank c = false) (text : List Char) :
    skipBlanks (c :: text) = c :: text :=
  List.dropWhile_cons_of_neg (Bool.eq_false_iff.mp visible)

/-- The JSON text of a value begins with a character that is no blank and closes no list. -/
theorem exists_jsonChars (value : Value) :
    ∃ c tail, value.jsonChars = c :: tail ∧ isBlank c = false ∧ c ≠ ']' := by
  cases value with
  | null => exact ⟨_, _, rfl, by decide, by decide⟩
  | bool flag => cases flag <;> exact ⟨_, _, rfl, by decide, by decide⟩
  | int number =>
    obtain ⟨c, tail, same, starts⟩ := exists_toString number
    have visible : isBlank c = false := by
      simp [isBlank, starts.ne (d := ' ') (by decide), starts.ne (d := '\t') (by decide),
        starts.ne (d := '\n') (by decide), starts.ne (d := '\r') (by decide)]
    exact ⟨c, tail, same, visible, starts.ne (by decide)⟩
  | str text => exact ⟨_, _, rfl, by decide, by decide⟩
  | list elements => exact ⟨_, _, rfl, by decide, by decide⟩
  | object members => exact ⟨_, _, rfl, by decide, by decide⟩

private theorem readValue_space (budget : Nat) (text : List Char) :
    readValue budget (' ' :: text) = readValue budget text := by
  cases budget with
  | zero => rw [readValue, readValue]
  | succ budget => rw [readValue, readValue, skipBlanks_space]

private theorem readElements_space (budget : Nat) (text : List Char) :
    readElements budget (' ' :: text) = readElements budget text := by
  cases budget with
  | zero => rw [readElements, readElements]
  | succ budget => rw [readElements, readElements, readValue_space]

private theorem readMembers_space (budget : Nat) (text : List Char) :
    readMembers budget (' ' :: text) = readMembers budget text := by
  cases budget with
  | zero => rw [readMembers, readMembers]
  | succ budget => rw [readMembers, readMembers, skipBlanks_space]

/-- A number is read by its digits, and not as anything else. -/
theorem readValue_toString (number : Int) {rest : List Char} (stops : Stops rest) (budget : Nat) :
    readValue (budget + 1) ((toString number).toList ++ rest) = some (.int number, rest) := by
  have reads := readScalar_toString number stops
  obtain ⟨c, tail, same, visible, _⟩ := exists_jsonChars (.int number)
  obtain ⟨_, _, same', starts⟩ := exists_toString number
  cases same.symm.trans same'
  rw [same', List.cons_append] at reads ⊢
  simp only [readValue, skipBlanks_cons visible, starts.ne (d := '"') (by decide), starts.ne (d := '[') (by decide),
    starts.ne (d := '{') (by decide), ↓reduceIte, reads]

/-- A value whose JSON text is read back as the value, whatever is left behind it. -/
def Reads (value : Value) : Prop :=
  ∀ ⦃budget rest⦄, Stops rest → value.jsonChars.length ≤ budget →
    readValue budget (value.jsonChars ++ rest) = some (value, rest)

/-- Some budget is left for a text that is not empty. -/
theorem exists_succ_of_lt {length budget : Nat} (enough : length < budget) :
    ∃ less, budget = less + 1 ∧ length ≤ less :=
  ⟨budget - 1, by omega, by omega⟩

private theorem length_jsonChars_pos (value : Value) : 0 < value.jsonChars.length := by
  obtain ⟨c, tail, same, _⟩ := exists_jsonChars value
  rw [same]
  exact Nat.succ_pos _

/-- The elements of a list are read one after the other. -/
theorem readElements_of_reads {elements : List Value} (present : elements ≠ [])
    (reads : ∀ element ∈ elements, Reads element) {budget : Nat}
    (enough : (Value.jsonElements elements).length < budget) (rest : List Char) :
    readElements budget (Value.jsonElements elements ++ ']' :: rest) = some (elements, rest) := by
  induction elements generalizing budget with
  | nil => exact absurd rfl present
  | cons element elements ih =>
    obtain ⟨first, others⟩ := List.forall_mem_cons.mp reads
    obtain ⟨less, rfl, fits⟩ := exists_succ_of_lt enough
    cases elements with
    | nil =>
      have closed := stops_cons (c := ']') rfl rest
      rw [Value.jsonElements] at fits ⊢
      simp [readElements, first closed fits, skipBlanks_cons (c := ']') rfl]
    | cons next more =>
      have separated := stops_cons (c := ',') rfl (' ' :: (Value.jsonElements (next :: more) ++ ']' :: rest))
      have longer := length_jsonChars_pos element
      simp only [Value.jsonElements, List.length_append, List.length_cons] at fits
      have head := first separated (by omega : element.jsonChars.length ≤ less)
      have tail := ih (List.cons_ne_nil _ _) others (by omega : (Value.jsonElements (next :: more)).length < less)
      simp [Value.jsonElements, readElements, head, skipBlanks_cons (c := ',') rfl, readElements_space, tail]

/-- The members of an object are read one after the other, each behind its key. -/
theorem readMembers_of_reads {members : List (String × Value)} (present : members ≠ [])
    (reads : ∀ member ∈ members, Reads member.2) {budget : Nat}
    (enough : (Value.jsonMembers members).length < budget) (rest : List Char) :
    readMembers budget (Value.jsonMembers members ++ '}' :: rest) = some (members, rest) := by
  induction members generalizing budget with
  | nil => exact absurd rfl present
  | cons member members ih =>
    obtain ⟨first, others⟩ := List.forall_mem_cons.mp reads
    obtain ⟨less, rfl, fits⟩ := exists_succ_of_lt enough
    obtain ⟨key, member⟩ := member
    cases members with
    | nil =>
      have closed := stops_cons (c := '}') rfl rest
      simp only [Value.jsonMembers, List.length_append, List.length_cons] at fits
      have head := first closed (by omega : member.jsonChars.length ≤ less)
      simp [Value.jsonMembers, Value.jsonString, readMembers, skipBlanks_cons (c := '"') rfl, readText_flatMap,
        skipBlanks_cons (c := ':') rfl, readValue_space, head, skipBlanks_cons (c := '}') rfl]
    | cons next more =>
      have separated := stops_cons (c := ',') rfl (' ' :: (Value.jsonMembers (next :: more) ++ '}' :: rest))
      simp only [Value.jsonMembers, List.length_append, List.length_cons] at fits
      have head := first separated (by omega : member.jsonChars.length ≤ less)
      have tail := ih (List.cons_ne_nil _ _) others (by omega : (Value.jsonMembers (next :: more)).length < less)
      simp [Value.jsonMembers, Value.jsonString, readMembers, skipBlanks_cons (c := '"') rfl, readText_flatMap,
        skipBlanks_cons (c := ':') rfl, readValue_space, head, skipBlanks_cons (c := ',') rfl, readMembers_space, tail]

/-- The first element of a list is not taken for the end of the list. -/
theorem head?_jsonElements_ne (element : Value) (elements : List Value) (rest : List Char) :
    (skipBlanks (Value.jsonElements (element :: elements) ++ rest)).head? ≠ some ']' := by
  obtain ⟨c, tail, same, visible, other⟩ := exists_jsonChars element
  have begins : ∃ more, Value.jsonElements (element :: elements) = c :: more := by
    cases elements with
    | nil => exact ⟨tail, by rw [Value.jsonElements, same]⟩
    | cons next others => exact ⟨_, by rw [Value.jsonElements, same, List.cons_append]⟩
  obtain ⟨more, begins⟩ := begins
  rw [begins, List.cons_append, skipBlanks_cons visible]
  exact fun closes => other (Option.some.inj closes)

/-- The first key of an object is not taken for the end of the object. -/
theorem head?_jsonMembers_ne (member : String × Value) (members : List (String × Value)) (rest : List Char) :
    (skipBlanks (Value.jsonMembers (member :: members) ++ rest)).head? ≠ some '}' := by
  have begins : ∃ more, Value.jsonMembers (member :: members) = '"' :: more := by
    cases members with
    | nil => exact ⟨_, rfl⟩
    | cons next others => exact ⟨_, rfl⟩
  obtain ⟨more, begins⟩ := begins
  rw [begins, List.cons_append, skipBlanks_cons rfl]
  exact fun closes => absurd (Option.some.inj closes) (by decide)

private theorem reads_list {elements : List Value} (reads : ∀ element ∈ elements, Reads element) :
    Reads (.list elements) := by
  intro budget rest _ enough
  simp only [Value.jsonChars, List.length_append, List.length_cons, List.length_nil] at enough
  obtain ⟨less, rfl, fits⟩ := exists_succ_of_lt (by omega : (Value.jsonElements elements).length + 1 < budget)
  cases elements with
  | nil =>
    simp [Value.jsonChars, Value.jsonElements, readValue, skipBlanks_cons (c := '[') rfl,
      skipBlanks_cons (c := ']') rfl]
  | cons element elements =>
    have inner := readElements_of_reads (List.cons_ne_nil element elements) reads (Nat.lt_of_succ_le fits) rest
    have goesOn := head?_jsonElements_ne element elements (']' :: rest)
    simp [Value.jsonChars, readValue, skipBlanks_cons (c := '[') rfl, goesOn, inner]

private theorem reads_object {members : List (String × Value)} (reads : ∀ member ∈ members, Reads member.2) :
    Reads (.object members) := by
  intro budget rest _ enough
  simp only [Value.jsonChars, List.length_append, List.length_cons, List.length_nil] at enough
  obtain ⟨less, rfl, fits⟩ := exists_succ_of_lt (by omega : (Value.jsonMembers members).length + 1 < budget)
  cases members with
  | nil =>
    simp [Value.jsonChars, Value.jsonMembers, readValue, skipBlanks_cons (c := '{') rfl,
      skipBlanks_cons (c := '}') rfl]
  | cons member members =>
    have inner := readMembers_of_reads (List.cons_ne_nil member members) reads (Nat.lt_of_succ_le fits) rest
    have goesOn := head?_jsonMembers_ne member members ('}' :: rest)
    simp [Value.jsonChars, readValue, skipBlanks_cons (c := '{') rfl, goesOn, inner]

/-- A value without parts is read in one step. -/
theorem reads_of_succ {value : Value}
    (reads : ∀ budget rest, Stops rest → readValue (budget + 1) (value.jsonChars ++ rest) = some (value, rest)) :
    Reads value := by
  intro budget rest stops enough
  obtain ⟨less, rfl, _⟩ := exists_succ_of_lt (Nat.lt_of_lt_of_le (length_jsonChars_pos value) enough)
  exact reads less rest stops

theorem reads_value (value : Value) : Reads value := by
  match value with
  | .null =>
    apply reads_of_succ
    intro budget rest _
    simp [Value.jsonChars, readValue, skipBlanks_cons (c := 'n') rfl, readScalar]
  | .bool true =>
    apply reads_of_succ
    intro budget rest _
    simp [Value.jsonChars, readValue, skipBlanks_cons (c := 't') rfl, readScalar]
  | .bool false =>
    apply reads_of_succ
    intro budget rest _
    simp [Value.jsonChars, readValue, skipBlanks_cons (c := 'f') rfl, readScalar]
  | .int number =>
    apply reads_of_succ
    intro budget rest stops
    rw [Value.jsonChars]
    exact readValue_toString number stops budget
  | .str text =>
    apply reads_of_succ
    intro budget rest _
    simp [Value.jsonChars, Value.jsonString, readValue, skipBlanks_cons (c := '"') rfl, readText_flatMap]
  | .list elements => exact reads_list fun element member => reads_value element
  | .object members => exact reads_object fun (key, value) member => reads_value value
termination_by sizeOf value
decreasing_by
  · have smaller := List.sizeOf_lt_of_mem member
    simp only [Value.list.sizeOf_spec]
    omega
  · have smaller := List.sizeOf_lt_of_mem member
    simp only [Value.object.sizeOf_spec, Prod.mk.sizeOf_spec] at smaller ⊢
    omega

/-- The JSON text of a value is read back as that value. -/
theorem decode_toJson (value : Value) : decode value.toJson = some value := by
  have reads := reads_value value stops_nil (Nat.le_succ value.jsonChars.length)
  rw [List.append_nil] at reads
  rw [decode, Value.toJson, String.length_ofList, String.toList_ofList, reads]
  rfl

example : decode "[ -7,\t\"\\ud83d\\ude00\\/\" , {} ]" = some (.list [.int (-7), .str "😀/", .object []]) := by
  cbv

/-- Different values have different JSON texts. -/
theorem toJson_injective {first second : Value} (same : first.toJson = second.toJson) : first = second := by
  have back := decode_toJson first
  rw [same, decode_toJson] at back
  exact (Option.some.inj back).symm

end PegMatcher.Json

namespace PegMatcher

def ParseError.labels (error : ParseError) : List (List String) :=
  error.ruleStacks.map fun stack => stack.frames.map Frame.label

namespace Json

private theorem map_labels (error : ParseError) :
    (error.ruleStacks.map fun stack => Value.list (stack.frames.map fun frame => .str frame.label)) =
      error.labels.map fun labels => .list (labels.map .str) := by
  simp only [ParseError.labels, List.map_map, Function.comp_def]

private theorem found?_eq (error : ParseError) (source : Source) :
    error.found? source = source.toList[error.position.offset]? :=
  Array.getElem?_toList.symm

/-- The members of an object that shows a parse error. -/
theorem toValue_eq (error : ParseError) (source : Source) :
    error.toValue source = .object [
      ("offset", .int error.position.offset),
      ("line", .int error.position.line),
      ("column", .int error.position.column),
      ("end_of_input", .bool (source.length ≤ error.position.offset)),
      ("found", if inside : error.position.offset < source.toList.length then
          .str (String.singleton source.toList[error.position.offset])
        else .null),
      ("expected", .list (error.expected.map .str)),
      ("stacks", .list (error.labels.map fun labels => .list (labels.map .str)))] := by
  rw [ParseError.toValue, found?_eq, map_labels]
  split_ifs with inside
  · rw [List.getElem?_eq_getElem inside]
    rfl
  · rw [List.getElem?_eq_none (Nat.not_lt.mp inside)]
    rfl

/-- Null is no character, and a text of one character tells which one. -/
theorem found_inj {first second : Option Char}
    (same : (match first with
      | none => Value.null
      | some c => .str (String.singleton c)) = match second with
      | none => Value.null
      | some c => .str (String.singleton c)) : first = second := by
  cases first with
  | none =>
    cases second with
    | none => rfl
    | some d => cases same
  | some c =>
    cases second with
    | none => cases same
    | some d =>
      have texts := congrArg String.toList (Value.str.inj same)
      simpa using texts

private theorem map_str_inj {first second : List String} (same : first.map Value.str = second.map .str) :
    first = second :=
  (List.map_inj_right fun _ _ => Value.str.inj).mp same

/-- The lists of labels that are shown tell the labels. -/
theorem map_list_inj {first second : List (List String)}
    (same : first.map (fun labels => Value.list (labels.map .str)) =
      second.map fun labels => Value.list (labels.map .str)) : first = second := by
  refine (List.map_inj_right ?_).mp same
  intro labels labels' alike
  exact map_str_inj (Value.list.inj alike)

private theorem position_inj {first second : Position} (offset : first.offset = second.offset)
    (line : first.line = second.line) (column : first.column = second.column) : first = second := by
  cases first
  cases second
  simp_all only

/-- The object that shows a parse error tells all that is shown of it. -/
theorem toValue_inj {error other : ParseError} {source source' : Source}
    (same : other.toValue source' = error.toValue source) :
    other.position = error.position ∧
      source'.toList[other.position.offset]? = source.toList[error.position.offset]? ∧
      other.expected = error.expected ∧ other.labels = error.labels := by
  simp only [ParseError.toValue, found?_eq, map_labels, Value.object.injEq, List.cons.injEq, Prod.mk.injEq, true_and,
    and_true, Value.int.injEq, Int.natCast_inj, Value.list.injEq] at same
  obtain ⟨offset, line, column, _, found, expected, labels⟩ := same
  exact ⟨position_inj offset line column, found_inj found, map_str_inj expected, map_list_inj labels⟩

end Json

/-- The JSON form of a parse error is JSON text, and reading it gives back an object that tells the position of the
error, whether it lies at the end of the text or behind it, the character there unless it does, the expected labels,
and the labels of all rule stacks. So two errors are shown alike only if they agree in all of this. The error need not
fit the text, and its names and details may be any texts. -/
theorem json_rendering_reads_back (error : ParseError) (source : Source) :
    let position := error.position
    let text := source.toList
    (∃ shown, error.render source .json = .ok shown ∧
      Json.decode shown = some (.object [
        ("offset", .int position.offset),
        ("line", .int position.line),
        ("column", .int position.column),
        ("end_of_input", .bool (text.length ≤ position.offset)),
        ("found", if inside : position.offset < text.length then .str (String.singleton text[position.offset])
          else .null),
        ("expected", .list (error.expected.map .str)),
        ("stacks", .list (error.labels.map fun labels => .list (labels.map .str)))])) ∧
    ∀ (other : ParseError) (source' : Source), other.render source' .json = error.render source .json →
      other.position = position ∧ (source'.toList.length ≤ position.offset ↔ text.length ≤ position.offset) ∧
      source'.toList[position.offset]? = text[position.offset]? ∧
      other.expected = error.expected ∧ other.labels = error.labels := by
  intro position text
  constructor
  · refine ⟨_, rfl, ?_⟩
    rw [ParseError.renderJson, Json.decode_toJson, Json.toValue_eq, ← source.length_toList]
  · intro other source' alike
    obtain ⟨place, found, expected, labels⟩ := Json.toValue_inj (Json.toJson_injective (Except.ok.inj alike))
    rw [place] at found
    refine ⟨place, ?_, found, expected, labels⟩
    rw [← List.getElem?_eq_none_iff, found, List.getElem?_eq_none_iff]

/-- An error at a place in a text, with the frame of a leaf behind a rule whose name looks like JSON. -/
def errorAt (source : Source) (offset : Nat) (leaf : Frame) : ParseError :=
  ⟨Position.resolve source offset, [⟨[{ kind := .named, name := some "[\"\\" }, leaf]⟩]⟩

/-- A character and the literal of it are shown alike, so the errors agree in all that is shown, and the character
found is read back. -/
theorem json_renderings_behind_quote_agree :
    let source := Source.ofString "\"\n"
    let error := errorAt source 1 (Matcher.charFrame '\\')
    let other := errorAt source 1 (Matcher.literalFrame "\\")
    other ≠ error ∧ other.render source .json = error.render source .json ∧ other.labels = error.labels ∧
    ∃ shown members, error.render source .json = .ok shown ∧ Json.decode shown = some (.object members) ∧
      members.map Prod.fst = ["offset", "line", "column", "end_of_input", "found", "expected", "stacks"] ∧
      ("found", .str "\n") ∈ members := by
  intro source error other
  obtain ⟨⟨shown, rendered, decoded⟩, agree⟩ := json_rendering_reads_back error source
  have alike : other.render source .json = error.render source .json := rfl
  obtain ⟨_, _, _, _, labels⟩ := agree other source alike
  refine ⟨by decide, alike, labels, shown, _, rendered, decoded, rfl, ?_⟩
  exact List.mem_of_getElem? (i := 4) rfl

end PegMatcher
