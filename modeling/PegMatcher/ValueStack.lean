import PegMatcher.Fault

/-! # The value stack

Rules push the values they produce, actions pop their operands, and backtracking cuts the stack back to an
earlier depth. `toList` shows the values from the bottom to the top, and each operation has one lemma that
says what it does to that view. `remaining` and `restorable` decide how many values an operation leaves.
-/

namespace PegMatcher

/-- The values produced so far, the top of the stack last. -/
structure ValueStack where
  values : Array Value
  deriving Inhabited

namespace ValueStack

def empty : ValueStack :=
  ⟨#[]⟩

def toList (stack : ValueStack) : List Value :=
  stack.values.toList

def depth (stack : ValueStack) : Nat :=
  stack.values.size

@[simp] theorem toList_empty : empty.toList = [] := rfl

@[simp] theorem length_toList (stack : ValueStack) : stack.toList.length = stack.depth :=
  Array.length_toList

@[ext] theorem ext {first second : ValueStack} (same : first.toList = second.toList) : first = second := by
  cases first; cases second
  simpa [toList] using same

def push (stack : ValueStack) (value : Value) : ValueStack :=
  ⟨stack.values.push value⟩

@[simp] theorem toList_push (stack : ValueStack) (value : Value) :
    (stack.push value).toList = stack.toList ++ [value] := by
  simp [push, toList]

def take (stack : ValueStack) (count : Nat) : ValueStack :=
  ⟨stack.values.shrink count⟩

@[simp] theorem toList_take (stack : ValueStack) (count : Nat) :
    (stack.take count).toList = stack.toList.take count := by
  simp [take, toList]

@[simp] theorem depth_take (stack : ValueStack) (count : Nat) :
    (stack.take count).depth = min count stack.depth := by
  rw [← length_toList, toList_take, List.length_take, length_toList]

theorem take_depth (stack : ValueStack) : stack.take stack.depth = stack := by
  ext1
  rw [toList_take, ← length_toList, List.take_length]

def top? (stack : ValueStack) : Option Value :=
  stack.values.back?

@[simp] theorem top?_eq_getLast? (stack : ValueStack) : stack.top? = stack.toList.getLast? := by
  simp [top?, toList]

def below (stack : ValueStack) : ValueStack :=
  ⟨stack.values.pop⟩

@[simp] theorem toList_below (stack : ValueStack) : stack.below.toList = stack.toList.dropLast := by
  simp [below, toList]

/-- The values above the lowest ones, from the bottom up. -/
def above (stack : ValueStack) (count : Nat) : List Value :=
  (stack.values.extract count stack.values.size).toList

@[simp] theorem above_eq_drop (stack : ValueStack) (count : Nat) :
    stack.above count = stack.toList.drop count := by
  simp only [above, toList, Array.toList_extract, List.extract]
  exact List.take_of_length_le (by simp)

/-- A stack is its lowest values and the values above them. -/
theorem eq_of_take_above {first second : ValueStack} {count : Nat}
    (below : first.take count = second.take count) (above : first.above count = second.above count) :
    first = second := by
  ext1
  have lower := congrArg toList below
  rw [toList_take, toList_take] at lower
  rw [above_eq_drop, above_eq_drop] at above
  rw [← List.take_append_drop count first.toList, lower, above, List.take_append_drop]

/-- How many values stay when some are popped. A negative count stands for all values but that many of the
lowest. -/
def remaining (stack : ValueStack) (count : Int) : Except Fault Nat :=
  if (stack.depth : Int) < count then .error (.stackUnderflow (.popMany count))
  else if 0 ≤ count then .ok (stack.depth - count.toNat)
  else .ok (min (-count).toNat stack.depth)

/-- How many values stay when the stack is cut back to a depth, which must be one that it reaches. -/
def restorable (stack : ValueStack) (depth : Int) : Except Fault Nat :=
  if (stack.depth : Int) < depth ∨ depth < 0 then .error (.invalidMark depth stack.depth)
  else .ok depth.toNat

/-- Reads the whole stack as a requested shape: null for no values, the value itself for a single one, and
otherwise the list of all values. -/
def finalize (stack : ValueStack) (shape : Shape) : Except Fault Value :=
  match shape with
  | .all => .ok (.list stack.toList)
  | .empty => if stack.depth = 0 then .ok .null else .error (.shapeMismatch shape stack.depth)
  | .single =>
    match stack.toList with
    | [value] => .ok value
    | _ => .error (.shapeMismatch shape stack.depth)
  | .exactly request =>
    match request.count? with
    | some count =>
      if (stack.depth : Int) = count then .ok (.list stack.toList)
      else .error (.shapeMismatch shape stack.depth)
    | none => .error (.unknownShape request)

end ValueStack

end PegMatcher
