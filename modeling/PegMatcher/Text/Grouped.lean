/-! # Numbers with grouped digits

Large sizes are written with a comma between groups of three decimal digits, counted from the right, and a
leading minus sign for a negative number.
-/

namespace PegMatcher.Text

/-- Puts a comma after every third character that has more characters behind it. -/
def groupThrees : List Char → List Char
  | a :: b :: c :: d :: rest => a :: b :: c :: ',' :: groupThrees (d :: rest)
  | short => short

def groupedNat (n : Nat) : String :=
  String.ofList (groupThrees (toString n).toList.reverse).reverse

def grouped : Int → String
  | .ofNat n => groupedNat n
  | .negSucc n => "-" ++ groupedNat (n + 1)

end PegMatcher.Text
