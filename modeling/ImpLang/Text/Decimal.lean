import ImpLang.Word

/-! Decimal numerals. Reading takes an optional sign and at least one ASCII digit, and nothing else;
writing uses the fewest digits and a minus sign for negative values. -/

namespace ImpLang.Decimal

/-- The value of a run of digits, most significant first. -/
def value (digits : List Char) : Nat := digits.foldl (fun n d => 10 * n + (d.toNat - 48)) 0

def natural? (cs : List Char) : Option Nat :=
  if cs.isEmpty || !cs.all Char.isDigit then none else some (value cs)

def integer? : List Char → Option Int
  | '+' :: cs => (natural? cs).map fun n => (n : Int)
  | '-' :: cs => (natural? cs).map fun n => -(n : Int)
  | cs => (natural? cs).map fun n => (n : Int)

/-- Reads a numeral whose value fits a word. -/
def read? (text : String) : Option Int64 := (integer? text.toList).bind word?

def write (n : Int64) : String :=
  (if n.toInt < 0 then "-" else "") ++ String.ofList (Nat.toDigits 10 n.toInt.natAbs)

theorem natural?_eq_some_iff {cs : List Char} {n : Nat} :
    natural? cs = some n ↔ cs ≠ [] ∧ (∀ c ∈ cs, c.isDigit) ∧ value cs = n := by
  by_cases h : cs = [] <;> simp [natural?, h]

end ImpLang.Decimal
