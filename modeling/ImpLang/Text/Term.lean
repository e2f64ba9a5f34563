/-! Terms: atoms, and constructors applied to one or more arguments. `compact` writes a term on one line;
`laidOut` gives every argument a line of its own, four spaces deeper, with a comma after it. -/

namespace ImpLang

inductive Term where
  | atom (text : String)
  | node (name : String) (arguments : List Term)

namespace Term

mutual

def compact : Term → String
  | atom text => text
  | node name arguments => name ++ "(" ++ compactList arguments ++ ")"

def compactList : List Term → String
  | [] => ""
  | [t] => t.compact
  | t :: ts => t.compact ++ ", " ++ compactList ts

end

def margin (depth : Nat) : String := String.ofList (List.replicate (4 * depth) ' ')

mutual

/-- The layout of a term whose first line is already indented `depth` steps. -/
def laidOutAt (depth : Nat) : Term → String
  | atom text => text
  | node name arguments => name ++ "(\n" ++ laidOutList (depth + 1) arguments ++ margin depth ++ ")"

def laidOutList (depth : Nat) : List Term → String
  | [] => ""
  | t :: ts => margin depth ++ t.laidOutAt depth ++ ",\n" ++ laidOutList depth ts

end

def laidOut (t : Term) : String := t.laidOutAt 0

end Term
end ImpLang
