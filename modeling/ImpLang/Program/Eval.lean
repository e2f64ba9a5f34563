import ImpLang.Program.Basic
import ImpLang.Environment
import ImpLang.Text.Decimal

/-! What expressions come to. Results are exact: one that does not fit a word is a fault. Both operands are
always evaluated, the left one first, also under `and` and `or`. -/

namespace ImpLang

inductive Fault where
  | unknownOperator (operator : String)
  | divisionByZero
  | overflow (operator : String) (left right : Int64)
  deriving DecidableEq

def Fault.message : Fault → String
  | unknownOperator symbol => "Unknown operator: " ++ symbol
  | divisionByZero => "Division by zero"
  | overflow symbol l r =>
    "Integer overflow evaluating " ++ Decimal.write l ++ " " ++ symbol ++ " " ++ Decimal.write r

inductive Operation where
  | add
  | subtract
  | multiply
  | divide
  deriving DecidableEq

namespace Operation

def ofSymbol? : String → Option Operation
  | "+" => some add
  | "-" => some subtract
  | "*" => some multiply
  | "/" => some divide
  | _ => none

/-- The result over all integers; division drops the fraction. -/
def exact : Operation → Int → Int → Int
  | add, m, n => m + n
  | subtract, m, n => m - n
  | multiply, m, n => m * n
  | divide, m, n => m.tdiv n

end Operation

inductive Relation where
  | less
  | atMost
  | greater
  | atLeast
  | equal
  | notEqual
  deriving DecidableEq

namespace Relation

def ofSymbol? : String → Option Relation
  | "<" => some less
  | "<=" => some atMost
  | ">" => some greater
  | ">=" => some atLeast
  | "=" => some equal
  | "!=" => some notEqual
  | _ => none

def holds : Relation → Int → Int → Bool
  | less, m, n => decide (m < n)
  | atMost, m, n => decide (m ≤ n)
  | greater, m, n => decide (m > n)
  | atLeast, m, n => decide (m ≥ n)
  | equal, m, n => decide (m = n)
  | notEqual, m, n => decide (m ≠ n)

end Relation

/-- Applies the operation that a symbol names. -/
def operate (symbol : String) (l r : Int64) : Except Fault Int64 :=
  match Operation.ofSymbol? symbol with
  | none => .error (.unknownOperator symbol)
  | some op =>
    if op = .divide ∧ r = 0 then .error .divisionByZero
    else
      match word? (op.exact l.toInt r.toInt) with
      | some n => .ok n
      | none => .error (.overflow symbol l r)

/-- Compares two values by the relation that a symbol names. -/
def compareBy (symbol : String) (l r : Int64) : Except Fault Bool :=
  match Relation.ofSymbol? symbol with
  | none => .error (.unknownOperator symbol)
  | some rel => .ok (rel.holds l.toInt r.toInt)

def Arith.eval (e : Environment) : Arith → Except Fault Int64
  | int n => .ok n
  | var x => .ok (e.get x)
  | operation symbol l r => do
    let m ← l.eval e
    let n ← r.eval e
    operate symbol m n

def Condition.eval (e : Environment) : Condition → Except Fault Bool
  | relation symbol l r => do
    let m ← l.eval e
    let n ← r.eval e
    compareBy symbol m n
  | and l r => do
    let a ← l.eval e
    let b ← r.eval e
    return a && b
  | or l r => do
    let a ← l.eval e
    let b ← r.eval e
    return a || b
  | not b => do
    let a ← b.eval e
    return !a

end ImpLang
