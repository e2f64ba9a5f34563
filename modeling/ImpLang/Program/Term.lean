import ImpLang.Program.Basic
import ImpLang.Text.Decimal
import ImpLang.Text.Quoted
import ImpLang.Text.Term

/-! Programs shown as terms. A conditional has three arguments; the last says whether there is an `else`. -/

namespace ImpLang

def Term.text (s : String) : Term := .atom (Quoted.encode s)

def Term.int (n : Int64) : Term := .atom (Decimal.write n)

def Arith.term : Arith → Term
  | int n => .node "Int" [.int n]
  | var name => .node "Var" [.text name]
  | operation op l r => .node "BinaryOperation" [.text op, l.term, r.term]

def Condition.term : Condition → Term
  | relation op l r => .node "Relational" [.text op, l.term, r.term]
  | and l r => .node "And" [l.term, r.term]
  | or l r => .node "Or" [l.term, r.term]
  | not b => .node "Not" [b.term]

def Statement.term : Statement → Term
  | assign name e => .node "Assign" [.text name, e.term]
  | compound s t => .node "Compound" [s.term, t.term]
  | ifThen b s => .node "If" [b.term, s.term, .atom "None"]
  | ifThenElse b s t => .node "If" [b.term, s.term, .node "Some" [t.term]]
  | whileDo b s => .node "While" [b.term, s.term]
  | repeatTimes n s => .node "Repeat" [.int n, s.term]

end ImpLang
