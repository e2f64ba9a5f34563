/-! Programs: arithmetic over words, conditions, and statements. Operators are kept as they were written, so a
tree may hold one that has no meaning. -/

namespace ImpLang

inductive Arith where
  | int (value : Int64)
  | var (name : String)
  | operation (operator : String) (left right : Arith)
  deriving DecidableEq

inductive Condition where
  | relation (operator : String) (left right : Arith)
  | and (left right : Condition)
  | or (left right : Condition)
  | not (condition : Condition)
  deriving DecidableEq

inductive Statement where
  | assign (name : String) (value : Arith)
  | compound (first second : Statement)
  | ifThen (condition : Condition) (body : Statement)
  | ifThenElse (condition : Condition) (body otherwise : Statement)
  | whileDo (condition : Condition) (body : Statement)
  | repeatTimes (count : Int64) (body : Statement)
  deriving DecidableEq

end ImpLang
