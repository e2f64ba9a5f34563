import ImpLang.Parser.Basic
import ImpLang.Program.Basic
import ImpLang.Text.Decimal

/-! The grammar. Operators associate to the left; `*` and `/` bind tighter than `+` and `-`, `and` tighter than
`or`, `not` tighter than both. Every rule that matches reads at least one token, and a rule is entered again
only behind the place where it was entered before, so the number of tokens left bounds the nesting. -/

namespace ImpLang

/-- The rules that are called by name. -/
inductive Nonterminal : Type → Type where
  | statements : Nonterminal Statement
  | arithmetic : Nonterminal Arith
  | condition : Nonterminal Condition
  | conditionTerm : Nonterminal Condition

namespace Grammar

variable {α : Type}

def keyword (word : String) : Parser Nonterminal String := .reserved word .reserved

def identifier : Parser Nonterminal String := .tag .identifier

def number : Parser Nonterminal Int64 := .tryMap Decimal.read? (.tag .integer)

/-- Any one of the words. -/
def anyOf (words : List String) : Parser Nonterminal String :=
  words.foldl (fun p w => .either p (keyword w)) .failure

def inParentheses (p : Parser Nonterminal α) : Parser Nonterminal α :=
  .map (fun v => v.1.2) (.pair (.pair (keyword "(") p) (keyword ")"))

/-- One left-associative level over another, the tightest first; `join` says what an operator makes of its
operands. -/
def levels (operand : Parser Nonterminal α) (table : List (List String))
    (join : String → Option (α → α → α)) : Parser Nonterminal α :=
  table.foldl (fun p operators => .fold p (.tryMap join (anyOf operators))) operand

def arithmeticLevels : List (List String) := [["*", "/"], ["+", "-"]]

def conditionLevels : List (List String) := [["and"], ["or"]]

def relations : List String := ["<", "<=", ">", ">=", "=", "!="]

/-- What a connective makes of two conditions. -/
def connective? : String → Option (Condition → Condition → Condition)
  | "and" => some .and
  | "or" => some .or
  | _ => none

def arithmeticTerm : Parser Nonterminal Arith :=
  .either (.either (.map .int number) (.map .var identifier)) (inParentheses (.call .arithmetic))

def arithmetic : Parser Nonterminal Arith :=
  levels arithmeticTerm arithmeticLevels fun op => some (.operation op)

def relation : Parser Nonterminal Condition :=
  .map (fun v => .relation v.1.2 v.1.1 v.2) (.pair (.pair arithmetic (anyOf relations)) arithmetic)

def negation : Parser Nonterminal Condition :=
  .map .not (.right (keyword "not") (.call .conditionTerm))

def conditionTerm : Parser Nonterminal Condition :=
  .either (.either negation relation) (inParentheses (.call .condition))

def condition : Parser Nonterminal Condition := levels conditionTerm conditionLevels connective?

def assignment : Parser Nonterminal Statement :=
  .map (fun v => .assign v.1.1 v.2) (.pair (.pair identifier (keyword ":=")) arithmetic)

/-- A conditional with or without its `else` part. -/
def conditional (b : Condition) (s : Statement) : Option Statement → Statement
  | none => .ifThen b s
  | some t => .ifThenElse b s t

def ifStatement : Parser Nonterminal Statement :=
  .map (fun v => conditional v.1.1 v.1.2 v.2)
    (.pair
      (.pair (.right (keyword "if") condition) (.right (keyword "then") (.call .statements)))
      (.left (.maybe (.right (keyword "else") (.call .statements))) (keyword "end")))

def whileStatement : Parser Nonterminal Statement :=
  .map (fun v => .whileDo v.1 v.2)
    (.pair
      (.right (keyword "while") condition)
      (.left (.right (keyword "do") (.call .statements)) (keyword "end")))

def repeatStatement : Parser Nonterminal Statement :=
  .map (fun v => .repeatTimes v.1 v.2)
    (.pair
      (.right (keyword "repeat") number)
      (.left (.right (keyword "times") (.call .statements)) (keyword "end")))

def statement : Parser Nonterminal Statement :=
  .either (.either (.either assignment ifStatement) whileStatement) repeatStatement

def statements : Parser Nonterminal Statement :=
  .fold statement (.map (fun _ => .compound) (keyword ";"))

/-- A whole program: statements up to the end of the tokens. -/
def program : Parser Nonterminal Statement := .phrase statements

def rules : Rules Nonterminal
  | _, .statements => statements
  | _, .arithmetic => arithmetic
  | _, .condition => condition
  | _, .conditionTerm => conditionTerm

/-- Matches a part of the grammar at a cursor. -/
def matchAt (p : Parser Nonterminal α) (c : Cursor) : Outcome α := p.run rules (c.rest.length + 1) c

end Grammar

/-- The program that the tokens spell, if they spell one. -/
def parse? (tokens : List Token) : Option Statement :=
  (Grammar.matchAt Grammar.program (.ofTokens tokens 0)).value?

end ImpLang
