import ImpLang.Program.Grammar
import ImpLang.Program.Term

/-! Parsers described by plain data, with values of one type. A description may refer to named rules, which are
built where they are first used, and may hold parts of the program grammar, whose value is the text of the tree
they read. -/

namespace ImpLang

inductive Value where
  | nothing
  | text (s : String)
  | int (n : Int64)
  | pair (first second : Value)
  | labelled (label : String) (value : Value)
  | absent
  | present (value : Value)
  | list (values : List Value)
  /-- What a separator's value makes of the value so far and the next one. -/
  | joined (separator accumulated next : Value)

inductive GrammarPart where
  | program
  | statements
  | arithmetic
  | condition

inductive Description where
  | reserved (lexeme : String) (kind : TokenKind)
  | tag (kind : TokenKind)
  | pair (p q : Description)
  | left (p q : Description)
  | right (p q : Description)
  | either (p q : Description)
  | label (label : String) (p : Description)
  /-- Keeps only the value that is this text. -/
  | only (text : String) (p : Description)
  /-- Reads the value as a decimal numeral. -/
  | numeral (p : Description)
  | discard (p : Description)
  | maybe (p : Description)
  | zeroOrMore (p : Description)
  | oneOrMore (p : Description)
  | sepBy (item separator : Description)
  | fold (operand separator : Description)
  | phrase (p : Description)
  | delay (p : Description)
  | rule (name : String)
  | epsilon
  | failure
  | part (part : GrammarPart)

inductive NamedRule : Type → Type where
  | named (name : String) : NamedRule Value

/-- Rules of the program grammar, and named ones. -/
abbrev Reference (α : Type) := Nonterminal α ⊕ NamedRule α

namespace Value

def isText (text : String) : Value → Bool
  | .text s => s == text
  | _ => false

def numeral? : Value → Option Value
  | .text s => (Decimal.read? s).map int
  | _ => none

def ofOption : Option Value → Value
  | none => absent
  | some v => present v

end Value

def GrammarPart.parser : GrammarPart → Parser Nonterminal String
  | program => .map (·.term.compact) Grammar.program
  | statements => .map (·.term.compact) Grammar.statements
  | arithmetic => .map (·.term.compact) Grammar.arithmetic
  | condition => .map (·.term.compact) Grammar.condition

namespace Description

def parser : Description → Parser Reference Value
  | reserved lexeme kind => .map .text (.reserved lexeme kind)
  | tag kind => .map .text (.tag kind)
  | pair p q => .map (fun v => .pair v.1 v.2) (.pair p.parser q.parser)
  | left p q => .left p.parser q.parser
  | right p q => .right p.parser q.parser
  | either p q => .either p.parser q.parser
  | label l p => .map (.labelled l) p.parser
  | only text p => .filter (·.isText text) p.parser
  | numeral p => .tryMap Value.numeral? p.parser
  | discard p => .map (fun _ => .nothing) p.parser.discard
  | maybe p => .map .ofOption (.maybe p.parser)
  | zeroOrMore p => .map .list (.zeroOrMore p.parser)
  | oneOrMore p => .map .list (.oneOrMore p.parser)
  | sepBy p q => .map .list (.sepBy p.parser q.parser)
  | fold p q => .fold p.parser (.map Value.joined q.parser)
  | phrase p => .phrase p.parser
  | delay p => .delay p.parser
  | rule name => .delay (.call (.inr (.named name)))
  | epsilon => .map (fun _ => .nothing) .epsilon
  | failure => .failure
  | part g => .map .text (g.parser.rename fun _ => .inl)

end Description

end ImpLang
