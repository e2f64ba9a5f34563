import ImpLang.Parser.Cells
import ImpLang.Parser.Description

/-! A described parser under trial: it is run again and again, and the delayed parts that its runs have built
are kept from one run to the next. -/

namespace ImpLang

abbrev RuleTable := List (String × Description)

/-- A name that the table lacks stands for a parser that fails. -/
def RuleTable.rules (table : RuleTable) : Rules Reference
  | _, .inl r => (Grammar.rules _ r).rename fun _ => .inl
  | _, .inr (.named name) => ((table.lookup name).getD .failure).parser

/-- A parser under trial, with the delayed parts that its runs have built. The parser as a whole is delayed. -/
structure Trial where
  parser : Parser Reference Value
  table : RuleTable
  cells : Cells := {}

namespace Trial

def ofDescription (table : RuleTable) (d : Description) : Trial :=
  { parser := .delay d.parser, table }

def isInitialized (t : Trial) : Bool := t.cells.count != 0

/-- Between two tokens read at most every rule can be entered once, so the product bounds the nesting. -/
def bound (t : Trial) (c : Cursor) : Nat := (t.table.length + 2) * (c.rest.length + 2)

def run (t : Trial) (c : Cursor) : Trial × Outcome Value :=
  let rules := t.table.rules
  ({ t with cells := t.cells.run rules (t.bound c) t.parser c },
    t.parser.run rules (t.bound c) c)

end Trial
end ImpLang
