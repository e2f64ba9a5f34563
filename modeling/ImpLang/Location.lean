/-! Places in a text by line and column, both counted from 1. A newline starts the next line; every other
character takes one column. -/

namespace ImpLang

structure Location where
  line : Nat := 1
  column : Nat := 1
  deriving DecidableEq

namespace Location

def next (l : Location) (c : Char) : Location :=
  if c = '\n' then ⟨l.line + 1, 1⟩ else ⟨l.line, l.column + 1⟩

/-- The place reached after `text`. -/
def advance (l : Location) (text : List Char) : Location := text.foldl next l

def describe (l : Location) : String :=
  "line " ++ toString l.line ++ ", column " ++ toString l.column

@[simp] theorem advance_nil (l : Location) : l.advance [] = l := rfl

@[simp] theorem advance_cons (l : Location) (c : Char) (cs : List Char) :
    l.advance (c :: cs) = (l.next c).advance cs := rfl

theorem advance_append (l : Location) (cs ds : List Char) :
    l.advance (cs ++ ds) = (l.advance cs).advance ds := List.foldl_append

end Location
end ImpLang
