import ImpLang.Location
import ImpLang.Text.Quoted

/-! Tokens: a kind, the text read, and the place where it starts. Two tokens agree when kind and text do,
wherever they stand. -/

namespace ImpLang

inductive TokenKind where
  | reserved
  | integer
  | identifier
  deriving DecidableEq

def TokenKind.label : TokenKind → String
  | reserved => "RESERVED"
  | integer => "INT"
  | identifier => "ID"

def TokenKind.all : List TokenKind := [reserved, integer, identifier]

/-- The kind with this label. -/
def TokenKind.ofLabel? (label : String) : Option TokenKind := all.find? (·.label == label)

theorem TokenKind.ofLabel?_label (k : TokenKind) : ofLabel? k.label = some k := by
  cases k <;> decide

structure Token where
  kind : TokenKind
  lexeme : String
  location : Location := {}
  deriving DecidableEq

namespace Token

def Agrees (s t : Token) : Prop := s.kind = t.kind ∧ s.lexeme = t.lexeme

instance (s t : Token) : Decidable (s.Agrees t) := inferInstanceAs (Decidable (_ ∧ _))

theorem Agrees.refl (t : Token) : t.Agrees t := ⟨rfl, rfl⟩

theorem Agrees.symm {s t : Token} (h : s.Agrees t) : t.Agrees s := ⟨h.1.symm, h.2.symm⟩

theorem Agrees.trans {s t u : Token} (h : s.Agrees t) (k : t.Agrees u) : s.Agrees u :=
  ⟨h.1.trans k.1, h.2.trans k.2⟩

/-- Is this the reserved token with text `word`? -/
def isReserved (word : String) (t : Token) : Bool := t.kind == .reserved && t.lexeme == word

def display (t : Token) : String := t.kind.label ++ "('" ++ t.lexeme ++ "')"

/-- The form that shows the text quoted and leaves the location out. -/
def inspect (t : Token) : String :=
  "Token \x7b typ: " ++ t.kind.label ++ ", lexeme: " ++ Quoted.encode t.lexeme ++ " \x7d"

end Token
end ImpLang
