import ImpLang.Scanner.Rule
import ImpLang.Text.Decimal

/-! The scanner turns text into tokens. It can be fed piece by piece: the tokens held, the place reached and
the nesting levels carry over. A failing feed keeps what was read before the failing place. -/

namespace ImpLang

inductive LexicalFault where
  | illegalCharacter (character : Char)
  | invalidInteger (literal : String)
  deriving DecidableEq

structure LexicalError where
  fault : LexicalFault
  location : Location
  deriving DecidableEq

def LexicalError.message (e : LexicalError) : String :=
  (match e.fault with
    | .illegalCharacter c => "Illegal character: '" ++ String.singleton c ++ "'"
    | .invalidInteger literal => "Invalid integer literal '" ++ literal ++ "'")
  ++ " in " ++ e.location.describe

structure Scanner where
  tokens : Array Token := #[]
  location : Location := {}
  /-- Opening parentheses less closing ones. -/
  parenLevel : Int := 0
  /-- Words that open a block less those that close one. -/
  blockLevel : Int := 0
  deriving DecidableEq

/-- What a feed reports: the text is complete, goes on inside an open parenthesis or block, or is refused. -/
inductive FeedStatus where
  | complete
  | continuationNeeded
  | failed (error : LexicalError)
  deriving DecidableEq

def parenStep (t : Token) : Int :=
  if t.isReserved "(" then 1 else if t.isReserved ")" then -1 else 0

def blockOpeners : List String := ["if", "while", "repeat"]

def blockStep (t : Token) : Int :=
  if blockOpeners.any t.isReserved then 1 else if t.isReserved "end" then -1 else 0

namespace Scanner

def push (s : Scanner) (t : Token) : Scanner :=
  { s with
    tokens := s.tokens.push t
    parenLevel := s.parenLevel + parenStep t
    blockLevel := s.blockLevel + blockStep t }

/-- Takes a lexeme and moves past it. -/
def accept (s : Scanner) (kind? : Option TokenKind) (lexeme : List Char) : Scanner :=
  { (match kind? with
      | none => s
      | some kind => s.push ⟨kind, String.ofList lexeme, s.location⟩) with
    location := s.location.advance lexeme }

/-- An integer literal is refused when it does not fit a word. -/
def fault? (kind? : Option TokenKind) (lexeme : List Char) : Option LexicalFault :=
  let text := String.ofList lexeme
  if kind? = some .integer ∧ Decimal.read? text = none then some (.invalidInteger text) else none

/-- Reads lexemes up to the end of the text or the first place that cannot be read. -/
def scan (s : Scanner) : List Char → Scanner × Option LexicalError
  | [] => (s, none)
  | c :: cs =>
    match _ : firstMatch? (c :: cs) with
    | none => (s, some ⟨.illegalCharacter c, s.location⟩)
    | some (n, kind?) =>
      match fault? kind? ((c :: cs).take n) with
      | some fault => (s, some ⟨fault, s.location⟩)
      | none => (s.accept kind? ((c :: cs).take n)).scan ((c :: cs).drop n)
termination_by text => text.length
decreasing_by
  have := firstMatch?_pos ‹firstMatch? (c :: cs) = some (n, kind?)›
  simp only [List.length_drop, List.length_cons]
  omega

def isEmpty (s : Scanner) : Bool := s.tokens.isEmpty

def feed (s : Scanner) (text : String) : Scanner × FeedStatus :=
  match s.scan text.toList with
  | (s, some e) => (s, .failed e)
  | (s, none) =>
    (s, if 0 < s.parenLevel ∨ 0 < s.blockLevel then .continuationNeeded else .complete)

end Scanner

/-- All tokens of a text, or the first error. -/
def tokenize (source : String) : Except LexicalError (List Token) :=
  match ({} : Scanner).feed source with
  | (_, .failed e) => .error e
  | (s, _) => .ok s.tokens.toList

end ImpLang
