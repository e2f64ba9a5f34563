import ImpLang.Token
import ImpLang.Text.WordChar

/-! The lexical rules. A pattern says how many characters at the head of the text it covers; the rules are
tried in table order and the first that covers anything decides. Blanks and comments yield no token. A keyword
has to end where a word ends; what stands before it is not looked at. -/

namespace ImpLang

def isBlank (c : Char) : Bool := c == ' ' || c == '\n' || c == '\t'

def isLetter (c : Char) : Bool := c.isAlpha

inductive Pattern where
  | blanks
  | comment
  | symbol (text : String)
  | keyword (word : String)
  | digits
  | name
  deriving DecidableEq

/-- The length of a run, when there is one. -/
def runLength? (p : Char → Bool) (cs : List Char) : Option Nat :=
  match (cs.takeWhile p).length with
  | 0 => none
  | n + 1 => some (n + 1)

/-- Does a word end before this text? -/
def endsWord : List Char → Bool
  | [] => true
  | c :: _ => !isWord c

/-- How many characters at the head of the text the pattern covers. -/
def Pattern.length? : Pattern → List Char → Option Nat
  | .blanks, cs => runLength? isBlank cs
  | .comment, '#' :: cs => some ((cs.takeWhile (· != '\n')).length + 1)
  | .symbol text, cs => if text.toList.isPrefixOf cs then some text.length else none
  | .keyword word, cs =>
    if word.toList.isPrefixOf cs && endsWord (cs.drop word.length) then some word.length else none
  | .digits, cs => runLength? Char.isDigit cs
  | .name, c :: cs => if isLetter c then some ((cs.takeWhile isAsciiWord).length + 1) else none
  | _, _ => none

structure LexicalRule where
  pattern : Pattern
  kind? : Option TokenKind
  deriving DecidableEq

def symbols : List String :=
  [":=", "(", ")", ";", "+", "-", "*", "/", "<=", "<", ">=", ">", "=", "!="]

def keywords : List String :=
  ["and", "or", "not", "repeat", "times", "if", "then", "else", "while", "do", "end"]

/-- The rules in the order in which they are tried: names would cover every keyword. -/
def lexicalRules : List LexicalRule :=
  [⟨.blanks, none⟩, ⟨.comment, none⟩]
    ++ symbols.map (fun s => ⟨.symbol s, some .reserved⟩)
    ++ keywords.map (fun w => ⟨.keyword w, some .reserved⟩)
    ++ [⟨.digits, some .integer⟩, ⟨.name, some .identifier⟩]

/-- What the first rule that covers anything makes of the head of the text: how many characters, and the
kind of token they are, if any. -/
def firstMatch? (text : List Char) : Option (Nat × Option TokenKind) :=
  lexicalRules.findSome? fun r => (r.pattern.length? text).map fun n => (n, r.kind?)

theorem runLength?_eq_some {p : Char → Bool} {cs : List Char} {n : Nat} (h : runLength? p cs = some n) :
    n = (cs.takeWhile p).length ∧ 0 < n := by
  unfold runLength? at h
  split at h
  · cases h
  · rename_i m hm
    cases h
    exact ⟨hm.symm, Nat.succ_pos m⟩

theorem symbols_ne_empty : ∀ s ∈ symbols, 0 < s.length := by decide

theorem keywords_ne_empty : ∀ w ∈ keywords, 0 < w.length := by decide

/-- What a rule covers is never empty. -/
theorem length?_pos {r : LexicalRule} (hr : r ∈ lexicalRules) {cs : List Char} {n : Nat}
    (h : r.pattern.length? cs = some n) : 0 < n := by
  simp only [lexicalRules, List.mem_append, List.mem_cons, List.mem_map, List.not_mem_nil, or_false] at hr
  rcases hr with (((rfl | rfl) | ⟨s, hs, rfl⟩) | ⟨w, hw, rfl⟩) | rfl | rfl
  · exact (runLength?_eq_some h).2
  · unfold Pattern.length? at h
    split at h <;> simp_all
    omega
  · have := symbols_ne_empty s hs
    simp only [Pattern.length?] at h
    split at h <;> simp_all
  · have := keywords_ne_empty w hw
    simp only [Pattern.length?] at h
    split at h <;> simp_all
  · exact (runLength?_eq_some h).2
  · unfold Pattern.length? at h
    split at h <;> simp_all
    omega

/-- What is taken is what one of the rules covers. -/
theorem rule_of_firstMatch? {cs : List Char} {n : Nat} {k : Option TokenKind}
    (h : firstMatch? cs = some (n, k)) :
    ∃ r ∈ lexicalRules, r.pattern.length? cs = some n ∧ r.kind? = k := by
  obtain ⟨r, hr, hm⟩ := List.exists_of_findSome?_eq_some h
  obtain ⟨m, hl, he⟩ := Option.map_eq_some_iff.1 hm
  cases he
  exact ⟨r, hr, hl, rfl⟩

theorem firstMatch?_pos {cs : List Char} {n : Nat} {k : Option TokenKind}
    (h : firstMatch? cs = some (n, k)) : 0 < n := by
  obtain ⟨r, hr, hl, -⟩ := rule_of_firstMatch? h
  exact length?_pos hr hl

end ImpLang
