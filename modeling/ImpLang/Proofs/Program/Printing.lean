import ImpLang.Proofs.Grammar.Derivation
import ImpLang.Proofs.Scanner.Lexemes
import ImpLang.Proofs.Text.Decimal

/-! Writing programs down. A program is written with single spaces between its tokens and with
parentheses only where the grammar would otherwise read another tree: around a left operand that
binds more loosely than its operator, and around a right operand that binds no more tightly.
Numerals have no sign and sequences nest to the left, so not every tree can be written; the
well-formed ones can, and no others are derived from tokens that come from a text. -/

namespace ImpLang

def word (w : String) : Token := ⟨.reserved, w, {}⟩

def enclose (needed : Bool) (ts : List Token) : List Token :=
  if needed then word "(" :: (ts ++ [word ")"]) else ts

namespace Arith

def WellFormed : Arith → Prop
  | int n => 0 ≤ n.toInt
  | var x => IsName x
  | operation o a b => o ∈ ["+", "-", "*", "/"] ∧ a.WellFormed ∧ b.WellFormed

/-- How loosely an operator binds. -/
def operatorLevel (o : String) : Nat := if o ∈ ["*", "/"] then 1 else 2

def level : Arith → Nat
  | int _ | var _ => 0
  | operation o _ _ => operatorLevel o

def tokens : Arith → List Token
  | int n => [⟨.integer, Decimal.write n, {}⟩]
  | var x => [⟨.identifier, x, {}⟩]
  | operation o a b =>
    enclose (operatorLevel o < a.level) a.tokens ++
      word o :: enclose (operatorLevel o ≤ b.level) b.tokens

end Arith

namespace Condition

def WellFormed : Condition → Prop
  | relation o a b => o ∈ ["<", "<=", ">", ">=", "=", "!="] ∧ a.WellFormed ∧ b.WellFormed
  | and a b | or a b => a.WellFormed ∧ b.WellFormed
  | not b => b.WellFormed

def level : Condition → Nat
  | relation .. | not _ => 0
  | and .. => 1
  | or .. => 2

def tokens : Condition → List Token
  | relation o a b => a.tokens ++ word o :: b.tokens
  | and a b => enclose (1 < a.level) a.tokens ++ word "and" :: enclose (1 ≤ b.level) b.tokens
  | or a b => a.tokens ++ word "or" :: enclose (2 ≤ b.level) b.tokens
  | not b => word "not" :: enclose (1 ≤ b.level) b.tokens

end Condition

namespace Statement

def isCompound : Statement → Bool
  | compound .. => true
  | _ => false

def WellFormed : Statement → Prop
  | assign x a => IsName x ∧ a.WellFormed
  | compound s t => s.WellFormed ∧ t.WellFormed ∧ t.isCompound = false
  | ifThen b s => b.WellFormed ∧ s.WellFormed
  | ifThenElse b s t => b.WellFormed ∧ s.WellFormed ∧ t.WellFormed
  | whileDo b s => b.WellFormed ∧ s.WellFormed
  | repeatTimes n s => 0 ≤ n.toInt ∧ s.WellFormed

def tokens : Statement → List Token
  | assign x a => ⟨.identifier, x, {}⟩ :: word ":=" :: a.tokens
  | compound s t => s.tokens ++ word ";" :: t.tokens
  | ifThen b s => word "if" :: (b.tokens ++ word "then" :: (s.tokens ++ [word "end"]))
  | ifThenElse b s t =>
    word "if" :: (b.tokens ++ word "then" ::
      (s.tokens ++ word "else" :: (t.tokens ++ [word "end"])))
  | whileDo b s => word "while" :: (b.tokens ++ word "do" :: (s.tokens ++ [word "end"]))
  | repeatTimes n s =>
    word "repeat" :: ⟨.integer, Decimal.write n, {}⟩ :: word "times" :: (s.tokens ++ [word "end"])

/-- The program as it is written down. -/
def text (s : Statement) : String := " ".intercalate (s.tokens.map Token.lexeme)

end Statement

/-! Every well-formed tree is derived from what is written down for it. -/

def ArithLevel.looseness : ArithLevel → Nat
  | term => 0
  | product => 1
  | sum => 2

theorem ArithDerivation.loosen {l m : ArithLevel} {us : List Token} {a : Arith}
    (h : ArithDerivation l us a) (hm : l.looseness ≤ m.looseness) :
    Nonempty (ArithDerivation m us a) := by
  cases l <;> cases m
  case term.term | product.product | sum.sum => exact ⟨h⟩
  case term.product => exact ⟨.ofTerm h⟩
  case term.sum => exact ⟨.ofProduct (.ofTerm h)⟩
  case product.sum => exact ⟨.ofProduct h⟩
  all_goals exact absurd hm (by decide)

theorem isReserved_word (w : String) : (word w).isReserved w = true := by
  simp [word, Token.isReserved]

theorem isOneOf_word {w : String} {ws : List String} (h : w ∈ ws) : (word w).isOneOf ws = true :=
  Token.isOneOf_iff.2 ⟨w, h, isReserved_word w⟩

theorem Arith.level_le (a : Arith) : a.level ≤ 2 := by
  cases a with
  | int | var => exact Nat.zero_le 2
  | operation o =>
    simp only [level, operatorLevel]
    split <;> decide

theorem Arith.enclosed {l : ArithLevel} {a : Arith} {needed : Bool}
    (hn : needed = decide (l.looseness < a.level))
    (h : ∀ l : ArithLevel, a.level ≤ l.looseness → Nonempty (ArithDerivation l a.tokens a)) :
    Nonempty (ArithDerivation l (enclose needed a.tokens) a) := by
  by_cases hl : l.looseness < a.level
  · obtain ⟨d⟩ := h .sum a.level_le
    have hp := ArithDerivation.parentheses (isReserved_word "(") d (isReserved_word ")")
    simpa [hn, hl, enclose] using hp.loosen (Nat.zero_le _)
  · simpa [hn, hl, enclose] using h l (Nat.le_of_not_lt hl)

theorem Arith.derivation {a : Arith} (h : a.WellFormed) (l : ArithLevel)
    (hl : a.level ≤ l.looseness) : Nonempty (ArithDerivation l a.tokens a) := by
  induction a generalizing l with
  | int n =>
    exact (ArithDerivation.int (t := ⟨.integer, Decimal.write n, {}⟩) rfl
      (Decimal.read?_write n)).loosen hl
  | var x => exact (ArithDerivation.var (t := ⟨.identifier, x, {}⟩) rfl).loosen hl
  | operation o a b iha ihb =>
    obtain ⟨ho, ha, hb⟩ := h
    by_cases hm : o ∈ ["*", "/"]
    · have hlevel : operatorLevel o = 1 := if_pos hm
      rw [level, hlevel] at hl
      rw [tokens, hlevel]
      obtain ⟨da⟩ :
          Nonempty (ArithDerivation .product (enclose (decide (1 < a.level)) a.tokens) a) :=
        enclosed rfl (iha ha)
      obtain ⟨db⟩ : Nonempty (ArithDerivation .term (enclose (decide (1 ≤ b.level)) b.tokens) b) :=
        enclosed rfl (ihb hb)
      exact (ArithDerivation.times da (isOneOf_word hm) db).loosen hl
    · have hlevel : operatorLevel o = 2 := if_neg hm
      have hp : o ∈ ["+", "-"] := by simp_all
      rw [level, hlevel] at hl
      rw [tokens, hlevel]
      obtain ⟨da⟩ : Nonempty (ArithDerivation .sum (enclose (decide (2 < a.level)) a.tokens) a) :=
        enclosed rfl (iha ha)
      obtain ⟨db⟩ :
          Nonempty (ArithDerivation .product (enclose (decide (2 ≤ b.level)) b.tokens) b) :=
        enclosed rfl (ihb hb)
      exact (ArithDerivation.plus da (isOneOf_word hp) db).loosen hl

theorem Arith.derivation_sum {a : Arith} (h : a.WellFormed) :
    Nonempty (ArithDerivation .sum a.tokens a) :=
  derivation h .sum a.level_le

def ConditionLevel.looseness : ConditionLevel → Nat
  | term => 0
  | conjunction => 1
  | disjunction => 2

theorem ConditionDerivation.loosen {l m : ConditionLevel} {us : List Token} {b : Condition}
    (h : ConditionDerivation l us b) (hm : l.looseness ≤ m.looseness) :
    Nonempty (ConditionDerivation m us b) := by
  cases l <;> cases m
  case term.term | conjunction.conjunction | disjunction.disjunction => exact ⟨h⟩
  case term.conjunction => exact ⟨.ofTerm h⟩
  case term.disjunction => exact ⟨.ofConjunction (.ofTerm h)⟩
  case conjunction.disjunction => exact ⟨.ofConjunction h⟩
  all_goals exact absurd hm (by decide)

theorem Condition.level_le (b : Condition) : b.level ≤ 2 := by cases b <;> simp [level]

theorem Condition.enclosed {l : ConditionLevel} {b : Condition} {needed : Bool}
    (hn : needed = decide (l.looseness < b.level))
    (h : ∀ l : ConditionLevel, b.level ≤ l.looseness →
      Nonempty (ConditionDerivation l b.tokens b)) :
    Nonempty (ConditionDerivation l (enclose needed b.tokens) b) := by
  by_cases hl : l.looseness < b.level
  · obtain ⟨d⟩ := h .disjunction b.level_le
    have hp := ConditionDerivation.parentheses (isReserved_word "(") d (isReserved_word ")")
    simpa [hn, hl, enclose] using hp.loosen (Nat.zero_le _)
  · simpa [hn, hl, enclose] using h l (Nat.le_of_not_lt hl)

theorem Condition.derivation {b : Condition} (h : b.WellFormed) (l : ConditionLevel)
    (hl : b.level ≤ l.looseness) : Nonempty (ConditionDerivation l b.tokens b) := by
  induction b generalizing l with
  | relation o a b =>
    obtain ⟨ho, ha, hb⟩ := h
    obtain ⟨da⟩ := Arith.derivation_sum ha
    obtain ⟨db⟩ := Arith.derivation_sum hb
    exact (ConditionDerivation.relation da (isOneOf_word ho) db).loosen hl
  | and a b iha ihb =>
    obtain ⟨ha, hb⟩ := h
    obtain ⟨da⟩ :
        Nonempty (ConditionDerivation .conjunction (enclose (decide (1 < a.level)) a.tokens) a) :=
      enclosed rfl (iha ha)
    obtain ⟨db⟩ :
        Nonempty (ConditionDerivation .term (enclose (decide (1 ≤ b.level)) b.tokens) b) :=
      enclosed rfl (ihb hb)
    exact (ConditionDerivation.and da (isReserved_word "and") db).loosen hl
  | or a b iha ihb =>
    obtain ⟨ha, hb⟩ := h
    obtain ⟨da⟩ := iha ha .disjunction a.level_le
    obtain ⟨db⟩ :
        Nonempty (ConditionDerivation .conjunction (enclose (decide (2 ≤ b.level)) b.tokens) b) :=
      enclosed rfl (ihb hb)
    exact (ConditionDerivation.or da (isReserved_word "or") db).loosen hl
  | not b ih =>
    obtain ⟨d⟩ : Nonempty (ConditionDerivation .term (enclose (decide (1 ≤ b.level)) b.tokens) b) :=
      enclosed rfl (ih h)
    exact (ConditionDerivation.negation (isReserved_word "not") d).loosen hl

theorem Condition.derivation_disjunction {b : Condition} (h : b.WellFormed) :
    Nonempty (ConditionDerivation .disjunction b.tokens b) :=
  derivation h .disjunction b.level_le

namespace Statement

/-- A sequence is written as a list of statements, any other statement by itself. -/
def form (s : Statement) : StatementLevel := if s.isCompound then .list else .single

theorem listed {s : Statement} (h : Nonempty (StatementDerivation s.form s.tokens s)) :
    Nonempty (StatementDerivation .list s.tokens s) := by
  obtain ⟨d⟩ := h
  unfold form at d
  split at d
  · exact ⟨d⟩
  · exact ⟨.ofSingle d⟩

theorem derivation {s : Statement} (h : s.WellFormed) :
    Nonempty (StatementDerivation s.form s.tokens s) := by
  induction s with
  | assign x a =>
    obtain ⟨da⟩ := Arith.derivation_sum h.2
    exact ⟨.assign (x := ⟨.identifier, x, {}⟩) rfl (isReserved_word ":=") da⟩
  | compound s t ihs iht =>
    obtain ⟨hs, ht, hc⟩ := h
    obtain ⟨ds⟩ := listed (ihs hs)
    have dt := iht ht
    simp only [form, hc] at dt
    obtain ⟨dt⟩ := dt
    exact ⟨.sequence ds (isReserved_word ";") dt⟩
  | ifThen b s ih =>
    obtain ⟨db⟩ := Condition.derivation_disjunction h.1
    obtain ⟨ds⟩ := listed (ih h.2)
    exact ⟨.ifThen (isReserved_word "if") db (isReserved_word "then") ds (isReserved_word "end")⟩
  | ifThenElse b s t ihs iht =>
    obtain ⟨db⟩ := Condition.derivation_disjunction h.1
    obtain ⟨ds⟩ := listed (ihs h.2.1)
    obtain ⟨dt⟩ := listed (iht h.2.2)
    exact ⟨.ifThenElse (isReserved_word "if") db (isReserved_word "then") ds
      (isReserved_word "else") dt (isReserved_word "end")⟩
  | whileDo b s ih =>
    obtain ⟨db⟩ := Condition.derivation_disjunction h.1
    obtain ⟨ds⟩ := listed (ih h.2)
    exact ⟨.whileDo (isReserved_word "while") db (isReserved_word "do") ds (isReserved_word "end")⟩
  | repeatTimes n s ih =>
    obtain ⟨ds⟩ := listed (ih h.2)
    exact ⟨.repeatTimes (n := ⟨.integer, Decimal.write n, {}⟩) (isReserved_word "repeat") rfl
      (Decimal.read?_write n) (isReserved_word "times") ds (isReserved_word "end")⟩

theorem derives (s : Statement) (h : s.WellFormed) : Derives s.tokens s := listed (derivation h)

end Statement

end ImpLang
