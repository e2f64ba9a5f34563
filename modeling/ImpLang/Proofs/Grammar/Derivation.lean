import ImpLang.Program.Basic
import ImpLang.Text.Decimal
import ImpLang.Token

/-! The grammar by itself: which tokens derive which trees. Nothing here is ordered or greedy; the
binary levels are left-recursive. A derivation is data, so that two derivations of the same tokens
can be compared. -/

namespace ImpLang

namespace Token

/-- Is this one of the reserved words? -/
def isOneOf (words : List String) (t : Token) : Bool := words.any t.isReserved

variable {words others : List String} {w : String} {t : Token}

theorem isOneOf_iff : t.isOneOf words = true ↔ ∃ w ∈ words, t.isReserved w = true := by
  simp [isOneOf]

theorem isOneOf_singleton : t.isOneOf [w] = true ↔ t.isReserved w = true := by
  simp [isOneOf]

theorem kind_of_isReserved (h : t.isReserved w = true) : t.kind = .reserved := by
  simp only [isReserved, Bool.and_eq_true, beq_iff_eq] at h
  exact h.1

theorem lexeme_of_isReserved (h : t.isReserved w = true) : t.lexeme = w := by
  simp only [isReserved, Bool.and_eq_true, beq_iff_eq] at h
  exact h.2

theorem kind_of_isOneOf (h : t.isOneOf words = true) : t.kind = .reserved := by
  obtain ⟨w, -, hr⟩ := isOneOf_iff.1 h
  exact kind_of_isReserved hr

theorem lexeme_mem_of_isOneOf (h : t.isOneOf words = true) : t.lexeme ∈ words := by
  obtain ⟨w, hw, hr⟩ := isOneOf_iff.1 h
  exact lexeme_of_isReserved hr ▸ hw

/-- A token is one reserved word and no other. -/
theorem isOneOf_eq_false (h : t.isReserved w = true) (hw : w ∉ words) :
    t.isOneOf words = false := by
  rw [Bool.eq_false_iff, Ne, isOneOf_iff]
  rintro ⟨v, hv, hr⟩
  exact hw (lexeme_of_isReserved h ▸ lexeme_of_isReserved hr ▸ hv)

theorem isOneOf_disjoint (h : t.isOneOf words = true) (hd : ∀ w ∈ words, w ∉ others) :
    t.isOneOf others = false := by
  obtain ⟨w, hw, ht⟩ := isOneOf_iff.1 h
  exact isOneOf_eq_false ht (hd w hw)

end Token

inductive ArithLevel where
  | term
  | product
  | sum

/-- Arithmetic. An integer token counts only where its text is a numeral that fits a word. -/
inductive ArithDerivation : ArithLevel → List Token → Arith → Type where
  | int {t : Token} {n : Int64} (kind : t.kind = .integer)
      (value : Decimal.read? t.lexeme = some n) :
      ArithDerivation .term [t] (.int n)
  | var {t : Token} (kind : t.kind = .identifier) : ArithDerivation .term [t] (.var t.lexeme)
  | parentheses {l r : Token} {us : List Token} {a : Arith} (left : l.isReserved "(")
      (inner : ArithDerivation .sum us a) (right : r.isReserved ")") :
      ArithDerivation .term (l :: (us ++ [r])) a
  | ofTerm {us : List Token} {a : Arith} (first : ArithDerivation .term us a) :
    ArithDerivation .product us a
  | times {us ws : List Token} {o : Token} {a b : Arith} (left : ArithDerivation .product us a)
      (operator : o.isOneOf ["*", "/"]) (right : ArithDerivation .term ws b) :
      ArithDerivation .product (us ++ o :: ws) (.operation o.lexeme a b)
  | ofProduct {us : List Token} {a : Arith} (first : ArithDerivation .product us a) :
    ArithDerivation .sum us a
  | plus {us ws : List Token} {o : Token} {a b : Arith} (left : ArithDerivation .sum us a)
      (operator : o.isOneOf ["+", "-"]) (right : ArithDerivation .product ws b) :
      ArithDerivation .sum (us ++ o :: ws) (.operation o.lexeme a b)

inductive ConditionLevel where
  | term
  | conjunction
  | disjunction

inductive ConditionDerivation : ConditionLevel → List Token → Condition → Type where
  | negation {o : Token} {us : List Token} {b : Condition} (operator : o.isReserved "not")
      (inner : ConditionDerivation .term us b) : ConditionDerivation .term (o :: us) (.not b)
  | relation {us ws : List Token} {o : Token} {a b : Arith} (left : ArithDerivation .sum us a)
      (operator : o.isOneOf ["<", "<=", ">", ">=", "=", "!="]) (right : ArithDerivation .sum ws b) :
      ConditionDerivation .term (us ++ o :: ws) (.relation o.lexeme a b)
  | parentheses {l r : Token} {us : List Token} {b : Condition} (left : l.isReserved "(")
      (inner : ConditionDerivation .disjunction us b) (right : r.isReserved ")") :
      ConditionDerivation .term (l :: (us ++ [r])) b
  | ofTerm {us : List Token} {b : Condition} (first : ConditionDerivation .term us b) :
      ConditionDerivation .conjunction us b
  | and {us ws : List Token} {o : Token} {a b : Condition}
      (left : ConditionDerivation .conjunction us a)
      (operator : o.isReserved "and") (right : ConditionDerivation .term ws b) :
      ConditionDerivation .conjunction (us ++ o :: ws) (.and a b)
  | ofConjunction {us : List Token} {b : Condition}
      (first : ConditionDerivation .conjunction us b) :
      ConditionDerivation .disjunction us b
  | or {us ws : List Token} {o : Token} {a b : Condition}
      (left : ConditionDerivation .disjunction us a)
      (operator : o.isReserved "or") (right : ConditionDerivation .conjunction ws b) :
      ConditionDerivation .disjunction (us ++ o :: ws) (.or a b)

inductive StatementLevel where
  | single
  | list

inductive StatementDerivation : StatementLevel → List Token → Statement → Type where
  | assign {x o : Token} {us : List Token} {a : Arith} (name : x.kind = .identifier)
      (operator : o.isReserved ":=")
      (value : ArithDerivation .sum us a) :
      StatementDerivation .single (x :: o :: us) (.assign x.lexeme a)
  | ifThen {i h e : Token} {us ws : List Token} {b : Condition} {s : Statement}
      (opening : i.isReserved "if")
      (condition : ConditionDerivation .disjunction us b) (middle : h.isReserved "then")
      (body : StatementDerivation .list ws s) (closing : e.isReserved "end") :
      StatementDerivation .single (i :: (us ++ h :: (ws ++ [e]))) (.ifThen b s)
  | ifThenElse {i h l e : Token} {us ws xs : List Token} {b : Condition} {s t : Statement}
      (opening : i.isReserved "if") (condition : ConditionDerivation .disjunction us b)
      (middle : h.isReserved "then")
      (body : StatementDerivation .list ws s) (otherwise : l.isReserved "else")
      (alternative : StatementDerivation .list xs t) (closing : e.isReserved "end") :
      StatementDerivation .single (i :: (us ++ h :: (ws ++ l :: (xs ++ [e])))) (.ifThenElse b s t)
  | whileDo {w d e : Token} {us ws : List Token} {b : Condition} {s : Statement}
      (opening : w.isReserved "while")
      (condition : ConditionDerivation .disjunction us b) (middle : d.isReserved "do")
      (body : StatementDerivation .list ws s) (closing : e.isReserved "end") :
      StatementDerivation .single (w :: (us ++ d :: (ws ++ [e]))) (.whileDo b s)
  | repeatTimes {r n m e : Token} {us : List Token} {k : Int64} {s : Statement}
      (opening : r.isReserved "repeat")
      (kind : n.kind = .integer) (count : Decimal.read? n.lexeme = some k)
      (middle : m.isReserved "times")
      (body : StatementDerivation .list us s) (closing : e.isReserved "end") :
      StatementDerivation .single (r :: n :: m :: (us ++ [e])) (.repeatTimes k s)
  | ofSingle {us : List Token} {s : Statement} (first : StatementDerivation .single us s) :
      StatementDerivation .list us s
  | sequence {us ws : List Token} {o : Token} {s t : Statement}
      (left : StatementDerivation .list us s)
      (operator : o.isReserved ";") (right : StatementDerivation .single ws t) :
      StatementDerivation .list (us ++ o :: ws) (.compound s t)

/-- The tokens are a program with this tree. -/
def Derives (tokens : List Token) (s : Statement) : Prop :=
  Nonempty (StatementDerivation .list tokens s)

end ImpLang
