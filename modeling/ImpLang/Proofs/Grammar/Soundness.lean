import ImpLang.Program.Grammar
import ImpLang.Proofs.Grammar.Derivation
import ImpLang.Proofs.Parser.Reads

/-! Whatever the grammar's parsers match, they have read tokens that derive the value. -/

open ImpLang.Parser

namespace ImpLang.Grammar

variable {α : Type}

/-- What the rules may read: tokens with a derivation. -/
def Derived : Language Nonterminal
  | _, .statements, us, s => Nonempty (StatementDerivation .list us s)
  | _, .arithmetic, us, a => Nonempty (ArithDerivation .sum us a)
  | _, .condition, us, b => Nonempty (ConditionDerivation .disjunction us b)
  | _, .conditionTerm, us, b => Nonempty (ConditionDerivation .term us b)

variable {lang : Language Nonterminal} {us : List Token}

theorem keyword_reads {w s : String} (h : (keyword w).Reads lang us s) :
    ∃ t, us = [t] ∧ t.isReserved w = true ∧ s = t.lexeme := by
  obtain ⟨t, rfl, hk, hl, rfl⟩ := h
  exact ⟨t, rfl, by simp [Token.isReserved, hk, hl], rfl⟩

theorem anyOf_reads {words : List String} {s : String} (h : (anyOf words).Reads lang us s) :
    ∃ t, us = [t] ∧ t.isOneOf words = true ∧ s = t.lexeme := by
  -- the words behind an arbitrary first choice
  suffices ∀ p : Parser Nonterminal String,
      (words.foldl (fun p w => .either p (keyword w)) p).Reads lang us s →
        p.Reads lang us s ∨ ∃ t, us = [t] ∧ t.isOneOf words = true ∧ s = t.lexeme from
    (this .failure h).resolve_left id
  clear h
  induction words with
  | nil => exact fun p h => Or.inl h
  | cons w words ih =>
    intro p h
    rcases ih _ h with (h | h) | ⟨t, hu, ht, hs⟩
    · exact Or.inl h
    · obtain ⟨t, hu, ht, hs⟩ := keyword_reads h
      exact Or.inr ⟨t, hu, by simp [Token.isOneOf, ht], hs⟩
    · refine Or.inr ⟨t, hu, ?_, hs⟩
      simp only [Token.isOneOf, List.any_cons, Bool.or_eq_true] at ht ⊢
      exact Or.inr ht

theorem inParentheses_reads {p : Parser Nonterminal α} {v : α}
    (h : (inParentheses p).Reads lang us v) :
    ∃ l xs r, us = l :: (xs ++ [r]) ∧ l.isReserved "(" = true ∧ p.Reads lang xs v ∧
      r.isReserved ")" = true := by
  obtain ⟨w, ⟨xs, ys, rfl, ⟨xs', ys', rfl, hl, hp⟩, hr⟩, rfl⟩ := h
  obtain ⟨l, rfl, hl, -⟩ := keyword_reads hl
  obtain ⟨r, rfl, hr, -⟩ := keyword_reads hr
  exact ⟨l, ys', r, rfl, hl, hp, hr⟩

theorem right_reads {w : String} {p : Parser Nonterminal α} {v : α}
    (h : (right (keyword w) p).Reads lang us v) :
    ∃ t xs, us = t :: xs ∧ t.isReserved w = true ∧ p.Reads lang xs v := by
  obtain ⟨r, ⟨ts, xs, rfl, ht, hp⟩, rfl⟩ := h
  obtain ⟨t, rfl, hw, -⟩ := keyword_reads ht
  exact ⟨t, xs, rfl, hw, hp⟩

theorem left_reads {w : String} {p : Parser Nonterminal α} {v : α}
    (h : (left p (keyword w)).Reads lang us v) :
    ∃ xs t, us = xs ++ [t] ∧ p.Reads lang xs v ∧ t.isReserved w = true := by
  obtain ⟨r, ⟨xs, ts, rfl, hp, ht⟩, rfl⟩ := h
  obtain ⟨t, rfl, hw, -⟩ := keyword_reads ht
  exact ⟨xs, t, rfl, hp, hw⟩

/-- A left-associative level reads an operand, and then an operator and an operand as often as it
goes on. -/
theorem level_reads {p : Parser Nonterminal α} {words : List String}
    {join : String → Option (α → α → α)}
    {P : List Token → α → Prop} (first : ∀ us v, p.Reads lang us v → P us v)
    (more : ∀ us a (o : Token) ws b f, P us a → o.isOneOf words = true → join o.lexeme = some f →
      p.Reads lang ws b → P (us ++ o :: ws) (f a b)) {v : α}
    (h : (Parser.fold p (.tryMap join (anyOf words))).Reads lang us v) : P us v := by
  obtain ⟨w, xs, ys, rfl, hx, hy⟩ := h
  induction hy with
  | none => simpa using first xs w hx
  | @snoc a c ys zs _ hz ih =>
    obtain ⟨os, ws, f, b, rfl, ⟨s, hs, hf⟩, hw, rfl⟩ := hz
    obtain ⟨o, rfl, ho, rfl⟩ := anyOf_reads hs
    rw [← List.append_assoc]
    exact more _ _ o ws b f ih ho hf hw

theorem arithmeticTerm_reads {a : Arith} (h : arithmeticTerm.Reads Derived us a) :
    Nonempty (ArithDerivation .term us a) := by
  rcases h with (⟨n, ⟨s, ⟨t, rfl, hk, rfl⟩, hn⟩, rfl⟩ | ⟨s, ⟨t, rfl, hk, rfl⟩, rfl⟩) | h
  · exact ⟨.int hk hn⟩
  · exact ⟨.var hk⟩
  · obtain ⟨l, xs, r, rfl, hl, ⟨d⟩, hr⟩ := inParentheses_reads h
    exact ⟨.parentheses hl d hr⟩

/-- The tighter level of `arithmetic`. -/
def product : Parser Nonterminal Arith :=
  .fold arithmeticTerm (.tryMap (fun op => some (.operation op)) (anyOf ["*", "/"]))

theorem arithmetic_eq :
    arithmetic = .fold product (.tryMap (fun op => some (.operation op)) (anyOf ["+", "-"])) := rfl

/-- The tighter level of `condition`. -/
def conjunction : Parser Nonterminal Condition :=
  .fold conditionTerm (.tryMap connective? (anyOf ["and"]))

theorem condition_eq : condition = .fold conjunction (.tryMap connective? (anyOf ["or"])) := rfl

theorem product_reads {a : Arith} (h : product.Reads Derived us a) :
    Nonempty (ArithDerivation .product us a) := by
  refine level_reads (P := fun us a => Nonempty (ArithDerivation .product us a)) ?_ ?_ h
  · intro us a h
    obtain ⟨d⟩ := arithmeticTerm_reads h
    exact ⟨.ofTerm d⟩
  · rintro us a o ws b f ⟨d⟩ ho hf h
    cases hf
    obtain ⟨e⟩ := arithmeticTerm_reads h
    exact ⟨.times d ho e⟩

theorem arithmetic_reads {a : Arith} (h : arithmetic.Reads Derived us a) :
    Nonempty (ArithDerivation .sum us a) := by
  rw [arithmetic_eq] at h
  refine level_reads (P := fun us a => Nonempty (ArithDerivation .sum us a)) ?_ ?_ h
  · intro us a h
    obtain ⟨d⟩ := product_reads h
    exact ⟨.ofProduct d⟩
  · rintro us a o ws b f ⟨d⟩ ho hf h
    cases hf
    obtain ⟨e⟩ := product_reads h
    exact ⟨.plus d ho e⟩

theorem conditionTerm_reads {b : Condition} (h : conditionTerm.Reads Derived us b) :
    Nonempty (ConditionDerivation .term us b) := by
  rcases h with (h | h) | h
  · obtain ⟨b, h, rfl⟩ := h
    obtain ⟨o, xs, rfl, ho, ⟨d⟩⟩ := right_reads h
    exact ⟨.negation ho d⟩
  · obtain ⟨⟨⟨a, op⟩, b⟩, ⟨xs, ys, rfl, ⟨zs, os, rfl, hl, ho⟩, hr⟩, rfl⟩ := h
    obtain ⟨o, rfl, hr', rfl⟩ := anyOf_reads ho
    obtain ⟨d⟩ := arithmetic_reads hl
    obtain ⟨e⟩ := arithmetic_reads hr
    rw [List.append_assoc]
    exact ⟨.relation d hr' e⟩
  · obtain ⟨l, xs, r, rfl, hl, ⟨d⟩, hr⟩ := inParentheses_reads h
    exact ⟨.parentheses hl d hr⟩

theorem conjunction_reads {b : Condition} (h : conjunction.Reads Derived us b) :
    Nonempty (ConditionDerivation .conjunction us b) := by
  refine level_reads (P := fun us b => Nonempty (ConditionDerivation .conjunction us b)) ?_ ?_ h
  · intro us a h
    obtain ⟨d⟩ := conditionTerm_reads h
    exact ⟨.ofTerm d⟩
  · rintro us a o ws b f ⟨d⟩ ho hf h
    have ho := Token.isOneOf_singleton.1 ho
    rw [Token.lexeme_of_isReserved ho] at hf
    cases hf
    obtain ⟨e⟩ := conditionTerm_reads h
    exact ⟨.and d ho e⟩

theorem condition_reads {b : Condition} (h : condition.Reads Derived us b) :
    Nonempty (ConditionDerivation .disjunction us b) := by
  rw [condition_eq] at h
  refine level_reads (P := fun us b => Nonempty (ConditionDerivation .disjunction us b)) ?_ ?_ h
  · intro us a h
    obtain ⟨d⟩ := conjunction_reads h
    exact ⟨.ofConjunction d⟩
  · rintro us a o ws b f ⟨d⟩ ho hf h
    have ho := Token.isOneOf_singleton.1 ho
    rw [Token.lexeme_of_isReserved ho] at hf
    cases hf
    obtain ⟨e⟩ := conjunction_reads h
    exact ⟨.or d ho e⟩

theorem assignment_reads {s : Statement} (h : assignment.Reads Derived us s) :
    Nonempty (StatementDerivation .single us s) := by
  obtain ⟨⟨⟨n, m⟩, a⟩, ⟨xs, ys, rfl, ⟨ns, os, rfl, ⟨x, rfl, hx, rfl⟩, ho⟩, ha⟩, rfl⟩ := h
  obtain ⟨o, rfl, ho, -⟩ := keyword_reads ho
  obtain ⟨d⟩ := arithmetic_reads ha
  exact ⟨.assign hx ho d⟩

theorem ifStatement_reads {s : Statement} (h : ifStatement.Reads Derived us s) :
    Nonempty (StatementDerivation .single us s) := by
  obtain ⟨⟨⟨b, s⟩, t?⟩, ⟨xs, ys, rfl, ⟨cs, ss, rfl, hc, hs⟩, ht⟩, rfl⟩ := h
  obtain ⟨i, us, rfl, hi, hc⟩ := right_reads hc
  obtain ⟨h, ws, rfl, hh, ⟨e⟩⟩ := right_reads hs
  obtain ⟨d⟩ := condition_reads hc
  obtain ⟨ts, z, rfl, ht, hz⟩ := left_reads ht
  cases t? with
  | none =>
    obtain rfl : ts = [] := ht
    change Nonempty (StatementDerivation .single _ (.ifThen b s))
    simpa using Nonempty.intro (StatementDerivation.ifThen hi d hh e hz)
  | some t =>
    change Nonempty (StatementDerivation .single _ (.ifThenElse b s t))
    obtain ⟨l, vs, rfl, hl, ⟨f⟩⟩ :=
      right_reads (show (right (keyword "else") _).Reads Derived ts t from ht)
    simpa using Nonempty.intro (StatementDerivation.ifThenElse hi d hh e hl f hz)

theorem whileStatement_reads {s : Statement} (h : whileStatement.Reads Derived us s) :
    Nonempty (StatementDerivation .single us s) := by
  obtain ⟨⟨b, s⟩, ⟨xs, ys, rfl, hc, hs⟩, rfl⟩ := h
  obtain ⟨w, us, rfl, hw, hc⟩ := right_reads hc
  obtain ⟨d⟩ := condition_reads hc
  obtain ⟨ts, z, rfl, hs, hz⟩ := left_reads hs
  obtain ⟨m, ws, rfl, hm, ⟨e⟩⟩ := right_reads hs
  simpa using Nonempty.intro (StatementDerivation.whileDo hw d hm e hz)

theorem repeatStatement_reads {s : Statement} (h : repeatStatement.Reads Derived us s) :
    Nonempty (StatementDerivation .single us s) := by
  obtain ⟨⟨k, s⟩, ⟨xs, ys, rfl, hc, hs⟩, rfl⟩ := h
  obtain ⟨r, us, rfl, hr, ⟨n, ⟨t, rfl, ht, rfl⟩, hn⟩⟩ := right_reads hc
  obtain ⟨ts, z, rfl, hs, hz⟩ := left_reads hs
  obtain ⟨m, ws, rfl, hm, ⟨e⟩⟩ := right_reads hs
  simpa using Nonempty.intro (StatementDerivation.repeatTimes hr ht hn hm e hz)

theorem statement_reads {s : Statement} (h : statement.Reads Derived us s) :
    Nonempty (StatementDerivation .single us s) := by
  rcases h with ((h | h) | h) | h
  · exact assignment_reads h
  · exact ifStatement_reads h
  · exact whileStatement_reads h
  · exact repeatStatement_reads h

theorem statements_reads {s : Statement} (h : statements.Reads Derived us s) :
    Nonempty (StatementDerivation .list us s) := by
  obtain ⟨s, xs, ys, rfl, hx, hy⟩ := h
  induction hy with
  | none =>
    obtain ⟨d⟩ := statement_reads hx
    simpa using Nonempty.intro (StatementDerivation.ofSingle d)
  | @snoc s u ys zs _ hz ih =>
    obtain ⟨os, ws, f, t, rfl, ⟨w, ho, rfl⟩, ht, rfl⟩ := hz
    obtain ⟨o, rfl, ho, -⟩ := keyword_reads ho
    obtain ⟨d⟩ := ih
    obtain ⟨e⟩ := statement_reads ht
    rw [← List.append_assoc]
    exact ⟨.sequence d ho e⟩

theorem rules_read (α : Type) (r : Nonterminal α) (us : List Token) (v : α)
    (h : (rules α r).Reads Derived us v) : Derived α r us v := by
  cases r with
  | statements => exact statements_reads h
  | arithmetic => exact arithmetic_reads h
  | condition => exact condition_reads h
  | conditionTerm => exact conditionTerm_reads h

end ImpLang.Grammar
