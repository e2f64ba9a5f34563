import ImpLang.Proofs.Grammar.Recognition
import ImpLang.Proofs.Parser.Consumption
import ImpLang.Proofs.Parser.Lookahead

/-! Every rule takes the longest match. Where some tokens ahead have a derivation, the rule matches
at least these: the parts in front of the last one are read exactly, the last one is followed as
far as it goes, and a repetition that came by its end goes on from there. -/

open ImpLang.Parser

namespace ImpLang

namespace Parser

variable {ρ : Type → Type} {rules : Rules ρ} {α : Type}

/-- The parser matches at `c`, and stops at `d` or behind it. -/
def Spans (rules : Rules ρ) (p : Parser ρ α) (c d : Cursor) : Prop :=
  ∃ v e, Matches rules p c v e ∧ d.position ≤ e.position

variable {p : Parser ρ α} {q : Parser ρ (α → α → α)} {c d : Cursor} {v : α}

theorem Matches.spans (h : Matches rules p c v d) : Spans rules p c d := ⟨v, d, h, Nat.le_refl _⟩

theorem Matches.position_le (h : Matches rules p c v d) : c.position ≤ d.position := by
  obtain ⟨us, hu⟩ := h.past
  have := hu.position
  omega

theorem rounds_position_le {x y : α × Cursor}
    (h : Relation.ReflTransGen (Round (foldRound rules p q)) x y) :
    x.2.position ≤ y.2.position := by
  induction h with
  | refl => exact Nat.le_refl _
  | tail _ hr ih =>
    obtain ⟨f, b, w, hq, hp, -⟩ := round_foldRound.1 hr
    have := hq.position_le
    have := hp.position_le
    omega

/-- A fold that comes by a place and ends does not end in front of it. -/
theorem Folds.spans (h : Folds rules p q c v d) (ht : Terminates rules (.fold p q) c) :
    Spans rules (.fold p q) c d := by
  obtain ⟨w, b, hw, hr⟩ := h
  obtain ⟨n, hn⟩ := ht
  cases ho : (Parser.fold p q).run rules n c with
  | unfinished => exact absurd ho hn
  | failed => exact absurd (fails_fold.1 ⟨n, ho⟩) hw.not_fails
  | matched u e =>
    refine ⟨u, e, ⟨n, ho⟩, ?_⟩
    obtain ⟨⟨w', b', hw', hr'⟩, hstop⟩ := matches_fold.1 ⟨n, ho⟩
    obtain ⟨rfl, rfl⟩ := hw.unique hw'
    rcases Relation.ReflTransGen.total_of_right_unique round_rightUnique hr hr' with hre | hre
    · exact rounds_position_le hre
    · cases eq_of_rounds_of_stuck hre hstop
      exact Nat.le_refl _

end Parser

open Grammar

variable {us : List Token} {c d : Cursor}

namespace Grammar

variable {α : Type} {p : Parser Nonterminal α} {q : Parser Nonterminal (α → α → α)} {u : α}
  {f : α → α → α} {b e : Cursor}

theorem fold_spans (h : Folds rules p q c u d)
    (hp : (Parser.fold p q).repeatsSoundly = true) : Spans rules (.fold p q) c d :=
  h.spans ⟨_, matchAt_ne_unfinished hp⟩

/-- A fold follows its first operand as far as this goes. -/
theorem first_spans (h : Spans rules p c d) (hp : (Parser.fold p q).repeatsSoundly = true) :
    Spans rules (.fold p q) c d := by
  obtain ⟨v, x, hv, hx⟩ := h
  obtain ⟨w, e, hw, he⟩ := fold_spans (.first hv) hp
  exact ⟨w, e, hw, Nat.le_trans hx he⟩

/-- Behind an operator, a fold follows the next operand as far as this goes. -/
theorem more_spans (hl : Folds rules p q c u b) (hq : Matches rules q b f e)
    (h : Spans rules p e d) (hp : (Parser.fold p q).repeatsSoundly = true) :
    Spans rules (.fold p q) c d := by
  obtain ⟨v, x, hv, hx⟩ := h
  obtain ⟨w, z, hw, hz⟩ := fold_spans (hl.more hq hv) hp
  exact ⟨w, z, hw, Nat.le_trans hx hz⟩

end Grammar

theorem ArithDerivation.product_spans {a : Arith} (h : ArithDerivation .product us a)
    (hc : c.Past us d) : Spans rules Grammar.product c d :=
  fold_spans (h.runs hc) rfl

theorem ArithDerivation.spans {a : Arith} (h : ArithDerivation .sum us a) (hc : c.Past us d) :
    Spans rules arithmetic c d := by
  cases h with
  | ofProduct first =>
    exact first_spans (first.product_spans hc) rfl
  | plus left operator right =>
    obtain ⟨b, hl, hc⟩ := hc.split
    obtain ⟨x, ho, hr⟩ := hc.uncons
    have hleft := left.runs hl (hc.stops (plus_not_times operator))
    exact more_spans hleft (operator_matches ho operator rfl) (right.product_spans hr) rfl

def ConditionLevel.parser : ConditionLevel → Parser Nonterminal Condition
  | term => conditionTerm
  | conjunction => Grammar.conjunction
  | disjunction => condition

theorem ConditionDerivation.spans {l : ConditionLevel} {b : Condition}
    (h : ConditionDerivation l us b) : ∀ {c d}, c.Past us d → Spans rules l.parser c d := by
  induction h with
  | negation operator _ ih =>
    intro c d hc
    obtain ⟨x, ho, hc⟩ := hc.uncons
    obtain ⟨v, e, hv, he⟩ := ih hc
    exact ⟨_, e, conditionTerm_negation ho operator hv, he⟩
  | relation left operator right =>
    intro c d hc
    obtain ⟨b, hl, hc⟩ := hc.split
    obtain ⟨x, ho, hr⟩ := hc.uncons
    obtain ⟨v, e, hv, he⟩ := right.spans hr
    exact ⟨_, e, conditionTerm_relation hl left ho operator hv, he⟩
  | parentheses left inner right _ =>
    intro c d hc
    obtain ⟨b, hl, hc⟩ := hc.uncons
    obtain ⟨x, hi, hr⟩ := hc.split
    have hm := inner.matches hi (hr.stops_reserved right)
    exact (conditionTerm_parentheses hl left hi inner hm hr right).spans
  | ofTerm _ ih => exact fun hc => first_spans (ih hc) rfl
  | and left operator _ _ ih =>
    intro c d hc
    obtain ⟨b, hl, hc⟩ := hc.split
    obtain ⟨x, ho, hr⟩ := hc.uncons
    have hleft := left.runs hl (hc.stops_reserved operator)
    exact more_spans hleft (connective_matches ho operator rfl) (ih hr) rfl
  | ofConjunction _ ih => exact fun hc => first_spans (ih hc) rfl
  | or left operator _ _ ih =>
    intro c d hc
    obtain ⟨b, hl, hc⟩ := hc.split
    obtain ⟨x, ho, hr⟩ := hc.uncons
    have hleft := left.runs hl (hc.stops_reserved operator)
    exact more_spans hleft (connective_matches ho operator rfl) (ih hr) rfl

/-- Only an assignment can be followed further: the others end with a word of their own. -/
theorem StatementDerivation.single_spans {s : Statement} (h : StatementDerivation .single us s)
    (hc : c.Past us d) : Spans rules statement c d := by
  cases hs : s.isAssignment with
  | false => exact (h.runs hc fun ha => by simp [hs] at ha).spans
  | true =>
    cases h with
    | assign name operator value =>
      obtain ⟨b, hx, hc⟩ := hc.uncons
      obtain ⟨x, ho, hv⟩ := hc.uncons
      obtain ⟨v, e, hv, he⟩ := value.spans hv
      exact ⟨_, e, statement_assignment hx name ho operator hv, he⟩
    | _ => cases hs

theorem StatementDerivation.spans {s : Statement} (h : StatementDerivation .list us s)
    (hc : c.Past us d) : Spans rules statements c d := by
  cases h with
  | ofSingle first =>
    exact first_spans (first.single_spans hc) rfl
  | sequence left operator right =>
    obtain ⟨b, hl, hc⟩ := hc.split
    obtain ⟨x, ho, hr⟩ := hc.uncons
    have hleft := left.runs hl (hc.stops_reserved operator)
    exact more_spans hleft (semicolon_matches ho operator) (right.single_spans hr) rfl

theorem Cursor.past_extract (ts : List Token) (i j : Nat) :
    Past (ts.extract i j) (ofTokens ts i)
      ⟨i + (ts.extract i j).length, (ts.drop i).drop (j - i)⟩ := by
  refine ⟨?_, rfl⟩
  rw [List.extract_eq_take_drop, List.take_append_drop]
  rfl

namespace Grammar

variable {α : Type} {r : Nonterminal α} {v : α}

theorem Derived.spans (h : Derived α r us v) (hc : c.Past us d) : Spans rules (rules α r) c d := by
  cases r with
  | statements => exact h.elim fun h => h.spans hc
  | arithmetic => exact h.elim fun h => h.spans hc
  | condition => exact h.elim fun h => h.spans hc
  | conditionTerm => exact h.elim fun h => h.spans hc

/-- A rule that matches has read tokens that derive the value; behind them it stops. -/
theorem derived_of_matches {ts : List Token} {i : Nat}
    (h : Matches rules (rules α r) (.ofTokens ts i) v d) :
    Derived α r (ts.extract i d.position) v ∧ i ≤ d.position ∧ d.position ≤ max i ts.length := by
  obtain ⟨us, hu, hr⟩ := h.reads rules_read
  obtain ⟨-, hle, hmax, rfl⟩ := hu.within
  exact ⟨rules_read α r _ v hr, hle, hmax⟩

/-- Tokens that derive no value are by themselves no whole. -/
theorem phrase_fails (h : ∀ v, ¬ Derived α r us v) :
    Fails rules (.phrase (rules α r)) (.ofTokens us 0) := by
  have hp : (Parser.phrase (rules α r)).repeatsSoundly = true := rules_wellFormed.repeatsSoundly α r
  exact (fails_iff hp).2 fun v _ hm => h v (matches_whole.1 hm).1

/-- Each rule takes the longest match. Where it matches, from a place in the tokens up to another,
the tokens between are by themselves a whole of the same value, and with further tokens they are
no whole of any value. Where it fails, no tokens ahead are a whole. -/
theorem rules_take_longest_match (r : Nonterminal α) (ts : List Token) (i : Nat) :
    (∀ v j, MatchesUpTo rules (rules α r) (.ofTokens ts i) v j →
      MatchesUpTo rules (.phrase (rules α r)) (.ofTokens (ts.extract i j) 0) v (j - i) ∧
        ∀ k, j < k → k ≤ ts.length →
          Fails rules (.phrase (rules α r)) (.ofTokens (ts.extract i k) 0)) ∧
      (Fails rules (rules α r) (.ofTokens ts i) →
        ∀ j, Fails rules (.phrase (rules α r)) (.ofTokens (ts.extract i j) 0)) := by
  refine ⟨?_, fun hf j => phrase_fails fun v hv => ?_⟩
  · rintro v j ⟨d, hm, rfl⟩
    obtain ⟨hd, hle, hmax⟩ := derived_of_matches hm
    refine ⟨⟨_, matches_whole.2 ⟨hd, rfl⟩, ?_⟩, fun k hjk hk => phrase_fails fun w hw => ?_⟩
    · simp
      omega
    · -- a longer whole would have led the rule further
      obtain ⟨x, e, he, hke⟩ := hw.spans (Cursor.past_extract ts i k)
      obtain ⟨-, rfl⟩ := hm.unique he
      simp at hke
      omega
  · obtain ⟨x, e, he, -⟩ := hv.spans (Cursor.past_extract ts i j)
    exact he.not_fails hf

end Grammar
end ImpLang
