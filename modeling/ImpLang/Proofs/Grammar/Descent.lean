import ImpLang.Proofs.Grammar.Recognition
import ImpLang.Proofs.Parser.Nesting

/-! Parsing ends, and the number of tokens left bounds how deep its runs nest. -/

open ImpLang.Parser

namespace ImpLang.Grammar

/-- Where parsing may start: with a whole program, or with a rule. -/
inductive Entry : Type → Type 1 where
  | program : Entry Statement
  | rule {α : Type} (r : Nonterminal α) : Entry α

def Entry.parser {α : Type} : Entry α → Parser Nonterminal α
  | program => Grammar.program
  | rule r => rules α r

variable {α : Type}

theorem height_lt (α : Type) (r : Nonterminal α) : (rules α r).height < 23 := by
  cases r <;> decide

theorem Entry.guarded (s : Entry α) : s.parser.guarded = true := by
  cases s with
  | program => rfl
  | rule r => exact rules_wellFormed.guarded α r

theorem Entry.advances (s : Entry α) : s.parser.advances = true := by
  cases s with
  | program => rfl
  | rule r => exact rules_wellFormed.advances α r

theorem Entry.repeatsSoundly (s : Entry α) : s.parser.repeatsSoundly = true := by
  cases s with
  | program => rfl
  | rule r => exact rules_wellFormed.repeatsSoundly α r

theorem Entry.height_le (s : Entry α) : s.parser.height ≤ 23 := by
  cases s with
  | program => decide
  | rule r => exact Nat.le_of_lt (height_lt α r)

theorem Entry.folds_advance (s : Entry α) : ∀ f ∈ s.parser.folds, f.Advances rules := by
  have h : s.parser.folds.all (fun f => f.operand.advances && f.operator.advances) = true := by
    cases s with
    | program => rfl
    | rule r => cases r <;> rfl
  intro f hf
  have hf := List.all_eq_true.1 h f hf
  rw [Bool.and_eq_true] at hf
  exact Fold.advances rules_wellFormed hf.1 hf.2

/-- Parsing ends wherever it starts, also past the end. Whatever matches has read a token, and so
have the parts of every fold and each of its rounds. However runs nest, rules are called further on
than where the enclosing one was entered, no more of them than there are tokens left, and the
nesting is bounded in proportion to these. -/
theorem nesting_bounded (s : Entry α) (ts : List Token) (i : Nat) :
    Grammar.matchAt s.parser (.ofTokens ts i) ≠ .unfinished ∧
      (∀ v d, Matches rules s.parser (.ofTokens ts i) v d → i < d.position) ∧
      (∀ f ∈ s.parser.folds, f.Advances rules) ∧
      ∀ l, Nested rules (⟨s.parser, .ofTokens ts i⟩ :: l) →
        (∀ b ∈ l, Terminates rules b.parser b.cursor ∧
          (b.parser.isCall = true → i < b.cursor.position)) ∧
        l.countP (·.parser.isCall) ≤ ts.length - i ∧ l.length ≤ 23 * (ts.length - i + 1) := by
  have hweight : (Activation.mk s.parser (.ofTokens ts i)).weight = ts.length - i := by
    simp [Activation.weight, s.guarded, Cursor.ofTokens]
  refine ⟨matchAt_ne_unfinished s.repeatsSoundly, fun v d h => ?_, s.folds_advance,
    fun l hl => ⟨fun b hb => ⟨?_, fun hc => ?_⟩, ?_, ?_⟩⟩
  · exact h.position_lt rules_wellFormed s.advances
  · exact hl.ends rules_wellFormed height_lt s.repeatsSoundly hb
  · exact hl.call_later rules_wellFormed s.guarded hb hc
  · have := hl.calls_le rules_wellFormed
    rw [List.countP_cons, hweight] at this
    omega
  · have hle := hl.length_le rules_wellFormed height_lt
    have := s.height_le
    rw [hweight] at hle
    calc l.length ≤ 23 * (ts.length - i) + s.parser.height := hle
      _ ≤ 23 * (ts.length - i + 1) := by omega

end ImpLang.Grammar
