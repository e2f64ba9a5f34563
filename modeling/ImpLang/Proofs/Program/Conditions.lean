import ImpLang.Proofs.Program.Arithmetic

/-! What conditions come to. Nothing in a condition is passed over: each of its comparisons needs a value
on both sides and a relation that is known, whatever the other comparisons come to. If they all have
these, the condition is as true as its formula; else it has the fault that is met first from the left.
So conditions that make the same comparisons in the same order and are as true as each other cannot be
told apart. -/

namespace ImpLang

def Relation.symbols : List String := ["<", "<=", ">", ">=", "=", "!="]

/-- What a symbol says of two integers. -/
def Compares : String → Int → Int → Prop
  | "<", m, n => m < n
  | "<=", m, n => m ≤ n
  | ">", m, n => m > n
  | ">=", m, n => m ≥ n
  | "=", m, n => m = n
  | "!=", m, n => m ≠ n
  | _, _, _ => False

namespace Relation

theorem ofSymbol?_eq_none {o : String} : ofSymbol? o = none ↔ o ∉ symbols := by
  unfold ofSymbol?
  split <;> simp_all [symbols]

theorem of_symbol {o : String} {rel : Relation} (h : ofSymbol? o = some rel) :
    o ∈ symbols ∧ ∀ m n, rel.holds m n = true ↔ Compares o m n := by
  unfold ofSymbol? at h
  split at h
  all_goals cases h
  all_goals exact ⟨by decide, fun _ _ => decide_eq_true_iff⟩

end Relation

/-- What a condition needs: that an operand has a value, and that a symbol is one of a relation. -/
inductive Check where
  | operand (value : Arith)
  | symbol (symbol : String)

namespace Check

def Passes (e : Environment) : Check → Prop
  | operand a => ∃ v, a.eval e = .ok v
  | symbol o => o ∈ Relation.symbols

def Fails (e : Environment) : Check → Fault → Prop
  | operand a, f => a.eval e = .error f
  | symbol o, f => o ∉ Relation.symbols ∧ f = .unknownOperator o

variable {e : Environment} {c : Check} {f f' : Fault}

theorem Fails.not_passes (h : c.Fails e f) : ¬ c.Passes e := by
  cases c with
  | operand a =>
    rintro ⟨v, hv⟩
    cases h.symm.trans hv
  | symbol o => exact h.1

theorem Fails.unique (h : c.Fails e f) (h' : c.Fails e f') : f = f' := by
  cases c with
  | operand a => exact Except.error.inj (h.symm.trans h')
  | symbol o => exact h.2.trans h'.2.symm

end Check

open Check

theorem operand_checked (e : Environment) (a : Arith) :
    Checked (Passes e) (Fails e) [.operand a] (fun v => v.toInt = a.value e) (a.eval e) := by
  apply Checked.single _ (fun _ => Fails.not_passes) (fun _ _ => Fails.unique)
  cases ha : a.eval e with
  | ok v => exact Or.inl ⟨v, rfl, ⟨v, ha⟩, (a.eval_checked e).good v ha⟩
  | error f => exact Or.inr ⟨f, rfl, ha⟩

theorem compareBy_checked (e : Environment) (o : String) (l r : Int64) :
    Checked (Passes e) (Fails e) [.symbol o] (fun v => v = true ↔ Compares o l.toInt r.toInt)
      (compareBy o l r) := by
  apply Checked.single _ (fun _ => Fails.not_passes) (fun _ _ => Fails.unique)
  unfold compareBy
  cases hrel : Relation.ofSymbol? o with
  | none => exact Or.inr ⟨_, rfl, Relation.ofSymbol?_eq_none.1 hrel, rfl⟩
  | some rel =>
    obtain ⟨known, holds_iff⟩ := Relation.of_symbol hrel
    exact Or.inl ⟨_, rfl, known, holds_iff l.toInt r.toInt⟩

namespace Condition

/-- What a condition needs, in the order in which evaluation comes to it. -/
def checks : Condition → List Check
  | relation o l r => [.operand l, .operand r, .symbol o]
  | and b c | or b c => b.checks ++ c.checks
  | not b => b.checks

/-- The formula is true of the exact values of its operands. -/
def Holds (e : Environment) : Condition → Prop
  | relation o l r => Compares o (l.value e) (r.value e)
  | and b c => b.Holds e ∧ c.Holds e
  | or b c => b.Holds e ∨ c.Holds e
  | not b => ¬ b.Holds e

variable {e : Environment} {b c : Condition}

theorem eval_checked (e : Environment) (b : Condition) :
    Checked (Passes e) (Fails e) b.checks (fun v => v = true ↔ b.Holds e) (b.eval e) := by
  induction b with
  | relation o l r =>
    apply (operand_checked e l).bind
    intro m hm
    apply (operand_checked e r).bind
    intro n hn
    rw [Holds, ← hm, ← hn]
    exact compareBy_checked e o m n
  | and b c ihb ihc =>
    apply ihb.bind
    intro v hv
    apply ihc.map
    intro w hw
    rw [Bool.and_eq_true, hv, hw, Holds]
  | or b c ihb ihc =>
    apply ihb.bind
    intro v hv
    apply ihc.map
    intro w hw
    rw [Bool.or_eq_true, hv, hw, Holds]
  | not b ih =>
    apply ih.map
    intro v hv
    rw [Bool.not_eq_true', ← Bool.not_eq_true, hv, Holds]

/-- Conditions with the same needs in the same order, each as true as the other, come to the same. -/
theorem eval_congr (hchecks : b.checks = c.checks) (hholds : b.Holds e ↔ c.Holds e) :
    b.eval e = c.eval e := by
  have hb := eval_checked e b
  have hc := eval_checked e c
  cases heval : b.eval e with
  | ok v =>
    obtain ⟨w, hw⟩ := hc.ok_iff.2 (hchecks ▸ hb.ok_iff.1 ⟨v, heval⟩)
    have hvw : v = true ↔ w = true := (hb.good v heval).trans (hholds.trans (hc.good w hw).symm)
    rw [hw, Bool.eq_iff_iff.2 hvw]
  | error f =>
    apply Eq.symm
    rw [hc.error_iff, ← hchecks]
    exact (hb.error_iff f).1 heval

theorem eval_not_and (e : Environment) (b c : Condition) :
    (not (and b c)).eval e = (or (not b) (not c)).eval e :=
  eval_congr rfl Classical.not_and_iff_not_or_not

theorem eval_not_or (e : Environment) (b c : Condition) :
    (not (or b c)).eval e = (and (not b) (not c)).eval e :=
  eval_congr rfl not_or

theorem eval_not_not (e : Environment) (b : Condition) : (not (not b)).eval e = b.eval e :=
  eval_congr rfl Classical.not_not

theorem eval_and_assoc (e : Environment) (b c d : Condition) :
    (and (and b c) d).eval e = (and b (and c d)).eval e :=
  eval_congr (List.append_assoc _ _ _) and_assoc

theorem eval_or_assoc (e : Environment) (b c d : Condition) :
    (or (or b c) d).eval e = (or b (or c d)).eval e :=
  eval_congr (List.append_assoc _ _ _) or_assoc

end Condition

/-- Conditions are strict. There is an outcome if every operand in the condition has a value and every
symbol is one of a relation, and it is the truth of the formula; else there is a fault, which is the
first from the left. So the laws of negation and of association keep the whole outcome. -/
theorem conditions_strict (e : Environment) (b c d : Condition) :
    ((∃ v, b.eval e = .ok v) ↔ ∀ x ∈ b.checks, x.Passes e) ∧
      (∀ v, b.eval e = .ok v → (v = true ↔ b.Holds e)) ∧
      (∀ f, b.eval e = .error f ↔ FirstFails (Passes e) (Fails e · f) b.checks) ∧
      (Condition.not (.and b c)).eval e = (Condition.or (.not b) (.not c)).eval e ∧
      (Condition.not (.or b c)).eval e = (Condition.and (.not b) (.not c)).eval e ∧
      (Condition.not (.not b)).eval e = b.eval e ∧
      (Condition.and (.and b c) d).eval e = (Condition.and b (.and c d)).eval e ∧
      (Condition.or (.or b c) d).eval e = (Condition.or b (.or c d)).eval e := by
  have h := b.eval_checked e
  refine ⟨h.ok_iff, h.good, h.error_iff, ?_, ?_, ?_, ?_, ?_⟩
  · exact Condition.eval_not_and e b c
  · exact Condition.eval_not_or e b c
  · exact Condition.eval_not_not e b
  · exact Condition.eval_and_assoc e b c d
  · exact Condition.eval_or_assoc e b c d

-- what is true on the left does not spare what faults on the right
example (e : Environment) : Condition.eval e (.or (.relation "=" (.int 0) (.int 0))
    (.relation "<" (.operation "/" (.int 1) (.int 0)) (.int 0))) = .error .divisionByZero :=
  rfl

end ImpLang
