import ImpLang.Program.Run
import ImpLang.Proofs.Grammar.Recognition
import ImpLang.Proofs.Program.Sequence

/-! Operators. Every operator that the grammar puts into a tree is one that has a meaning, and a run
faults only as one of the expressions of its program does. So no program that was parsed comes to
an operator without a meaning. -/

namespace ImpLang

variable {e e' : Environment} {f : Fault} {n : Nat} {o : String} {t : Token} {us : List Token}

/-! Faults of a run come from the expressions of the program. -/

/-- The program has an expression that comes to this fault in some environment. -/
def Statement.MayFault (f : Fault) : Statement → Prop
  | assign _ a => ∃ e, a.eval e = .error f
  | compound s t => s.MayFault f ∨ t.MayFault f
  | ifThen b s | whileDo b s => (∃ e, b.eval e = .error f) ∨ s.MayFault f
  | ifThenElse b s t => (∃ e, b.eval e = .error f) ∨ s.MayFault f ∨ t.MayFault f
  | repeatTimes _ s => s.MayFault f

theorem whileLoop_fault {test : Environment → Except Fault Bool}
    {body : Environment → Option Halt} (h : whileLoop test body n e = some ⟨e', some f⟩) :
    (∃ e, test e = .error f) ∨ ∃ e e', body e = some ⟨e', some f⟩ := by
  induction n generalizing e with
  | zero => cases h
  | succ n ih =>
    unfold whileLoop at h
    split at h
    · rename_i htest
      cases h
      exact Or.inl ⟨_, htest⟩
    · cases h
    · rcases Halt.andThen_eq_some.1 h with ⟨hbody, -⟩ | ⟨e'', -, hmore⟩
      · exact Or.inr ⟨_, _, hbody⟩
      · exact ih hmore

theorem countedLoop_fault {body : Environment → Option Halt} {k : Nat}
    (h : countedLoop body k e = some ⟨e', some f⟩) : ∃ e e', body e = some ⟨e', some f⟩ := by
  induction k generalizing e with
  | zero => cases h
  | succ k ih =>
    unfold countedLoop at h
    rcases Halt.andThen_eq_some.1 h with ⟨hbody, -⟩ | ⟨e'', -, hmore⟩
    · exact ⟨_, _, hbody⟩
    · exact ih hmore

theorem Statement.exec_mayFault {s : Statement} (h : s.exec n e = some ⟨e', some f⟩) :
    s.MayFault f := by
  induction s generalizing e e' with
  | assign x a =>
    unfold exec at h
    split at h
    · cases h
    · rename_i ha
      cases h
      exact ⟨_, ha⟩
  | compound s t ihs iht =>
    rcases Halt.andThen_eq_some.1 h with ⟨hs, -⟩ | ⟨e'', -, ht⟩
    · exact Or.inl (ihs hs)
    · exact Or.inr (iht ht)
  | ifThen b s ih =>
    unfold exec at h
    split at h
    · exact Or.inr (ih h)
    · cases h
    · rename_i hb
      cases h
      exact Or.inl ⟨_, hb⟩
  | ifThenElse b s t ihs iht =>
    unfold exec at h
    split at h
    · exact Or.inr (Or.inl (ihs h))
    · exact Or.inr (Or.inr (iht h))
    · rename_i hb
      cases h
      exact Or.inl ⟨_, hb⟩
  | whileDo b s ih =>
    rcases whileLoop_fault h with hb | ⟨e, e', hs⟩
    · exact Or.inl hb
    · exact Or.inr (ih hs)
  | repeatTimes k s ih =>
    obtain ⟨e, e', hs⟩ := countedLoop_fault h
    exact ih hs

/-! Trees whose operators have a meaning. -/

def Arith.Operable : Arith → Prop
  | int _ | var _ => True
  | operation o a b => (Operation.ofSymbol? o).isSome ∧ a.Operable ∧ b.Operable

def Condition.Operable : Condition → Prop
  | relation o a b => (Relation.ofSymbol? o).isSome ∧ a.Operable ∧ b.Operable
  | and a b | or a b => a.Operable ∧ b.Operable
  | not b => b.Operable

def Statement.Operable : Statement → Prop
  | assign _ a => a.Operable
  | compound s t => s.Operable ∧ t.Operable
  | ifThen b s | whileDo b s => b.Operable ∧ s.Operable
  | ifThenElse b s t => b.Operable ∧ s.Operable ∧ t.Operable
  | repeatTimes _ s => s.Operable

theorem operate_ne_unknown {symbol : String} (h : (Operation.ofSymbol? symbol).isSome)
    (l r : Int64) : operate symbol l r ≠ .error (.unknownOperator o) := by
  obtain ⟨op, hop⟩ := Option.isSome_iff_exists.1 h
  unfold operate
  rw [hop]
  dsimp only
  split
  · simp
  · split <;> simp

theorem compareBy_ne_unknown {symbol : String} (h : (Relation.ofSymbol? symbol).isSome)
    (l r : Int64) : compareBy symbol l r ≠ .error (.unknownOperator o) := by
  obtain ⟨rel, hrel⟩ := Option.isSome_iff_exists.1 h
  simp [compareBy, hrel]

/-- One computation after another has no error that neither of them has. -/
theorem bind_ne_error {α β : Type} {x : Except Fault α} {g : α → Except Fault β}
    (hx : x ≠ .error f) (hg : ∀ v, g v ≠ .error f) : (x >>= g) ≠ .error f := by
  cases x with
  | error f' => simpa [bind, Except.bind] using hx
  | ok v => exact hg v

theorem Arith.Operable.eval_ne {a : Arith} (h : a.Operable) (e : Environment) :
    a.eval e ≠ .error (.unknownOperator o) := by
  induction a with
  | int | var => simp [Arith.eval]
  | operation symbol l r ihl ihr =>
    obtain ⟨hsymbol, hl, hr⟩ := h
    exact bind_ne_error (ihl hl) fun m =>
      bind_ne_error (ihr hr) fun k => operate_ne_unknown hsymbol m k

theorem Condition.Operable.eval_ne {b : Condition} (h : b.Operable) (e : Environment) :
    b.eval e ≠ .error (.unknownOperator o) := by
  induction b with
  | relation symbol l r =>
    obtain ⟨hsymbol, hl, hr⟩ := h
    exact bind_ne_error (hl.eval_ne e) fun m =>
      bind_ne_error (hr.eval_ne e) fun k => compareBy_ne_unknown hsymbol m k
  | and l r ihl ihr | or l r ihl ihr =>
    exact bind_ne_error (ihl h.1) fun _ =>
      bind_ne_error (ihr h.2) fun _ => by simp [pure, Except.pure]
  | not b ih => exact bind_ne_error (ih h) fun _ => by simp [pure, Except.pure]

theorem Statement.Operable.not_mayFault {s : Statement} (h : s.Operable) (o : String) :
    ¬ s.MayFault (.unknownOperator o) := by
  induction s with
  | assign x a =>
    rintro ⟨e, ha⟩
    exact Arith.Operable.eval_ne h e ha
  | compound s t ihs iht =>
    rintro (hs | ht)
    · exact ihs h.1 hs
    · exact iht h.2 ht
  | ifThen b s ih | whileDo b s ih =>
    rintro (⟨e, hb⟩ | hs)
    · exact h.1.eval_ne e hb
    · exact ih h.2 hs
  | ifThenElse b s t ihs iht =>
    rintro (⟨e, hb⟩ | hs | ht)
    · exact h.1.eval_ne e hb
    · exact ihs h.2.1 hs
    · exact iht h.2.2 ht
  | repeatTimes k s ih => exact ih h

/-! What is derived is such a tree: the tables of the grammar are tables of the evaluator. -/

theorem operations_known :
    ∀ words ∈ Grammar.arithmeticLevels, ∀ w ∈ words, (Operation.ofSymbol? w).isSome := by decide

theorem relations_known : ∀ w ∈ Grammar.relations, (Relation.ofSymbol? w).isSome := by decide

theorem connectives_known :
    ∀ words ∈ Grammar.conditionLevels, ∀ w ∈ words, (Grammar.connective? w).isSome := by decide

theorem operation_of_isOneOf {words : List String} (h : t.isOneOf words = true)
    (hw : words ∈ Grammar.arithmeticLevels) : (Operation.ofSymbol? t.lexeme).isSome :=
  operations_known words hw t.lexeme (Token.lexeme_mem_of_isOneOf h)

theorem ArithDerivation.operable {l : ArithLevel} {a : Arith} (h : ArithDerivation l us a) :
    a.Operable := by
  induction h with
  | int | var => exact trivial
  | parentheses _ _ _ ih | ofTerm _ ih | ofProduct _ ih => exact ih
  | times _ operator _ ihl ihr => exact ⟨operation_of_isOneOf operator (by decide), ihl, ihr⟩
  | plus _ operator _ ihl ihr => exact ⟨operation_of_isOneOf operator (by decide), ihl, ihr⟩

theorem ConditionDerivation.operable {l : ConditionLevel} {b : Condition}
    (h : ConditionDerivation l us b) : b.Operable := by
  induction h with
  | negation _ _ ih | parentheses _ _ _ ih | ofTerm _ ih | ofConjunction _ ih => exact ih
  | relation left operator right =>
    exact ⟨relations_known _ (Token.lexeme_mem_of_isOneOf operator), left.operable, right.operable⟩
  | and _ _ _ ihl ihr | or _ _ _ ihl ihr => exact ⟨ihl, ihr⟩

theorem StatementDerivation.operable {l : StatementLevel} {s : Statement}
    (h : StatementDerivation l us s) : s.Operable := by
  induction h with
  | assign _ _ value => exact value.operable
  | ifThen _ condition _ _ _ ih | whileDo _ condition _ _ _ ih => exact ⟨condition.operable, ih⟩
  | ifThenElse _ condition _ _ _ _ _ ihs iht => exact ⟨condition.operable, ihs, iht⟩
  | repeatTimes _ _ _ _ _ _ ih | ofSingle _ ih => exact ih
  | sequence _ _ _ ihs iht => exact ⟨ihs, iht⟩

/-- What any one of the words matches is one of them. -/
theorem mem_of_run {words : List String} {c d : Cursor} {w : String}
    (h : (Grammar.anyOf words).run Grammar.rules n c = .matched w d) : w ∈ words := by
  obtain ⟨us, -, hr⟩ := Parser.Matches.reads Grammar.rules_read ⟨n, h⟩
  obtain ⟨t, -, ht, rfl⟩ := Grammar.anyOf_reads hr
  exact Token.lexeme_mem_of_isOneOf ht

/-- Conditions and sums are read in levels. No level of conditions ever reads a connective that
conditions cannot be joined with, no level of sums an operator without a meaning, and no relation is
read that has none. No expression of a program that was parsed comes to an operator without a meaning,
in whatever environment; no run of it ends there, and no run of a text does. -/
theorem parsed_operators_known :
    (Grammar.condition =
        Grammar.levels Grammar.conditionTerm Grammar.conditionLevels Grammar.connective? ∧
      ∀ words ∈ Grammar.conditionLevels, ∀ n c w d,
        (Grammar.anyOf words).run Grammar.rules n c = .matched w d →
          (Grammar.connective? w).isSome) ∧
      (Grammar.arithmetic =
          Grammar.levels Grammar.arithmeticTerm Grammar.arithmeticLevels
            (fun o => some (.operation o)) ∧
        ∀ words ∈ Grammar.arithmeticLevels, ∀ n c w d,
          (Grammar.anyOf words).run Grammar.rules n c = .matched w d →
            (Operation.ofSymbol? w).isSome) ∧
      (∀ n c w d, (Grammar.anyOf Grammar.relations).run Grammar.rules n c = .matched w d →
        (Relation.ofSymbol? w).isSome) ∧
      (∀ ts s, parse? ts = some s → ∀ o, ¬ s.MayFault (.unknownOperator o) ∧
        ∀ n e h, s.exec n e = some h → h.fault? ≠ some (.unknownOperator o)) ∧
      ∀ n source e r, runSource n source e = some r →
        ∀ o, r.error? ≠ some (.fault (.unknownOperator o)) := by
  have hparsed {ts : List Token} {s : Statement} (hp : parse? ts = some s) (o : String) :
      ¬ s.MayFault (.unknownOperator o) := by
    obtain ⟨d⟩ := parse?_eq_some.1 hp
    exact d.operable.not_mayFault o
  have hrun {ts : List Token} {s : Statement} (hp : parse? ts = some s) (o : String) (n : Nat)
      (e : Environment) (h : Halt) (hs : s.exec n e = some h) :
      h.fault? ≠ some (.unknownOperator o) := by
    obtain ⟨e', f?⟩ := h
    rintro rfl
    exact hparsed hp o (Statement.exec_mayFault hs)
  refine ⟨⟨rfl, fun words hw n c w d h => connectives_known words hw w (mem_of_run h)⟩,
    ⟨rfl, fun words hw n c w d h => operations_known words hw w (mem_of_run h)⟩,
    fun n c w d h => relations_known w (mem_of_run h),
    fun ts s hp o => ⟨hparsed hp o, hrun hp o⟩, fun n source e r h o => ?_⟩
  unfold runSource at h
  split at h
  · cases h
    simp
  · unfold runTokens at h
    split at h
    · cases h
      simp
    · rename_i s hp
      obtain ⟨halt, hs, rfl⟩ := Option.map_eq_some_iff.1 h
      have := hrun hp o n e halt hs
      cases hf : halt.fault? <;> simp_all [Halt.ending]

end ImpLang
