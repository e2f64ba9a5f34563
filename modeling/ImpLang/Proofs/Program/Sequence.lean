import ImpLang.Program.Bound

/-! Sequencing. A tree of sequences runs like its leaves one after the other, up to the first
fault, however the tree nests. -/

namespace ImpLang

/-- Goes on from where a run ended, unless it ended at a fault. -/
def Halt.andThen (h? : Option Halt) (next : Environment → Option Halt) : Option Halt :=
  match h? with
  | some ⟨e, none⟩ => next e
  | h? => h?

namespace Halt

variable {h? : Option Halt} {next later : Environment → Option Halt}

theorem andThen_assoc :
    andThen (andThen h? next) later = andThen h? fun e => andThen (next e) later := by
  obtain _ | ⟨e, _ | f⟩ := h? <;> rfl

theorem andThen_done : andThen h? (fun e => some ⟨e, none⟩) = h? := by
  obtain _ | ⟨e, _ | f⟩ := h? <;> rfl

/-- The end is that of the first run, if it is a fault, or else that of the second. -/
theorem andThen_eq_some {h : Halt} : andThen h? next = some h ↔
    (h? = some h ∧ h.fault? ≠ none) ∨ ∃ e, h? = some ⟨e, none⟩ ∧ next e = some h := by
  obtain _ | ⟨e, _ | f⟩ := h?
  · simp [andThen]
  · simp only [andThen, Option.some.injEq, Halt.mk.injEq, and_true, exists_eq_left', ne_eq]
    refine ⟨Or.inr, fun h => h.resolve_left ?_⟩
    rintro ⟨rfl, hf⟩
    exact hf rfl
  · simp only [andThen, Option.some.injEq, Halt.mk.injEq, reduceCtorEq, and_false, false_and,
      exists_false, or_false]
    refine ⟨fun h => ⟨h, ?_⟩, fun h => h.1⟩
    rintro hf
    simp [← h] at hf

end Halt

/-- With the test true, a loop runs its body and then goes on. -/
theorem whileLoop_of_true {test : Environment → Except Fault Bool} {body : Environment → Option Halt}
    {e : Environment} (ht : test e = .ok true) (n : Nat) :
    whileLoop test body (n + 1) e = Halt.andThen (body e) (whileLoop test body n) := by
  rw [whileLoop, ht]
  rfl

namespace Statement

/-- The statements of a sequence, in order; any other statement stands alone. -/
def leaves : Statement → List Statement
  | compound s t => s.leaves ++ t.leaves
  | s => [s]

/-- Runs statements in order up to the first fault. -/
def execAll (n : Nat) : List Statement → Environment → Option Halt
  | [], e => some ⟨e, none⟩
  | s :: ss, e => Halt.andThen (s.exec n e) (execAll n ss)

theorem execAll_append (n : Nat) (ss ts : List Statement) (e : Environment) :
    execAll n (ss ++ ts) e = Halt.andThen (execAll n ss e) (execAll n ts) := by
  induction ss generalizing e with
  | nil => rfl
  | cons s ss ih =>
    have hs : execAll n (ss ++ ts) = fun e => Halt.andThen (execAll n ss e) (execAll n ts) :=
      funext ih
    rw [List.cons_append, execAll, execAll, hs, Halt.andThen_assoc]

theorem exec_compound (n : Nat) (s t : Statement) (e : Environment) :
    (compound s t).exec n e = Halt.andThen (s.exec n e) (t.exec n) := rfl

/-- A sequence runs like its leaves in order. -/
theorem exec_eq_execAll (n : Nat) (s : Statement) (e : Environment) :
    s.exec n e = execAll n s.leaves e := by
  induction s generalizing e with
  | compound s t ihs iht =>
    have ht : t.exec n = execAll n t.leaves := funext iht
    rw [exec_compound, leaves, execAll_append, ← ihs, ht]
  | _ => exact Halt.andThen_done.symm

/-- Two sequences as one, nested to the left. -/
def join (s : Statement) : Statement → Statement
  | compound t u => compound (s.join t) u
  | t => compound s t

theorem leaves_join (s t : Statement) : (s.join t).leaves = s.leaves ++ t.leaves := by
  induction t with
  | compound t u iht => rw [join, leaves, iht, leaves, List.append_assoc]
  | _ => rfl

theorem exec_join (n : Nat) (s t : Statement) (e : Environment) :
    (s.join t).exec n e = Halt.andThen (s.exec n e) (t.exec n) := by
  have ht : t.exec n = execAll n t.leaves := funext (exec_eq_execAll n t)
  rw [exec_eq_execAll, leaves_join, execAll_append, ← exec_eq_execAll, ht]

end Statement
end ImpLang
