import ImpLang.Program.Exec

/-! A run that ends within a bound on the turns of its loops ends the same way within every larger one. -/

namespace ImpLang

theorem whileLoop_mono {test : Environment → Except Fault Bool} {body body' : Environment → Option Halt}
    {n m : Nat} (hn : n ≤ m) (hb : ∀ e h, body e = some h → body' e = some h) {e : Environment} {h : Halt}
    (hr : whileLoop test body n e = some h) : whileLoop test body' m e = some h := by
  induction n generalizing m e with
  | zero => cases hr
  | succ n ih =>
    obtain ⟨m, rfl⟩ : ∃ k, m = k + 1 := ⟨m - 1, by omega⟩
    unfold whileLoop at hr ⊢
    split at hr
    · exact hr
    · exact hr
    · cases hbe : body e with
      | none => rw [hbe] at hr; cases hr
      | some r =>
        rw [hb e r hbe]
        rw [hbe] at hr
        obtain ⟨e', _ | f⟩ := r
        · exact ih (by omega) hr
        · exact hr

theorem countedLoop_mono {body body' : Environment → Option Halt}
    (hb : ∀ e h, body e = some h → body' e = some h) {k : Nat} {e : Environment} {h : Halt}
    (hr : countedLoop body k e = some h) : countedLoop body' k e = some h := by
  induction k generalizing e with
  | zero => exact hr
  | succ k ih =>
    unfold countedLoop at hr ⊢
    cases hbe : body e with
    | none => rw [hbe] at hr; cases hr
    | some r =>
      rw [hb e r hbe]
      rw [hbe] at hr
      obtain ⟨e', _ | f⟩ := r
      · exact ih hr
      · exact hr

theorem Statement.exec_mono {n m : Nat} (hn : n ≤ m) {s : Statement} {e : Environment} {h : Halt}
    (hr : s.exec n e = some h) : s.exec m e = some h := by
  induction s generalizing e h with
  | assign x a => exact hr
  | compound s t ihs iht =>
    unfold Statement.exec at hr ⊢
    cases hs : s.exec n e with
    | none => rw [hs] at hr; cases hr
    | some r =>
      rw [ihs hs]
      rw [hs] at hr
      obtain ⟨e', _ | f⟩ := r
      · exact iht hr
      · exact hr
  | ifThen b s ih =>
    unfold Statement.exec at hr ⊢
    split at hr
    · exact ih hr
    · exact hr
    · exact hr
  | ifThenElse b s t ihs iht =>
    unfold Statement.exec at hr ⊢
    split at hr
    · exact ihs hr
    · exact iht hr
    · exact hr
  | whileDo b s ih => exact whileLoop_mono hn (fun _ _ => ih) hr
  | repeatTimes k s ih => exact countedLoop_mono (fun _ _ => ih) hr

/-- Runs within two bounds that both end agree. -/
theorem Statement.exec_unique {n m : Nat} {s : Statement} {e : Environment} {h h' : Halt}
    (hr : s.exec n e = some h) (hr' : s.exec m e = some h') : h = h' := by
  obtain hl | hl := Nat.le_total n m
  · exact Option.some.inj ((exec_mono hl hr).symm.trans hr')
  · exact Option.some.inj (hr.symm.trans (exec_mono hl hr'))

end ImpLang
