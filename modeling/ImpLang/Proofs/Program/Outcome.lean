import ImpLang.Proofs.Program.Sequence
import Mathlib.Data.List.Basic

/-! How runs end. A run that ends within some bound ends within every larger one in the same way, so
what a run comes to can be said without the bound: it ends in one way, or it never ends. Said so, a
tree of sequences is the list of its leaves run in order, and a counted loop is as many copies of its
body run in order. -/

namespace ImpLang

/-- Ends within greater and greater bounds, where more room changes none that was reached. -/
def Settles (ends : Nat → Option Halt) : Prop :=
  ∀ ⦃n m : Nat⦄, n ≤ m → ∀ ⦃h : Halt⦄, ends n = some h → ends m = some h

/-- Of two runs in turn, each ends within some bound when both do within one. -/
theorem Settles.exists_andThen {first : Nat → Option Halt} {next : Nat → Environment → Option Halt}
    (hfirst : Settles first) (hnext : ∀ e, Settles (next · e)) {h : Halt} :
    (∃ n, Halt.andThen (first n) (next n) = some h) ↔
      ((∃ n, first n = some h) ∧ h.fault? ≠ none) ∨
        ∃ e, (∃ n, first n = some ⟨e, none⟩) ∧ ∃ n, next n e = some h := by
  simp only [Halt.andThen_eq_some]
  constructor
  · rintro ⟨n, ⟨hf, hfault⟩ | ⟨e, hf, hn⟩⟩
    · exact Or.inl ⟨⟨n, hf⟩, hfault⟩
    · exact Or.inr ⟨e, ⟨n, hf⟩, n, hn⟩
  · rintro (⟨⟨n, hf⟩, hfault⟩ | ⟨e, ⟨n, hf⟩, m, hn⟩)
    · exact ⟨n, Or.inl ⟨hf, hfault⟩⟩
    · refine ⟨max n m, Or.inr ⟨e, ?_, ?_⟩⟩
      · exact hfirst (Nat.le_max_left n m) hf
      · exact hnext e (Nat.le_max_right n m) hn

namespace Statement

variable {s t : Statement} {ss ts : List Statement} {b : Condition} {x : String} {a : Arith}
  {k : Int64} {e : Environment} {h h' : Halt}

/-- A run of the statement in these variables ends, and ends so. -/
def RunsTo (s : Statement) (e : Environment) (h : Halt) : Prop := ∃ n, s.exec n e = some h

theorem exec_settles (s : Statement) (e : Environment) : Settles (s.exec · e) :=
  fun _ _ hn _ => exec_mono hn

theorem RunsTo.unique (hr : s.RunsTo e h) (hr' : s.RunsTo e h') : h = h' := by
  obtain ⟨n, hn⟩ := hr
  obtain ⟨m, hm⟩ := hr'
  exact exec_unique hn hm

/-- A run that ends does so within bounds as large as one likes. -/
theorem RunsTo.within_large (hr : s.RunsTo e h) (bound : Nat) :
    ∃ n, bound ≤ n ∧ s.exec n e = some h := by
  obtain ⟨n, hn⟩ := hr
  exact ⟨max n bound, Nat.le_max_right n bound, exec_mono (Nat.le_max_left n bound) hn⟩

theorem runsTo_assign : (assign x a).RunsTo e h ↔
    (∃ v, a.eval e = .ok v ∧ h = ⟨e.set x v, none⟩) ∨ ∃ f, a.eval e = .error f ∧ h = ⟨e, some f⟩ := by
  unfold RunsTo exec
  cases a.eval e <;> simp [eq_comm]

theorem runsTo_compound : (compound s t).RunsTo e h ↔
    (s.RunsTo e h ∧ h.fault? ≠ none) ∨ ∃ e', s.RunsTo e ⟨e', none⟩ ∧ t.RunsTo e' h :=
  (exec_settles s e).exists_andThen (exec_settles t)

theorem runsTo_ifThen : (ifThen b s).RunsTo e h ↔
    (b.eval e = .ok true ∧ s.RunsTo e h) ∨ (b.eval e = .ok false ∧ h = ⟨e, none⟩) ∨
      ∃ f, b.eval e = .error f ∧ h = ⟨e, some f⟩ := by
  unfold RunsTo
  rcases hb : b.eval e with f | _ | _ <;> simp [exec, hb, eq_comm]

theorem runsTo_ifThenElse : (ifThenElse b s t).RunsTo e h ↔
    (b.eval e = .ok true ∧ s.RunsTo e h) ∨ (b.eval e = .ok false ∧ t.RunsTo e h) ∨
      ∃ f, b.eval e = .error f ∧ h = ⟨e, some f⟩ := by
  unfold RunsTo
  rcases hb : b.eval e with f | _ | _ <;> simp [exec, hb, eq_comm]

/-- Statements run in order, each in the variables that the one before leaves, and none behind a
fault. What was done before the fault stays. -/
inductive InOrder : List Statement → Environment → Halt → Prop
  | done {e : Environment} : InOrder [] e ⟨e, none⟩
  | fault {s : Statement} {ss : List Statement} {e e' : Environment} {f : Fault}
      (first : s.RunsTo e ⟨e', some f⟩) : InOrder (s :: ss) e ⟨e', some f⟩
  | next {s : Statement} {ss : List Statement} {e e' : Environment} {h : Halt}
      (first : s.RunsTo e ⟨e', none⟩) (rest : InOrder ss e' h) : InOrder (s :: ss) e h

theorem inOrder_nil : InOrder [] e h ↔ h = ⟨e, none⟩ := by
  constructor
  · rintro ⟨⟩
    rfl
  · rintro rfl
    exact .done

theorem inOrder_cons : InOrder (s :: ss) e h ↔
    (s.RunsTo e h ∧ h.fault? ≠ none) ∨ ∃ e', s.RunsTo e ⟨e', none⟩ ∧ InOrder ss e' h := by
  constructor
  · intro hr
    cases hr with
    | fault first => exact Or.inl ⟨first, by simp⟩
    | next first rest => exact Or.inr ⟨_, first, rest⟩
  · rintro (⟨hs, hf⟩ | ⟨e', hs, hss⟩)
    · obtain ⟨e', f, rfl⟩ : ∃ e' f, h = ⟨e', some f⟩ := by
        obtain ⟨e', _ | f⟩ := h
        · exact absurd rfl hf
        · exact ⟨e', f, rfl⟩
      exact .fault hs
    · exact .next hs hss

theorem inOrder_append : InOrder (ss ++ ts) e h ↔
    (InOrder ss e h ∧ h.fault? ≠ none) ∨ ∃ e', InOrder ss e ⟨e', none⟩ ∧ InOrder ts e' h := by
  induction ss generalizing e with
  | nil =>
    simp only [List.nil_append, inOrder_nil, Halt.mk.injEq, and_true, exists_eq_left]
    refine ⟨Or.inr, fun hr => hr.resolve_left ?_⟩
    rintro ⟨rfl, hf⟩
    exact hf rfl
  | cons s ss ih =>
    rw [List.cons_append]
    constructor
    · intro hr
      cases hr with
      | fault first => exact Or.inl ⟨.fault first, by simp⟩
      | next first rest =>
        rcases ih.1 rest with ⟨hss, hf⟩ | ⟨e', hss, hts⟩
        · exact Or.inl ⟨.next first hss, hf⟩
        · exact Or.inr ⟨e', .next first hss, hts⟩
    · rintro (⟨hr, hf⟩ | ⟨e', hr, hts⟩)
      · cases hr with
        | fault first => exact .fault first
        | next first rest => exact .next first (ih.2 (Or.inl ⟨rest, hf⟩))
      · cases hr with
        | next first rest => exact .next first (ih.2 (Or.inr ⟨e', rest, hts⟩))

theorem InOrder.unique (hr : InOrder ss e h) (hr' : InOrder ss e h') : h = h' := by
  induction hr with
  | done => exact (inOrder_nil.1 hr').symm
  | fault first =>
    cases hr' with
    | fault first' => exact first.unique first'
    | next first' => cases first.unique first'
  | next first rest ih =>
    cases hr' with
    | fault first' => cases first.unique first'
    | next first' rest' =>
      cases first.unique first'
      exact ih rest'

theorem inOrder_singleton : InOrder [s] e h ↔ s.RunsTo e h := by
  rw [inOrder_cons]
  obtain ⟨e', _ | f⟩ := h <;> simp [inOrder_nil]

/-- A sequence runs like its leaves in order. -/
theorem runsTo_iff_inOrder (s : Statement) (e : Environment) (h : Halt) :
    s.RunsTo e h ↔ InOrder s.leaves e h := by
  induction s generalizing e h with
  | compound s t ihs iht => simp only [runsTo_compound, leaves, inOrder_append, ihs, iht]
  | _ => exact inOrder_singleton.symm

theorem exists_countedLoop (k : Nat) (e : Environment) (h : Halt) :
    (∃ n, countedLoop (s.exec n) k e = some h) ↔ InOrder (List.replicate k s) e h := by
  induction k generalizing e h with
  | zero => simp [countedLoop, inOrder_nil, eq_comm]
  | succ k ih =>
    have hmore (e : Environment) : Settles fun n => countedLoop (s.exec n) k e :=
      fun _ _ hn _ => countedLoop_mono fun _ _ => exec_mono hn
    rw [List.replicate_succ, inOrder_cons]
    simp only [← ih]
    exact (exec_settles s e).exists_andThen hmore

/-- A counted loop runs like copies of its body in order; a negative count is none. -/
theorem runsTo_repeatTimes :
    (repeatTimes k s).RunsTo e h ↔ InOrder (List.replicate k.toInt.toNat s) e h :=
  exists_countedLoop k.toInt.toNat e h

/-- Sequencing is flat, and a counted loop is counted sequencing. A statement runs like its leaves in
order, so that the nesting does not matter; a counted loop runs like copies of its body in order, so
that it can be parted into two at any count. -/
theorem sequences_run_in_order :
    (∀ (s : Statement) e h, s.RunsTo e h ↔ InOrder s.leaves e h) ∧
      (∀ s t : Statement, s.leaves = t.leaves → ∀ e h, s.RunsTo e h ↔ t.RunsTo e h) ∧
      (∀ k s e h, (repeatTimes k s).RunsTo e h ↔ InOrder (List.replicate k.toInt.toNat s) e h) ∧
      ∀ (k m n : Int64) (s : Statement), 0 ≤ m.toInt → 0 ≤ n.toInt →
        k.toInt = m.toInt + n.toInt → ∀ e h, (repeatTimes k s).RunsTo e h ↔
          (compound (repeatTimes m s) (repeatTimes n s)).RunsTo e h := by
  refine ⟨runsTo_iff_inOrder, ?_, fun k s e h => runsTo_repeatTimes, ?_⟩
  · intro s t hleaves e h
    rw [runsTo_iff_inOrder, runsTo_iff_inOrder, hleaves]
  · intro k m n s hm hn hk e h
    have hcount : k.toInt.toNat = m.toInt.toNat + n.toInt.toNat := by
      rw [hk, Int.toNat_add hm hn]
    rw [runsTo_repeatTimes, hcount, List.replicate_add, inOrder_append, runsTo_compound]
    simp only [runsTo_repeatTimes]

theorem renested_up_to_the_fault :
    let s : Statement := .assign "x" (.int 1)
    let t : Statement := .assign "y" (.operation "/" (.int 1) (.var "z"))
    let u : Statement := .repeatTimes 3 (.compound s t)
    let r : Halt := ⟨.ofList [("x", 1)], some .divisionByZero⟩
    (compound (compound s t) u).leaves = (compound s (compound t u)).leaves ∧
      (compound (compound s t) u).RunsTo {} r ∧ (compound s (compound t u)).RunsTo {} r ∧
      (compound (repeatTimes 1 (compound s t)) (repeatTimes 2 (compound s t))).RunsTo {} r := by
  intro s t u r
  have hleaves : (compound (compound s t) u).leaves = (compound s (compound t u)).leaves := rfl
  have hleft : (compound (compound s t) u).RunsTo {} r := ⟨0, by decide +kernel⟩
  have hthree : u.RunsTo {} r := ⟨0, by decide +kernel⟩
  refine ⟨hleaves, hleft, (sequences_run_in_order.2.1 _ _ hleaves {} r).1 hleft, ?_⟩
  exact (sequences_run_in_order.2.2.2 3 1 2 _ (by decide) (by decide) (by decide) {} r).1 hthree

end Statement
end ImpLang
