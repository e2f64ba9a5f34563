import ImpLang.Proofs.Program.Turns

/-! What a run changes. A run binds the names of the assignments that it carries out, and no others;
it never unbinds a name, and it keeps the values of the names that its program does not assign to.
All this holds of runs that end at a fault as well. What any assignment on the way keeps, a run keeps;
so each fact about runs is one about a single assignment. -/

namespace ImpLang

open Statement

/-- The names that a program assigns to. -/
def Statement.targets : Statement → List String
  | assign x _ => [x]
  | compound s t | ifThenElse _ s t => s.targets ++ t.targets
  | ifThen _ s | whileDo _ s | repeatTimes _ s => s.targets

/-- In the course of running the first statement in its variables, the second one, a direct part of
it, is run in its own. -/
inductive Statement.Enters : Statement × Environment → Statement × Environment → Prop
  | first {s t : Statement} {e : Environment} : Enters (compound s t, e) (s, e)
  | second {s t : Statement} {e e' : Environment} (before : s.RunsTo e ⟨e', none⟩) :
      Enters (compound s t, e) (t, e')
  | guarded {b : Condition} {s : Statement} {e : Environment} (test : b.eval e = .ok true) :
      Enters (ifThen b s, e) (s, e)
  | chosen {b : Condition} {s t : Statement} {e : Environment} (test : b.eval e = .ok true) :
      Enters (ifThenElse b s t, e) (s, e)
  | otherwise {b : Condition} {s t : Statement} {e : Environment} (test : b.eval e = .ok false) :
      Enters (ifThenElse b s t, e) (t, e)
  | turn {b : Condition} {s : Statement} {e e' : Environment}
      (before : Relation.ReflTransGen (Turn b s) e e') (test : b.eval e' = .ok true) :
      Enters (whileDo b s, e) (s, e')
  | copy {k : Int64} {s : Statement} {e e' : Environment} {i : Nat} (within : i < k.toInt.toNat)
      (before : InOrder (List.replicate i s) e ⟨e', none⟩) : Enters (repeatTimes k s, e) (s, e')

/-- A run of the statement in these variables comes to a part of it, or to itself, to be run in
those. -/
def Statement.ComesTo (s : Statement) (e : Environment) (p : Statement) (e' : Environment) : Prop :=
  Relation.ReflTransGen Enters (s, e) (p, e')

/-- A run of the statement in these variables carries out an assignment to the name. -/
def Statement.Assigns (s : Statement) (e : Environment) (x : String) : Prop :=
  ∃ a e' v, s.ComesTo e (.assign x a) e' ∧ a.eval e' = .ok v

variable {s t p : Statement} {ss ts : List Statement} {b : Condition} {x : String} {a : Arith}
  {e e' : Environment} {h : Halt}

theorem Statement.Enters.targets_subset {x y : Statement × Environment} (he : Enters x y) :
    y.1.targets ⊆ x.1.targets := by
  cases he with
  | first | chosen => exact List.subset_append_left _ _
  | second | otherwise => exact List.subset_append_right _ _
  | guarded | turn | copy => exact List.Subset.refl _

theorem Statement.ComesTo.cases (hc : s.ComesTo e p e') :
    (p = s ∧ e' = e) ∨ ∃ t e₁, Enters (s, e) (t, e₁) ∧ t.ComesTo e₁ p e' := by
  rcases hc.cases_head with heq | ⟨⟨t, e₁⟩, he, hrest⟩
  · cases heq
    exact Or.inl ⟨rfl, rfl⟩
  · exact Or.inr ⟨t, e₁, he, hrest⟩

theorem comesTo_assign (hc : (assign x a).ComesTo e p e') : p = assign x a ∧ e' = e := by
  rcases hc.cases with heq | ⟨t, e₁, he, -⟩
  · exact heq
  · cases he

theorem Statement.ComesTo.targets_subset (hc : s.ComesTo e p e') : p.targets ⊆ s.targets := by
  refine hc.head_induction_on (motive := fun x _ => p.targets ⊆ x.1.targets) ?_ ?_
  · exact List.Subset.refl _
  · intro x y he _ ih
    exact List.Subset.trans ih he.targets_subset

/-! What assignments do. -/

section Relates

variable {R : Environment → Environment → Prop} (hrefl : ∀ e, R e e)
  (htrans : ∀ e₁ e₂ e₃, R e₁ e₂ → R e₂ e₃ → R e₁ e₃)

include hrefl htrans

/-- What the body does to the variables in each turn, the loop does to them. -/
theorem Statement.RunsTo.relates_turns (hr : (whileDo b s).RunsTo e h)
    (hbody : ∀ e₁ h, Relation.ReflTransGen (Turn b s) e e₁ → b.eval e₁ = .ok true →
      s.RunsTo e₁ h → R e₁ h.environment) : R e h.environment := by
  refine hr.whileDo_induct
    (motive := fun e₁ => Relation.ReflTransGen (Turn b s) e e₁ → R e₁ h.environment) ?_ ?_ .refl
  · intro e₁ hx hturns
    cases hx with
    | done | testFaults => exact hrefl e₁
    | bodyFaults hb hs => exact hbody e₁ _ hturns hb hs
  · intro e₁ e₂ ht _ hmore hturns
    exact htrans e₁ e₂ _ (hbody e₁ _ hturns ht.1 ht.2) (hmore (hturns.tail ht))

/-- What each copy does to the variables, the copies in order do to them. -/
theorem Statement.InOrder.relates_copies {k : Nat} (hr : InOrder (List.replicate k s) e h)
    (hbody : ∀ i e₁ h, i < k → InOrder (List.replicate i s) e ⟨e₁, none⟩ → s.RunsTo e₁ h →
      R e₁ h.environment) : R e h.environment := by
  induction k generalizing h with
  | zero =>
    cases inOrder_nil.1 hr
    exact hrefl e
  | succ k ih =>
    have hbefore {h : Halt} (hr : InOrder (List.replicate k s) e h) : R e h.environment :=
      ih hr fun i e₁ h hi => hbody i e₁ h (Nat.lt_succ_of_lt hi)
    rw [List.replicate_succ', inOrder_append] at hr
    rcases hr with ⟨hr, -⟩ | ⟨e', hr, hlast⟩
    · exact hbefore hr
    · exact htrans e e' _ (hbefore hr) (hbody k e' h k.lt_succ_self hr (inOrder_singleton.1 hlast))

/-- What every assignment that a run carries out does to the variables, the run does to them. -/
theorem Statement.RunsTo.relates (hr : s.RunsTo e h)
    (hset : ∀ x a e' v, s.ComesTo e (.assign x a) e' → a.eval e' = .ok v → R e' (e'.set x v)) :
    R e h.environment := by
  induction s generalizing e h with
  | assign x a =>
    rcases runsTo_assign.1 hr with ⟨v, hv, rfl⟩ | ⟨f, -, rfl⟩
    · exact hset x a e v .refl hv
    · exact hrefl e
  | compound s t ihs iht =>
    have hs {h : Halt} (hs : s.RunsTo e h) : R e h.environment :=
      ihs hs fun x a e' v hc => hset x a e' v (hc.head .first)
    rcases runsTo_compound.1 hr with ⟨hr, -⟩ | ⟨e', hr, ht⟩
    · exact hs hr
    · apply htrans e e' _ (hs hr)
      exact iht ht fun x a e' v hc => hset x a e' v (hc.head (.second hr))
  | ifThen b s ih =>
    rcases runsTo_ifThen.1 hr with ⟨hb, hs⟩ | ⟨-, rfl⟩ | ⟨f, -, rfl⟩
    · exact ih hs fun x a e' v hc => hset x a e' v (hc.head (.guarded hb))
    · exact hrefl e
    · exact hrefl e
  | ifThenElse b s t ihs iht =>
    rcases runsTo_ifThenElse.1 hr with ⟨hb, hs⟩ | ⟨hb, ht⟩ | ⟨f, -, rfl⟩
    · exact ihs hs fun x a e' v hc => hset x a e' v (hc.head (.chosen hb))
    · exact iht ht fun x a e' v hc => hset x a e' v (hc.head (.otherwise hb))
    · exact hrefl e
  | whileDo b s ih =>
    apply hr.relates_turns hrefl htrans
    intro e₁ h hturns hb hs
    exact ih hs fun x a e' v hc => hset x a e' v (hc.head (.turn hturns hb))
  | repeatTimes k s ih =>
    apply (runsTo_repeatTimes.1 hr).relates_copies hrefl htrans
    intro i e₁ h hi hbefore hs
    exact ih hs fun x a e' v hc => hset x a e' v (hc.head (.copy hi hbefore))

end Relates

theorem Statement.RunsTo.keeps_bound (hr : s.RunsTo e h) (hx : e.contains x) :
    h.environment.contains x := by
  revert hx
  refine RunsTo.relates (R := fun e e' => e.contains x → e'.contains x) (fun _ => id)
    (fun _ _ _ h h' hx => h' (h hx)) hr ?_
  intro y a e' v _ _ hx
  rw [Environment.contains_set, hx, Bool.or_true]

/-- Names that a program does not assign to are as they were. -/
theorem Statement.RunsTo.keeps_others (hr : s.RunsTo e h) (hx : x ∉ s.targets) :
    h.environment.contains x = e.contains x ∧ h.environment.get x = e.get x := by
  refine RunsTo.relates (R := fun e e' => e'.contains x = e.contains x ∧ e'.get x = e.get x)
    (fun _ => ⟨rfl, rfl⟩) (fun _ _ _ h h' => ⟨h'.1.trans h.1, h'.2.trans h.2⟩) hr ?_
  intro y a e' v hc _
  have hy : y ≠ x := by
    rintro rfl
    exact hx (hc.targets_subset (List.mem_singleton.2 rfl))
  simp [Environment.contains_set, Environment.get_set, hy]

theorem Statement.RunsTo.binds_assigned (hr : s.RunsTo e h) (hx : h.environment.contains x) :
    e.contains x ∨ s.Assigns e x := by
  -- the name was bound before, or an assignment to it is carried out
  refine RunsTo.relates (R := fun e' e'' => e''.contains x → e'.contains x ∨ s.Assigns e x)
    (fun _ => Or.inl) (fun _ _ _ h h' hx => (h' hx).elim h Or.inr) hr ?_ hx
  intro y a e' v hc hv hx
  rw [Environment.contains_set, Bool.or_eq_true, beq_iff_eq] at hx
  rcases hx with rfl | hx
  · exact Or.inr ⟨a, e', v, hc, hv⟩
  · exact Or.inl hx

theorem Statement.InOrder.keeps_bound (hr : InOrder ss e h) (hx : e.contains x) :
    h.environment.contains x := by
  induction hr with
  | done => exact hx
  | fault first => exact first.keeps_bound hx
  | next first _ ih => exact ih (first.keeps_bound hx)

/-! What a run comes to is run to its end within it. -/

theorem Statement.inOrder_pair : InOrder [s, t] e h ↔ (compound s t).RunsTo e h := by
  rw [inOrder_cons, runsTo_compound]
  simp only [inOrder_singleton]

/-- A run of the statement ends, and every name that it leaves bound is bound at the other end too. -/
def EndsWithin (p : Statement) (e : Environment) (h : Halt) : Prop :=
  ∃ h', p.RunsTo e h' ∧ ∀ x, h'.environment.contains x → h.environment.contains x

theorem Statement.InOrder.endsWithin (hr : InOrder (s :: ss) e h) : EndsWithin s e h := by
  rcases inOrder_cons.1 hr with ⟨hs, -⟩ | ⟨e', hs, hss⟩
  · exact ⟨h, hs, fun _ => id⟩
  · exact ⟨⟨e', none⟩, hs, fun _ => hss.keeps_bound⟩

theorem Turn.runsTo_after (ht : Turn b s e e') (hr : (whileDo b s).RunsTo e h) :
    (whileDo b s).RunsTo e' h := by
  rcases runsTo_whileDo.1 hr with hx | ⟨e'', ht', hmore⟩
  · exact absurd ht hx.not_turn
  · cases ht.unique ht'
    exact hmore

theorem Statement.RunsTo.after_turns (hr : (whileDo b s).RunsTo e h)
    (ht : Relation.ReflTransGen (Turn b s) e e') : (whileDo b s).RunsTo e' h := by
  induction ht with
  | refl => exact hr
  | tail _ ht ih => exact ht.runsTo_after ih

theorem Statement.InOrder.after (hr : InOrder (ss ++ ts) e h)
    (hbefore : InOrder ss e ⟨e', none⟩) : InOrder ts e' h := by
  rcases inOrder_append.1 hr with ⟨hss, hf⟩ | ⟨e'', hss, hts⟩
  · cases hss.unique hbefore
    exact absurd rfl hf
  · cases hss.unique hbefore
    exact hts

theorem Statement.Enters.endsWithin (he : Enters (s, e) (p, e')) (hr : s.RunsTo e h) :
    EndsWithin p e' h := by
  cases he with
  | first => exact (inOrder_pair.2 hr).endsWithin
  | second before =>
    have hpair : InOrder ([_] ++ [_]) e h := inOrder_pair.2 hr
    exact ⟨h, inOrder_singleton.1 (hpair.after (inOrder_singleton.2 before)), fun _ => id⟩
  | guarded test => exact ⟨h, by simpa [runsTo_ifThen, test] using hr, fun _ => id⟩
  | chosen test | otherwise test =>
    exact ⟨h, by simpa [runsTo_ifThenElse, test] using hr, fun _ => id⟩
  | turn before test =>
    have hturn := (runsTo_whileDo_of_true test).1 (hr.after_turns before)
    exact (inOrder_pair.2 hturn).endsWithin
  | @copy k _ _ _ i within before =>
    obtain ⟨j, hj⟩ : ∃ j, k.toInt.toNat = i + (j + 1) := ⟨k.toInt.toNat - i - 1, by omega⟩
    rw [runsTo_repeatTimes, hj, List.replicate_add, List.replicate_succ] at hr
    exact (hr.after before).endsWithin

theorem Statement.ComesTo.endsWithin (hc : s.ComesTo e p e') (hr : s.RunsTo e h) :
    EndsWithin p e' h := by
  refine hc.head_induction_on
    (motive := fun x _ => ∀ h, x.1.RunsTo x.2 h → EndsWithin p e' h) ?_ ?_ h hr
  · intro h hp
    exact ⟨h, hp, fun _ => id⟩
  · intro x y he _ ih h hx
    obtain ⟨h₁, hy, hlast⟩ := he.endsWithin hx
    obtain ⟨h₂, hp, hkeeps⟩ := ih h₁ hy
    exact ⟨h₂, hp, fun z hz => hlast z (hkeeps z hz)⟩

theorem Statement.RunsTo.contains_iff (hr : s.RunsTo e h) :
    h.environment.contains x ↔ e.contains x ∨ s.Assigns e x := by
  constructor
  · exact hr.binds_assigned
  · rintro (hx | ⟨a, e', v, hc, hv⟩)
    · exact hr.keeps_bound hx
    · obtain ⟨h', hassign, hkeeps⟩ := hc.endsWithin hr
      rcases runsTo_assign.1 hassign with ⟨w, -, rfl⟩ | ⟨f, hf, -⟩
      · apply hkeeps
        simp [Environment.contains_set]
      · cases hv.symm.trans hf

/-- A run never unbinds a name, and leaves what its program does not assign to as it was. The names
that it leaves bound are those that were and those of the assignments that it carried out. -/
theorem runs_bind_what_they_assign (hr : s.RunsTo e h) :
    (∀ x, e.contains x → h.environment.contains x) ∧
      (∀ x, x ∉ s.targets →
        h.environment.contains x = e.contains x ∧ h.environment.get x = e.get x) ∧
      ∀ x, h.environment.contains x ↔ e.contains x ∨ s.Assigns e x :=
  ⟨fun _ => hr.keeps_bound, fun _ => hr.keeps_others, fun _ => hr.contains_iff⟩

theorem bound_up_to_the_fault :
    let s : Statement := .compound
      (.whileDo (.relation "<" (.var "x") (.int 2)) (.assign "x" (.operation "+" (.var "x") (.int 1))))
      (.compound (.assign "z" (.operation "/" (.var "x") (.var "y"))) (.assign "w" (.int 0)))
    let e := Environment.ofList [("w", 4)]
    let h : Halt := ⟨.ofList [("w", 4), ("x", 2)], some .divisionByZero⟩
    s.RunsTo e h ∧ s.Assigns e "x" ∧ ¬ s.Assigns e "z" ∧ h.environment.get "y" = e.get "y" ∧
      h.environment.contains "w" := by
  intro s e h
  have hr : s.RunsTo e h := ⟨3, by decide +kernel⟩
  obtain ⟨keeps, others, bound⟩ := runs_bind_what_they_assign hr
  refine ⟨hr, ?_, ?_, (others "y" (by decide)).2, keeps "w" (by decide +kernel)⟩
  · exact ((bound "x").1 (by decide +kernel)).resolve_left (by decide +kernel)
  · intro hz
    have hbound : h.environment.contains "z" := (bound "z").2 (Or.inr hz)
    exact absurd hbound (by decide +kernel)

end ImpLang
