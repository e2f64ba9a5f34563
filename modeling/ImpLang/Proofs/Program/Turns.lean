import ImpLang.Proofs.Program.Outcome
import Mathlib.Data.List.Chain

/-! Loops by their turns. A loop that ends has made some number of whole turns, and was then left in
one of three ways: its test was false, its test had a fault, or its body had one. The turns are the
only ones from where the loop began, so what each of them keeps, the loop keeps. -/

namespace ImpLang

open Statement

section Rules

variable (b : Condition) (s : Statement)

/-- A whole turn of the loop: the test is true, and the body runs to its end. -/
def Turn (e e' : Environment) : Prop := b.eval e = .ok true ∧ s.RunsTo e ⟨e', none⟩

/-- Where the loop comes to when it is left instead of making a whole turn. -/
inductive Exits : Environment → Halt → Prop
  | done {e : Environment} (test : b.eval e = .ok false) : Exits e ⟨e, none⟩
  | testFaults {e : Environment} {f : Fault} (test : b.eval e = .error f) : Exits e ⟨e, some f⟩
  | bodyFaults {e e' : Environment} {f : Fault} (test : b.eval e = .ok true)
      (body : s.RunsTo e ⟨e', some f⟩) : Exits e ⟨e', some f⟩

/-- From `e` one turn leads to each of the environments in order, and the loop is left in the last. -/
structure Turns (e : Environment) (es : List Environment) (h : Halt) : Prop where
  chain : List.IsChain (Turn b s) (e :: es)
  exits : Exits b s ((e :: es).getLast (List.cons_ne_nil e es)) h

end Rules

variable {b : Condition} {s : Statement} {e e' e'' : Environment} {es es' : List Environment}
  {h h' : Halt}

theorem Turn.unique (ht : Turn b s e e') (ht' : Turn b s e e'') : e' = e'' := by
  cases ht.2.unique ht'.2
  rfl

theorem Exits.not_turn (hx : Exits b s e h) : ¬ Turn b s e e' := by
  rintro ⟨htest, hbody⟩
  cases hx with
  | done test => cases test.symm.trans htest
  | testFaults test => cases test.symm.trans htest
  | bodyFaults test body => cases body.unique hbody

/-! One turn. -/

theorem Statement.runsTo_whileDo_of_true (hb : b.eval e = .ok true) :
    (whileDo b s).RunsTo e h ↔ (compound s (whileDo b s)).RunsTo e h := by
  have hturn (n : Nat) : (whileDo b s).exec (n + 1) e =
      Halt.andThen (s.exec (n + 1) e) (whileLoop (fun e => b.eval e) (s.exec (n + 1)) n) :=
    whileLoop_of_true hb n
  constructor
  · rintro ⟨_ | n, hn⟩
    · cases hn
    rw [hturn, Halt.andThen_eq_some] at hn
    rw [runsTo_compound]
    rcases hn with ⟨hs, hf⟩ | ⟨e', hs, hmore⟩
    · exact Or.inl ⟨⟨n + 1, hs⟩, hf⟩
    · exact Or.inr ⟨e', ⟨n + 1, hs⟩, n + 1, whileLoop_mono n.le_succ (fun _ _ hs => hs) hmore⟩
  · rintro ⟨n, hn⟩
    refine ⟨n + 1, ?_⟩
    rw [exec_compound, Halt.andThen_eq_some] at hn
    rw [hturn, Halt.andThen_eq_some]
    have hlarger {e : Environment} {h : Halt} (hs : s.exec n e = some h) :
        s.exec (n + 1) e = some h := exec_mono n.le_succ hs
    rcases hn with ⟨hs, hf⟩ | ⟨e', hs, hmore⟩
    · exact Or.inl ⟨hlarger hs, hf⟩
    · exact Or.inr ⟨e', hlarger hs, whileLoop_mono (le_refl n) (fun _ _ => hlarger) hmore⟩

theorem Turn.runsTo (ht : Turn b s e e') (hr : (whileDo b s).RunsTo e' h) :
    (whileDo b s).RunsTo e h :=
  (runsTo_whileDo_of_true ht.1).2 (runsTo_compound.2 (Or.inr ⟨e', ht.2, hr⟩))

theorem Exits.runsTo (hx : Exits b s e h) : (whileDo b s).RunsTo e h := by
  cases hx with
  | done test | testFaults test => exact ⟨1, by simp [exec, whileLoop, test]⟩
  | bodyFaults test body =>
    exact (runsTo_whileDo_of_true test).2 (runsTo_compound.2 (Or.inl ⟨body, by simp⟩))

/-- What holds where the loop is left, and before a turn when it holds behind it, holds of every
environment from which the loop ends. -/
theorem Statement.RunsTo.whileDo_induct {motive : Environment → Prop} (hr : (whileDo b s).RunsTo e h)
    (exits : ∀ e, Exits b s e h → motive e)
    (turn : ∀ e e', Turn b s e e' → (whileDo b s).RunsTo e' h → motive e' → motive e) :
    motive e := by
  obtain ⟨n, hn⟩ := hr
  -- by the turns that the loop may still make; its body keeps the bound of the whole run
  have hloop (m : Nat) : ∀ e, m ≤ n → whileLoop (fun e => b.eval e) (s.exec n) m e = some h →
      motive e := by
    induction m with
    | zero =>
      intro e _ hm
      cases hm
    | succ m ih =>
      intro e hmn hm
      unfold whileLoop at hm
      rcases hb : b.eval e with f | _ | _ <;> rw [hb] at hm
      · cases hm
        exact exits e (.testFaults hb)
      · cases hm
        exact exits e (.done hb)
      · rcases Halt.andThen_eq_some.1 hm with ⟨hs, hf⟩ | ⟨e', hs, hmore⟩
        · obtain ⟨e', _ | f⟩ := h
          · exact absurd rfl hf
          · exact exits e (.bodyFaults hb ⟨n, hs⟩)
        · have hle : m ≤ n := Nat.le_of_succ_le hmn
          have hrest : (whileDo b s).RunsTo e' h := ⟨n, whileLoop_mono hle (fun _ _ hs => hs) hmore⟩
          exact turn e e' ⟨hb, n, hs⟩ hrest (ih e' hle hmore)
  exact hloop n e (le_refl n) hn

theorem Statement.runsTo_whileDo : (whileDo b s).RunsTo e h ↔
    Exits b s e h ∨ ∃ e', Turn b s e e' ∧ (whileDo b s).RunsTo e' h := by
  constructor
  · intro hr
    apply hr.whileDo_induct
    · intro e hx
      exact Or.inl hx
    · intro e e' ht hr _
      exact Or.inr ⟨e', ht, hr⟩
  · rintro (hx | ⟨e', ht, hr⟩)
    · exact hx.runsTo
    · exact ht.runsTo hr

/-! All turns. -/

namespace Turns

theorem last (hx : Exits b s e h) : Turns b s e [] h := ⟨.singleton e, hx⟩

theorem cons_iff : Turns b s e (e' :: es) h ↔ Turn b s e e' ∧ Turns b s e' es h := by
  constructor
  · rintro ⟨hchain, hx⟩
    obtain ⟨ht, hchain⟩ := List.isChain_cons_cons.1 hchain
    exact ⟨ht, hchain, by simpa using hx⟩
  · rintro ⟨ht, hchain, hx⟩
    exact ⟨List.isChain_cons_cons.2 ⟨ht, hchain⟩, by simpa using hx⟩

theorem runsTo (ht : Turns b s e es h) : (whileDo b s).RunsTo e h := by
  induction es generalizing e with
  | nil => exact Exits.runsTo ht.exits
  | cons e' es ih =>
    obtain ⟨ht, hmore⟩ := cons_iff.1 ht
    exact ht.runsTo (ih hmore)

theorem unique (ht : Turns b s e es h) (ht' : Turns b s e es' h') : es = es' := by
  induction es generalizing e es' with
  | nil =>
    cases es' with
    | nil => rfl
    | cons e' es' => exact absurd (cons_iff.1 ht').1 ht.exits.not_turn
  | cons e' es ih =>
    obtain ⟨ht, hmore⟩ := cons_iff.1 ht
    cases es' with
    | nil => exact absurd ht ht'.exits.not_turn
    | cons e'' es' =>
      obtain ⟨ht', hmore'⟩ := cons_iff.1 ht'
      cases ht.unique ht'
      rw [ih hmore hmore']

end Turns

theorem Statement.runsTo_iff_turns : (whileDo b s).RunsTo e h ↔ ∃ es, Turns b s e es h := by
  constructor
  · intro hr
    apply hr.whileDo_induct
    · intro e hx
      exact ⟨[], .last hx⟩
    · rintro e e' ht - ⟨es, hmore⟩
      exact ⟨e' :: es, Turns.cons_iff.2 ⟨ht, hmore⟩⟩
  · rintro ⟨es, ht⟩
    exact ht.runsTo

/-- What turns keep, the loop keeps; and where it ends without a fault, its test is false. -/
theorem Statement.RunsTo.keeps {P : Environment → Prop} (hr : (whileDo b s).RunsTo e ⟨e', none⟩)
    (hP : ∀ e e', P e → Turn b s e e' → P e') (he : P e) : P e' ∧ b.eval e' = .ok false := by
  revert he
  apply hr.whileDo_induct
  · intro e hx he
    cases hx with
    | done test => exact ⟨he, test⟩
  · intro e e₁ ht _ ih he
    exact ih (hP e e₁ he ht)

/-- A loop ends just when a number of whole turns leads to where it is left, and it ends as it is left
there. The number is one only, and so are the environments on the way. So what the body keeps while
the test is true still holds when the loop ends without a fault, and the test is then false. -/
theorem loop_runs_by_turns (b : Condition) (s : Statement) (e : Environment) :
    (∀ h, (whileDo b s).RunsTo e h ↔ ∃ es, Turns b s e es h) ∧
      (∀ es es' h h', Turns b s e es h → Turns b s e es' h' → es = es' ∧ h = h') ∧
      ∀ P : Environment → Prop,
        (∀ e e', P e → b.eval e = .ok true → s.RunsTo e ⟨e', none⟩ → P e') → P e →
          ∀ e', (whileDo b s).RunsTo e ⟨e', none⟩ → P e' ∧ b.eval e' = .ok false := by
  refine ⟨fun h => runsTo_iff_turns, ?_, ?_⟩
  · intro es es' h h' ht ht'
    exact ⟨ht.unique ht', ht.runsTo.unique ht'.runsTo⟩
  · intro P hP he e' hr
    exact hr.keeps (fun e e' he ht => hP e e' he ht.1 ht.2) he

theorem count_to_two_by_turns :
    let b : Condition := .relation "<" (.var "x") (.int 2)
    let s : Statement := .assign "x" (.operation "+" (.var "x") (.int 1))
    let e (n : Int64) := Environment.ofList [("x", n), ("y", 7)]
    Turns b s (e 0) [e 1, e 2] ⟨e 2, none⟩ ∧ (whileDo b s).RunsTo (e 0) ⟨e 2, none⟩ ∧
      (e 2).get "y" = 7 ∧ b.eval (e 2) = .ok false := by
  intro b s e
  have hfirst : Turn b s (e 0) (e 1) := ⟨by decide +kernel, 0, by decide +kernel⟩
  have hsecond : Turn b s (e 1) (e 2) := ⟨by decide +kernel, 0, by decide +kernel⟩
  have hexit : Exits b s (e 2) ⟨e 2, none⟩ := .done (by decide +kernel)
  have hturns : Turns b s (e 0) [e 1, e 2] ⟨e 2, none⟩ :=
    Turns.cons_iff.2 ⟨hfirst, Turns.cons_iff.2 ⟨hsecond, .last hexit⟩⟩
  obtain ⟨runs_iff, -, keeps⟩ := loop_runs_by_turns b s (e 0)
  have hruns := (runs_iff _).2 ⟨_, hturns⟩
  refine ⟨hturns, hruns, keeps (fun e => e.get "y" = 7) ?_ (by decide +kernel) _ hruns⟩
  intro e e' he _ hbody
  rcases runsTo_assign.1 hbody with ⟨v, -, hset⟩ | ⟨f, -, hf⟩
  · cases hset
    rw [Environment.get_set]
    exact he
  · cases hf

end ImpLang
