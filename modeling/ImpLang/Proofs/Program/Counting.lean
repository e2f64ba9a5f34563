import ImpLang.Proofs.Program.Arithmetic
import ImpLang.Proofs.Program.Course
import ImpLang.Proofs.Program.Effects
import Mathlib.Data.Option.Basic

/-! Counted loops as loops that count. A loop with a count does what a loop does that counts in a
variable from 0 and tests it against the count, where the body neither reads nor assigns to the
variable. The two runs are followed turn by turn: the variables agree but for the one that counts,
which shows how many turns are left. -/

namespace ImpLang

open Statement

/-- The variable is below the number. -/
def Condition.lessThan (i : String) (n : Int64) : Condition := .relation "<" (.var i) (.int n)

namespace Statement

/-- Adds 1 to the variable. -/
def increment (i : String) : Statement := .assign i (.operation "+" (.var i) (.int 1))

/-- A loop that counts in a variable while it is below a number. -/
def countOn (i : String) (n : Int64) (b : Statement) : Statement :=
  .whileDo (.lessThan i n) (.compound b (increment i))

/-- A loop that counts in a variable from 0 up to a number. -/
def countTo (i : String) (n : Int64) (b : Statement) : Statement :=
  .compound (.assign i (.int 0)) (countOn i n b)

end Statement

/-- The environments bind the same names to the same values, but for one name. -/
structure Environment.AlikeBut (i : String) (e e' : Environment) : Prop where
  contains : ∀ x, x ≠ i → e.contains x = e'.contains x
  get : ∀ x, x ≠ i → e.get x = e'.get x

variable {i : String} {n : Int64} {s t b p : Statement} {e e' : Environment} {h h' : Halt}

namespace Environment.AlikeBut

theorem refl (i : String) (e : Environment) : AlikeBut i e e := ⟨fun _ _ => rfl, fun _ _ => rfl⟩

theorem set_right (h : AlikeBut i e e') (v : Int64) : AlikeBut i e (e'.set i v) := by
  constructor
  · intro x hx
    simp [contains_set, h.contains x hx, hx.symm]
  · intro x hx
    simp [get_set, h.get x hx, hx.symm]

theorem setAll (h : AlikeBut i e e') (ws : List (String × Int64)) :
    AlikeBut i (e.setAll ws) (e'.setAll ws) := by
  have hat (x : String) (hx : x ≠ i) : AgreesAt x (e.setAll ws) (e'.setAll ws) :=
    AgreesAt.setAll ⟨h.contains x hx, h.get x hx⟩ ws
  exact ⟨fun x hx => (hat x hx).1, fun x hx => (hat x hx).2⟩

theorem agreesOn (h : AlikeBut i e e') {names : List String} (hi : i ∉ names) :
    AgreesOn names e e' := by
  intro x hx
  apply h.get
  rintro rfl
  exact hi hx

end Environment.AlikeBut

open Environment

/-! Runs followed side by side. -/

/-- Both are cut short, or both end with the same fault or none, in environments so related. -/
def EndAlike (R : Environment → Environment → Prop) : Option Halt → Option Halt → Prop :=
  Option.Rel fun h h' => h.fault? = h'.fault? ∧ R h.environment h'.environment

theorem EndAlike.andThen {R S : Environment → Environment → Prop} {o o' : Option Halt}
    {next next' : Environment → Option Halt} (ho : EndAlike R o o') (hS : ∀ e e', R e e' → S e e')
    (hnext : ∀ e e', R e e' → EndAlike S (next e) (next' e')) :
    EndAlike S (Halt.andThen o next) (Halt.andThen o' next') := by
  cases ho with
  | none => exact .none
  | @some h h' hh =>
    obtain ⟨e, f⟩ := h
    obtain ⟨e', f'⟩ := h'
    obtain ⟨rfl, he⟩ := hh
    cases f with
    | none => exact hnext e e' he
    | some f => exact .some ⟨rfl, hS e e' he⟩

theorem EndAlike.of_left {R : Environment → Environment → Prop} {o : Option Halt}
    (ha : EndAlike R (some h) o) :
    ∃ h', o = some h' ∧ h.fault? = h'.fault? ∧ R h.environment h'.environment := by
  cases ha with
  | some hh => exact ⟨_, rfl, hh⟩

theorem EndAlike.of_right {R : Environment → Environment → Prop} {o : Option Halt}
    (ha : EndAlike R o (some h')) :
    ∃ h, o = some h ∧ h.fault? = h'.fault? ∧ R h.environment h'.environment := by
  cases ha with
  | some hh => exact ⟨_, rfl, hh⟩

/-- Statements whose runs end alike within all large bounds come to the same. -/
theorem EndAlike.runsTo {R : Environment → Environment → Prop} {bound : Nat}
    (ha : ∀ r, bound ≤ r → EndAlike R (s.exec r e) (t.exec r e')) :
    (∀ h, s.RunsTo e h →
        ∃ h', t.RunsTo e' h' ∧ h.fault? = h'.fault? ∧ R h.environment h'.environment) ∧
      ∀ h', t.RunsTo e' h' →
        ∃ h, s.RunsTo e h ∧ h.fault? = h'.fault? ∧ R h.environment h'.environment := by
  constructor
  · intro h hs
    obtain ⟨r, hr, hs⟩ := hs.within_large bound
    obtain ⟨h', ht, hh⟩ := (hs ▸ ha r hr).of_left
    exact ⟨h', ⟨r, ht⟩, hh⟩
  · intro h' ht
    obtain ⟨r, hr, ht⟩ := ht.within_large bound
    obtain ⟨h, hs, hh⟩ := (ht ▸ ha r hr).of_right
    exact ⟨h, ⟨r, hs⟩, hh⟩

/-- A program that knows nothing of a name runs alike whatever the name holds, and leaves it. -/
theorem Statement.exec_endAlike (hreads : i ∉ b.reads) (htargets : i ∉ b.targets)
    (h : AlikeBut i e e') (r : Nat) :
    EndAlike (fun f f' => AlikeBut i f f' ∧ f'.get i = e'.get i) (b.exec r e) (b.exec r e') := by
  have hleft (h' : Halt) (hr : b.exec r e' = some h') : h'.environment.get i = e'.get i :=
    (RunsTo.keeps_others ⟨r, hr⟩ htargets).2
  rw [exec_eq_halt?, course_agreesOn r (h.agreesOn hreads), exec_eq_halt?]
  rw [exec_eq_halt?] at hleft
  generalize b.course r e' = c at hleft
  obtain ⟨ws, stop⟩ := c
  cases stop with
  | cutShort => exact .none
  | finished | faulted f => exact .some ⟨rfl, h.setAll ws, hleft _ rfl⟩

/-! One turn of the loop that counts. -/

theorem Condition.eval_lessThan (i : String) (n : Int64) (e : Environment) :
    (lessThan i n).eval e = .ok (decide ((e.get i).toInt < n.toInt)) := rfl

theorem Condition.eval_lessThan_true :
    (lessThan i n).eval e = .ok true ↔ (e.get i).toInt < n.toInt := by
  simp [eval_lessThan]

/-- Below some number there is room for one more. -/
theorem eval_increment (hlt : (e.get i).toInt < n.toInt) :
    ∃ v : Int64, v.toInt = (e.get i).toInt + 1 ∧
      Arith.eval e (.operation "+" (.var i) (.int 1)) = .ok v := by
  have hchecked := Arith.eval_checked e (.operation "+" (.var i) (.int 1))
  have hsound : Application.Sound ⟨"+", (e.get i).toInt, 1⟩ := by
    refine ⟨by simp [Application.operators], by simp, ?_⟩
    have hlow := (fitsWord_toInt (e.get i)).1
    have hhigh := (fitsWord_toInt n).2
    show FitsWord ((e.get i).toInt + 1)
    constructor <;> omega
  obtain ⟨v, hv⟩ := hchecked.ok_iff.2 fun c hc => by
    rw [List.mem_singleton.1 hc]
    exact hsound
  exact ⟨v, hchecked.good v hv, hv⟩

theorem exec_increment (hlt : (e.get i).toInt < n.toInt) :
    ∃ v : Int64, v.toInt = (e.get i).toInt + 1 ∧
      ∀ r, (increment i).exec r e = some ⟨e.set i v, none⟩ := by
  obtain ⟨v, hv, heval⟩ := eval_increment hlt
  refine ⟨v, hv, fun r => ?_⟩
  simp only [increment, exec, heval]

/-- With so many turns left as the counter is below the number, copies of the body end like the loop
that counts on. -/
theorem countedLoop_endAlike (hreads : i ∉ b.reads) (htargets : i ∉ b.targets) (r : Nat) {k m : Nat}
    (hleft : (n.toInt - (e'.get i).toInt).toNat = k) (hm : k < m) (h : AlikeBut i e e') :
    EndAlike (AlikeBut i) (countedLoop (b.exec r) k e)
      (whileLoop (fun e => (Condition.lessThan i n).eval e)
        ((compound b (increment i)).exec r) m e') := by
  induction k generalizing e e' m with
  | zero =>
    obtain ⟨m, rfl⟩ : ∃ m', m = m' + 1 := ⟨m - 1, by omega⟩
    have hdone : ¬ (e'.get i).toInt < n.toInt := by omega
    simp only [whileLoop, Condition.eval_lessThan, hdone, decide_false]
    exact .some ⟨rfl, h⟩
  | succ k ih =>
    obtain ⟨m, rfl⟩ : ∃ m', m = m' + 1 := ⟨m - 1, by omega⟩
    have hlt : (e'.get i).toInt < n.toInt := by omega
    rw [whileLoop_of_true (Condition.eval_lessThan_true.2 hlt), exec_compound, Halt.andThen_assoc]
    -- the body runs alike on both sides, and then the counter moves on by one
    apply (exec_endAlike hreads htargets h r).andThen
    · exact fun _ _ hh => hh.1
    · rintro e₁ e₁' ⟨hh, hcounter⟩
      obtain ⟨v, hv, hstep⟩ := exec_increment (hcounter ▸ hlt)
      rw [hstep]
      apply ih _ (by omega) (hh.set_right v)
      rw [Environment.get_set, if_pos rfl, hv, hcounter]
      omega

/-! Whole runs. -/

theorem exec_countTo (i : String) (n : Int64) (b : Statement) (r : Nat) (e : Environment) :
    (countTo i n b).exec r e = (countOn i n b).exec r (e.set i 0) := rfl

theorem counter_zero (i : String) (e : Environment) : ((e.set i 0).get i).toInt = 0 := by
  rw [Environment.get_set, if_pos rfl]
  rfl

theorem repeatTimes_endAlike (hreads : i ∉ b.reads) (htargets : i ∉ b.targets) (n : Int64)
    (e : Environment) {r : Nat} (hr : n.toInt.toNat < r) :
    EndAlike (AlikeBut i) ((repeatTimes n b).exec r e) ((countTo i n b).exec r e) := by
  rw [exec_countTo]
  apply countedLoop_endAlike hreads htargets r _ hr ((AlikeBut.refl i e).set_right 0)
  rw [counter_zero, Int.sub_zero]

/-- Outside its turns, a loop that counts comes to nothing but statements that set the counter. -/
theorem comesTo_of_countTo (hc : (countTo i n b).ComesTo e p e') :
    (i ∈ p.targets ∧ p ≠ increment i) ∨
      ∃ e₁, Relation.ReflTransGen (Turn (.lessThan i n) (compound b (increment i))) (e.set i 0) e₁ ∧
        (e₁.get i).toInt < n.toInt ∧ (compound b (increment i)).ComesTo e₁ p e' := by
  rcases hc.cases with ⟨rfl, -⟩ | ⟨t, e₁, he, hrest⟩
  · exact Or.inl ⟨by simp [countTo, targets], by simp [countTo, increment]⟩
  cases he with
  | first =>
    obtain ⟨rfl, -⟩ := comesTo_assign hrest
    exact Or.inl ⟨by simp [targets], by simp [increment]⟩
  | second before =>
    rcases runsTo_assign.1 before with ⟨v, hv, hset⟩ | ⟨f, hf, -⟩
    · cases hv
      cases hset
      rcases hrest.cases with ⟨rfl, -⟩ | ⟨t, e₂, he, hturn⟩
      · exact Or.inl ⟨by simp [countOn, increment, targets], by simp [countOn, increment]⟩
      · cases he with
        | turn before test => exact Or.inr ⟨e₂, before, Condition.eval_lessThan_true.1 test, hturn⟩
    · cases hf

/-- The counter is below the number wherever it is incremented. -/
theorem counter_below (htargets : i ∉ b.targets)
    (hc : (countTo i n b).ComesTo e (increment i) e') : (e'.get i).toInt < n.toInt := by
  rcases comesTo_of_countTo hc with ⟨-, hne⟩ | ⟨e₁, -, hlt, hturn⟩
  · exact absurd rfl hne
  rcases hturn.cases with ⟨heq, -⟩ | ⟨t, e₂, he, hrest⟩
  · cases heq
  cases he with
  | first => exact absurd (hrest.targets_subset (List.mem_singleton.2 rfl)) htargets
  | second before =>
    obtain ⟨-, rfl⟩ := comesTo_assign hrest
    rw [(before.keeps_others htargets).2]
    exact hlt

/-- A count that is not positive leaves all as it is, and a loop that counts sets its counter only. -/
theorem runsTo_of_nonpos (b : Statement) (hn : n.toInt ≤ 0) (e : Environment) :
    (repeatTimes n b).RunsTo e ⟨e, none⟩ ∧ (countTo i n b).RunsTo e ⟨e.set i 0, none⟩ := by
  constructor
  · rw [runsTo_repeatTimes, Int.toNat_of_nonpos hn]
    exact .done
  · have htest : (Condition.lessThan i n).eval (e.set i 0) = .ok false := by
      rw [Condition.eval_lessThan, counter_zero, decide_eq_false (Int.not_lt.2 hn)]
    exact runsTo_compound.2 (Or.inr ⟨e.set i 0, ⟨0, rfl⟩, (Exits.done htest).runsTo⟩)

theorem no_copy_of_nonpos (hn : n.toInt ≤ 0) : ¬ (repeatTimes n b).ComesTo e b e' := by
  intro hc
  rcases hc.cases with ⟨heq, -⟩ | ⟨t, e₁, he, -⟩
  · cases heq
  · cases he with
    | copy within => omega

theorem no_turn_of_nonpos (htargets : i ∉ b.targets) (hn : n.toInt ≤ 0) :
    ¬ (countTo i n b).ComesTo e b e' := by
  intro hc
  rcases comesTo_of_countTo hc with ⟨hi, -⟩ | ⟨e₁, hturns, hlt, -⟩
  · exact htargets hi
  · rcases hturns.cases_head with rfl | ⟨e₂, ht, -⟩
    · rw [counter_zero] at hlt
      omega
    · have hpos := Condition.eval_lessThan_true.1 ht.1
      rw [counter_zero] at hpos
      omega

/-- A loop with a count comes to the same as one that counts in a variable which the body does not
know: neither ends, or both end with the same fault or none, and with the same variables but for that
one. The counter never overflows, and a count that is not positive runs the body in neither. -/
theorem repeat_as_counting {i : String} {b : Statement} (hreads : i ∉ b.reads)
    (htargets : i ∉ b.targets) (n : Int64) (e : Environment) :
    (∀ h, (repeatTimes n b).RunsTo e h → ∃ h', (countTo i n b).RunsTo e h' ∧
        h.fault? = h'.fault? ∧ AlikeBut i h.environment h'.environment) ∧
      (∀ h', (countTo i n b).RunsTo e h' → ∃ h, (repeatTimes n b).RunsTo e h ∧
        h.fault? = h'.fault? ∧ AlikeBut i h.environment h'.environment) ∧
      (∀ e', (countTo i n b).ComesTo e (increment i) e' →
        ∃ v, Arith.eval e' (.operation "+" (.var i) (.int 1)) = .ok v) ∧
      (n.toInt ≤ 0 → (repeatTimes n b).RunsTo e ⟨e, none⟩ ∧
        (countTo i n b).RunsTo e ⟨e.set i 0, none⟩ ∧
        ∀ e', ¬ (repeatTimes n b).ComesTo e b e' ∧ ¬ (countTo i n b).ComesTo e b e') := by
  obtain ⟨hto, hfrom⟩ := EndAlike.runsTo fun r => repeatTimes_endAlike hreads htargets n e
  refine ⟨hto, hfrom, ?_, ?_⟩
  · intro e' hc
    obtain ⟨v, -, hv⟩ := eval_increment (counter_below htargets hc)
    exact ⟨v, hv⟩
  · intro hn
    obtain ⟨hrepeat, hcount⟩ := runsTo_of_nonpos (i := i) b hn e
    exact ⟨hrepeat, hcount, fun e' => ⟨no_copy_of_nonpos hn, no_turn_of_nonpos htargets hn⟩⟩

theorem fault_in_third_turn :
    let b : Statement := .compound
      (.assign "y" (.operation "/" (.int 6) (.operation "-" (.int 2) (.var "x"))))
      (.assign "x" (.operation "+" (.var "x") (.int 1)))
    "i" ∉ b.reads ∧ "i" ∉ b.targets ∧ ∃ h, (countTo "i" Int64.maxValue b).RunsTo {} h ∧
      h.fault? = some .divisionByZero ∧ h.environment.get "y" = 6 := by
  intro b
  have hreads : "i" ∉ b.reads := by decide
  have htargets : "i" ∉ b.targets := by decide
  have hruns : (repeatTimes Int64.maxValue b).RunsTo {}
      ⟨.ofList [("y", 6), ("x", 2)], some .divisionByZero⟩ := ⟨0, by decide +kernel⟩
  obtain ⟨h, hh, hf, ha⟩ := (repeat_as_counting hreads htargets Int64.maxValue {}).1 _ hruns
  refine ⟨hreads, htargets, h, hh, hf.symm, ?_⟩
  rw [← ha.get "y" (by decide)]
  decide +kernel

end ImpLang
