import ImpLang.Program.Eval

/-! What arithmetic comes to. An expression has a value over all integers, whatever the range of a
word. Evaluation gives this value if every operator in the expression has a result there that fits a
word; else it gives the fault of the first operator that has none, where the operators inside the
operands come before their own, and those on the left before those on the right. -/

namespace ImpLang

/-! Computations that make checks, one after another. -/

section Checks

variable {ι α β : Type} {passes p : ι → Prop} {fails : ι → Fault → Prop} {c : ι} {cs ds : List ι}
  {good : α → Prop} {fine : β → Prop} {x : Except Fault α} {g : α → Except Fault β} {f : Fault}

/-- Some check on the list fails, and all those before it pass. -/
def FirstFails (passes p : ι → Prop) (checks : List ι) : Prop :=
  ∃ before check after, checks = before ++ check :: after ∧ (∀ c ∈ before, passes c) ∧ p check

theorem firstFails_nil : ¬ FirstFails passes p [] := by
  simp [FirstFails]

theorem firstFails_cons :
    FirstFails passes p (c :: cs) ↔ p c ∨ passes c ∧ FirstFails passes p cs := by
  constructor
  · rintro ⟨before, check, after, heq, hbefore, hcheck⟩
    cases before with
    | nil =>
      obtain ⟨rfl, -⟩ := List.cons.inj heq
      exact Or.inl hcheck
    | cons b before =>
      obtain ⟨rfl, rfl⟩ := List.cons.inj heq
      obtain ⟨hc, hbefore⟩ := List.forall_mem_cons.1 hbefore
      exact Or.inr ⟨hc, before, check, after, rfl, hbefore, hcheck⟩
  · rintro (hc | ⟨hc, before, check, after, rfl, hbefore, hcheck⟩)
    · exact ⟨[], c, cs, rfl, List.forall_mem_nil _, hc⟩
    · exact ⟨c :: before, check, after, rfl, List.forall_mem_cons.2 ⟨hc, hbefore⟩, hcheck⟩

theorem firstFails_append : FirstFails passes p (cs ++ ds) ↔
    FirstFails passes p cs ∨ (∀ c ∈ cs, passes c) ∧ FirstFails passes p ds := by
  induction cs with
  | nil => simp [firstFails_nil]
  | cons c cs ih =>
    rw [List.cons_append, firstFails_cons, firstFails_cons, ih, List.forall_mem_cons, and_or_left,
      or_assoc, and_assoc]

theorem bind_eq_ok {y : β} : (x >>= g) = .ok y ↔ ∃ v, x = .ok v ∧ g v = .ok y := by
  cases x <;> simp [bind, Except.bind]

theorem bind_eq_error :
    (x >>= g) = .error f ↔ x = .error f ∨ ∃ v, x = .ok v ∧ g v = .error f := by
  cases x <;> simp [bind, Except.bind]

/-- The computation makes the checks in this order. It comes to a value, and to a good one, if all of
them pass; else it comes to the fault of the first that fails. -/
structure Checked (passes : ι → Prop) (fails : ι → Fault → Prop) (checks : List ι)
    (good : α → Prop) (x : Except Fault α) : Prop where
  ok_iff : (∃ v, x = .ok v) ↔ ∀ c ∈ checks, passes c
  good : ∀ v, x = .ok v → good v
  error_iff : ∀ f, x = .error f ↔ FirstFails passes (fails · f) checks

namespace Checked

theorem ok {v : α} (hv : good v) : Checked passes fails [] good (.ok v) := by
  constructor
  · simp
  · rintro _ ⟨⟩
    exact hv
  · simp [firstFails_nil]

/-- A single check, where what fails does not pass and fails in one way. -/
theorem single
    (hx : (∃ v, x = .ok v ∧ passes c ∧ good v) ∨ ∃ f, x = .error f ∧ fails c f)
    (hpass : ∀ f, fails c f → ¬ passes c) (huniq : ∀ f f', fails c f → fails c f' → f = f') :
    Checked passes fails [c] good x := by
  obtain ⟨v, rfl, hc, hv⟩ | ⟨f, rfl, hc⟩ := hx
  · refine ⟨by simpa using hc, ?_, fun f => ?_⟩
    · rintro _ ⟨⟩
      exact hv
    · simp only [firstFails_cons, firstFails_nil, and_false, or_false, reduceCtorEq, false_iff]
      exact fun hf => hpass f hf hc
  · refine ⟨by simpa using hpass f hc, by simp, fun f' => ?_⟩
    simp only [firstFails_cons, firstFails_nil, and_false, or_false, Except.error.injEq]
    constructor
    · rintro rfl
      exact hc
    · exact huniq f f' hc

/-- One computation after another makes the checks of both. -/
theorem bind (hx : Checked passes fails cs good x)
    (hg : ∀ v, good v → Checked passes fails ds fine (g v)) :
    Checked passes fails (cs ++ ds) fine (x >>= g) := by
  refine ⟨?_, fun y hy => ?_, fun f => ?_⟩
  · rw [List.forall_mem_append, ← hx.ok_iff]
    constructor
    · rintro ⟨y, hy⟩
      obtain ⟨v, hv, hy⟩ := bind_eq_ok.1 hy
      exact ⟨⟨v, hv⟩, (hg v (hx.good v hv)).ok_iff.1 ⟨y, hy⟩⟩
    · rintro ⟨⟨v, hv⟩, hds⟩
      obtain ⟨y, hy⟩ := (hg v (hx.good v hv)).ok_iff.2 hds
      exact ⟨y, bind_eq_ok.2 ⟨v, hv, hy⟩⟩
  · obtain ⟨v, hv, hy⟩ := bind_eq_ok.1 hy
    exact (hg v (hx.good v hv)).good y hy
  · rw [bind_eq_error, firstFails_append, ← hx.error_iff, ← hx.ok_iff]
    apply or_congr_right
    constructor
    · rintro ⟨v, hv, hf⟩
      exact ⟨⟨v, hv⟩, ((hg v (hx.good v hv)).error_iff f).1 hf⟩
    · rintro ⟨⟨v, hv⟩, hf⟩
      exact ⟨v, hv, ((hg v (hx.good v hv)).error_iff f).2 hf⟩

theorem map (hx : Checked passes fails cs good x) {k : α → β} (hk : ∀ v, good v → fine (k v)) :
    Checked passes fails cs fine (x >>= fun v => pure (k v)) := by
  rw [← List.append_nil cs]
  exact hx.bind fun v hv => ok (hk v hv)

end Checked

end Checks

/-! Operators on integers. -/

/-- An operator with the values of its operands. -/
structure Application where
  operator : String
  left : Int
  right : Int

namespace Application

def operators : List String := ["+", "-", "*", "/"]

/-- The result over all integers; division drops the fraction. Where there is none, it is 0. -/
def result : Application → Int
  | ⟨"+", m, n⟩ => m + n
  | ⟨"-", m, n⟩ => m - n
  | ⟨"*", m, n⟩ => m * n
  | ⟨"/", m, n⟩ => m.tdiv n
  | _ => 0

/-- There is a result, and it fits a word. -/
structure Sound (a : Application) : Prop where
  known : a.operator ∈ operators
  divisible : a.operator = "/" → a.right ≠ 0
  fits : FitsWord a.result

inductive Fails : Application → Fault → Prop where
  | unknown {a : Application} (unknown : a.operator ∉ operators) :
      Fails a (.unknownOperator a.operator)
  | divided {a : Application} (divides : a.operator = "/") (zero : a.right = 0) :
      Fails a .divisionByZero
  | overflows {a : Application} {l r : Int64} (known : a.operator ∈ operators)
      (divisible : a.operator = "/" → a.right ≠ 0) (exceeds : ¬ FitsWord a.result)
      (left : l.toInt = a.left) (right : r.toInt = a.right) : Fails a (.overflow a.operator l r)

theorem Fails.not_sound {a : Application} {f : Fault} (h : a.Fails f) : ¬ a.Sound := by
  intro hs
  cases h with
  | unknown unknown => exact unknown hs.known
  | divided divides zero => exact hs.divisible divides zero
  | overflows known divisible exceeds left right => exact exceeds hs.fits

theorem Fails.unique {a : Application} {f f' : Fault} (h : a.Fails f) (h' : a.Fails f') :
    f = f' := by
  have hknown (hd : a.operator = "/") : a.operator ∈ operators := by
    rw [hd]
    decide
  cases h with
  | unknown unknown =>
    cases h' with
    | unknown => rfl
    | divided divides => exact absurd (hknown divides) unknown
    | overflows known => exact absurd known unknown
  | divided divides zero =>
    cases h' with
    | unknown unknown => exact absurd (hknown divides) unknown
    | divided => rfl
    | overflows known divisible => exact absurd zero (divisible divides)
  | overflows known divisible exceeds left right =>
    cases h' with
    | unknown unknown => exact absurd known unknown
    | divided divides zero => exact absurd zero (divisible divides)
    | overflows known divisible exceeds left' right' =>
      rw [Int64.toInt_inj.1 (left.trans left'.symm), Int64.toInt_inj.1 (right.trans right'.symm)]

end Application

open Application

theorem Operation.ofSymbol?_eq_none {o : String} : ofSymbol? o = none ↔ o ∉ operators := by
  unfold ofSymbol?
  split <;> simp_all [operators]

theorem Operation.of_symbol {o : String} {op : Operation} (h : ofSymbol? o = some op) :
    o ∈ operators ∧ (op = .divide ↔ o = "/") ∧ ∀ m n, op.exact m n = result ⟨o, m, n⟩ := by
  unfold ofSymbol? at h
  split at h
  all_goals cases h
  all_goals exact ⟨by decide, by decide, fun _ _ => rfl⟩

theorem operate_checked (o : String) (l r : Int64) :
    Checked Sound Fails [⟨o, l.toInt, r.toInt⟩] (fun v => v.toInt = result ⟨o, l.toInt, r.toInt⟩)
      (operate o l r) := by
  apply Checked.single _ (fun _ => Fails.not_sound) (fun _ _ => Fails.unique)
  unfold operate
  cases hop : Operation.ofSymbol? o with
  | none => exact Or.inr ⟨_, rfl, .unknown (Operation.ofSymbol?_eq_none.1 hop)⟩
  | some op =>
    obtain ⟨known, divides_iff, hexact⟩ := Operation.of_symbol hop
    dsimp only
    split
    · rename_i hzero
      exact Or.inr ⟨_, rfl, .divided (divides_iff.1 hzero.1) (by rw [hzero.2]; rfl)⟩
    · rename_i hzero
      have divisible (hd : o = "/") : r.toInt ≠ 0 := fun hr =>
        hzero ⟨divides_iff.2 hd, Int64.toInt_inj.1 hr⟩
      cases hw : word? (op.exact l.toInt r.toInt) with
      | some v =>
        have hv : v.toInt = result ⟨o, l.toInt, r.toInt⟩ := (word?_eq_some_iff.1 hw).trans (hexact _ _)
        exact Or.inl ⟨v, rfl, ⟨known, divisible, hv ▸ fitsWord_toInt v⟩, hv⟩
      | none =>
        rw [word?_eq_none_iff, hexact] at hw
        exact Or.inr ⟨_, rfl, .overflows known divisible hw rfl rfl⟩

/-! Expressions. -/

namespace Arith

/-- The value over all integers. -/
def value (e : Environment) : Arith → Int
  | int n => n.toInt
  | var x => (e.get x).toInt
  | operation o l r => result ⟨o, l.value e, r.value e⟩

/-- The operators in an expression, each behind those inside its operands. -/
def applications (e : Environment) : Arith → List Application
  | int _ | var _ => []
  | operation o l r => l.applications e ++ (r.applications e ++ [⟨o, l.value e, r.value e⟩])

theorem eval_checked (e : Environment) (a : Arith) :
    Checked Sound Fails (a.applications e) (fun v => v.toInt = a.value e) (a.eval e) := by
  induction a with
  | int n => exact Checked.ok rfl
  | var x => exact Checked.ok rfl
  | operation o l r ihl ihr =>
    apply ihl.bind
    intro m hm
    apply ihr.bind
    intro n hn
    -- words that evaluation came to are the exact values of the operands
    rw [value, ← hm, ← hn]
    exact operate_checked o m n

end Arith

/-- Arithmetic is exact or says why it is not. There is a value if every operator has a result that
fits a word, and it is the value over all integers. Else there is a fault, which is that of the first
operator without such a result. -/
theorem arithmetic_exact (e : Environment) (a : Arith) :
    ((∃ v, a.eval e = .ok v) ↔ ∀ x ∈ a.applications e, x.Sound) ∧
      (∀ v, a.eval e = .ok v → v.toInt = a.value e) ∧
      ∀ f, a.eval e = .error f ↔ FirstFails Sound (Fails · f) (a.applications e) := by
  have h := Arith.eval_checked e a
  exact ⟨h.ok_iff, h.good, h.error_iff⟩

-- the least word has no counterpart above, and by 0 it is not divided either
example (e : Environment) : Arith.eval e (.operation "/" (.int Int64.minValue) (.int (-1))) =
    .error (.overflow "/" Int64.minValue (-1)) :=
  rfl

example (e : Environment) :
    Arith.eval e (.operation "/" (.int Int64.minValue) (.int 0)) = .error .divisionByZero :=
  rfl

end ImpLang
