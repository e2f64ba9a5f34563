import ImpLang.Proofs.Program.Sequence

/-! What a run does: the assignments that it makes, in order, and how it stops. The variables that
it leaves are those it began with, updated by these assignments; and of the variables it began with
nothing matters but the values of the names that the program reads. A name that is not bound reads
like one bound to 0. -/

namespace ImpLang

/-- How a run stops: cut short by its bound, where the program ends, or at a fault. -/
inductive Stop where
  | cutShort
  | finished
  | faulted (fault : Fault)
  deriving DecidableEq

structure Course where
  writes : List (String × Int64) := []
  stop : Stop := .finished
  deriving DecidableEq

namespace Course

/-- Goes on from what the assignments make of the variables, if the program was at its end. -/
def andThen (c : Course) (e : Environment) (next : Environment → Course) : Course :=
  match c.stop with
  | .finished =>
    let d := next (e.setAll c.writes)
    ⟨c.writes ++ d.writes, d.stop⟩
  | _ => c

/-- Where a run with this course comes to a halt. -/
def halt? (c : Course) (e : Environment) : Option Halt :=
  match c.stop with
  | .cutShort => none
  | .finished => some ⟨e.setAll c.writes, none⟩
  | .faulted f => some ⟨e.setAll c.writes, some f⟩

end Course

def whileCourse (test : Environment → Except Fault Bool) (body : Environment → Course) :
    Nat → Environment → Course
  | 0, _ => { stop := .cutShort }
  | n + 1, e =>
    match test e with
    | .error f => { stop := .faulted f }
    | .ok false => {}
    | .ok true => (body e).andThen e (whileCourse test body n)

def countedCourse (body : Environment → Course) : Nat → Environment → Course
  | 0, _ => {}
  | k + 1, e => (body e).andThen e (countedCourse body k)

/-- The course of a statement's run with at most `n` turns in each `while` loop. -/
def Statement.course (n : Nat) : Statement → Environment → Course
  | assign x a, e =>
    match a.eval e with
    | .ok v => { writes := [(x, v)] }
    | .error f => { stop := .faulted f }
  | compound s t, e => (s.course n e).andThen e (t.course n)
  | ifThen b s, e =>
    match b.eval e with
    | .ok true => s.course n e
    | .ok false => {}
    | .error f => { stop := .faulted f }
  | ifThenElse b s t, e =>
    match b.eval e with
    | .ok true => s.course n e
    | .ok false => t.course n e
    | .error f => { stop := .faulted f }
  | whileDo b s, e => whileCourse (fun e => b.eval e) (s.course n) n e
  | repeatTimes k s, e => countedCourse (s.course n) k.toInt.toNat e

variable {e e' : Environment} {n : Nat}

/-! A run is its course. -/

theorem Course.halt?_andThen (c : Course) (e : Environment) (next : Environment → Course) :
    (c.andThen e next).halt? e = Halt.andThen (c.halt? e) fun e' => (next e').halt? e' := by
  obtain ⟨ws, stop⟩ := c
  cases stop with
  | cutShort | faulted f => rfl
  | finished =>
    simp only [andThen, halt?, Halt.andThen]
    cases (next (e.setAll ws)).stop <;> simp [Environment.setAll_append]

section Loops

variable {test : Environment → Except Fault Bool} {body : Environment → Option Halt}
  {bodyCourse : Environment → Course}

theorem whileLoop_eq_halt? (hb : ∀ e, body e = (bodyCourse e).halt? e) (n : Nat)
    (e : Environment) :
    whileLoop test body n e = (whileCourse test bodyCourse n e).halt? e := by
  induction n generalizing e with
  | zero => rfl
  | succ n ih =>
    unfold whileCourse
    cases ht : test e with
    | error f => simp [whileLoop, ht, Course.halt?, Environment.setAll]
    | ok b =>
      cases b with
      | false => simp [whileLoop, ht, Course.halt?, Environment.setAll]
      | true => rw [whileLoop_of_true ht, Course.halt?_andThen, hb, funext ih]

theorem countedLoop_eq_halt? (hb : ∀ e, body e = (bodyCourse e).halt? e) (k : Nat)
    (e : Environment) : countedLoop body k e = (countedCourse bodyCourse k e).halt? e := by
  induction k generalizing e with
  | zero => rfl
  | succ k ih =>
    have hloop : countedLoop body (k + 1) e = Halt.andThen (body e) (countedLoop body k) := rfl
    rw [hloop, countedCourse, Course.halt?_andThen, hb, funext ih]

end Loops

/-- A run leaves the variables it began with, updated by its assignments. -/
theorem Statement.exec_eq_halt? (n : Nat) (s : Statement) (e : Environment) :
    s.exec n e = (s.course n e).halt? e := by
  induction s generalizing e with
  | assign x a =>
    unfold exec course
    cases a.eval e <;> rfl
  | compound s t ihs iht =>
    rw [exec_compound, course, Course.halt?_andThen, ihs, funext iht]
  | ifThen b s ih =>
    unfold exec course
    rcases b.eval e with f | _ | _
    · rfl
    · rfl
    · exact ih e
  | ifThenElse b s t ihs iht =>
    unfold exec course
    rcases b.eval e with f | _ | _
    · rfl
    · exact iht e
    · exact ihs e
  | whileDo b s ih => exact whileLoop_eq_halt? ih n e
  | repeatTimes k s ih => exact countedLoop_eq_halt? ih k.toInt.toNat e

/-! More room continues a run that was cut short, and changes no other; so the assignments of a run
that never ends are those that its courses come to. -/

namespace Course

def Continues (c d : Course) : Prop := c = d ∨ c.stop = .cutShort ∧ c.writes <+: d.writes

variable {c d : Course} {next next' : Environment → Course}

theorem writes_andThen (c : Course) (e : Environment) (next : Environment → Course) :
    c.writes <+: (c.andThen e next).writes := by
  unfold andThen
  split
  · exact List.prefix_append _ _
  · exact List.prefix_refl _

theorem Continues.andThen (h : c.Continues d) (hn : ∀ e, (next e).Continues (next' e))
    (e : Environment) : (c.andThen e next).Continues (d.andThen e next') := by
  obtain rfl | ⟨hs, hw⟩ := h
  · obtain ⟨ws, stop⟩ := c
    cases stop with
    | cutShort | faulted f => exact Or.inl rfl
    | finished =>
      rcases hn (e.setAll ws) with heq | ⟨hs, hw⟩
      · exact Or.inl (by simp only [Course.andThen, heq])
      · exact Or.inr ⟨hs, (List.prefix_append_right_inj ws).2 hw⟩
  · have hc : c.andThen e next = c := by simp only [Course.andThen, hs]
    rw [hc]
    exact Or.inr ⟨hs, hw.trans (writes_andThen d e next')⟩

end Course

section Room

variable {body body' : Environment → Course} {m : Nat}

theorem whileCourse_continues {test : Environment → Except Fault Bool} (hn : n ≤ m)
    (hb : ∀ e, (body e).Continues (body' e)) (e : Environment) :
    (whileCourse test body n e).Continues (whileCourse test body' m e) := by
  induction n generalizing m e with
  | zero => exact Or.inr ⟨rfl, List.nil_prefix⟩
  | succ n ih =>
    obtain ⟨m, rfl⟩ : ∃ k, m = k + 1 := ⟨m - 1, by omega⟩
    unfold whileCourse
    rcases test e with f | _ | _
    · exact Or.inl rfl
    · exact Or.inl rfl
    · exact (hb e).andThen (fun e => ih (by omega) e) e

theorem countedCourse_continues (hb : ∀ e, (body e).Continues (body' e)) (k : Nat)
    (e : Environment) : (countedCourse body k e).Continues (countedCourse body' k e) := by
  induction k generalizing e with
  | zero => exact Or.inl rfl
  | succ k ih => exact (hb e).andThen ih e

theorem Statement.course_continues (hn : n ≤ m) (s : Statement) (e : Environment) :
    (s.course n e).Continues (s.course m e) := by
  induction s generalizing e with
  | assign x a => exact Or.inl rfl
  | compound s t ihs iht => exact (ihs e).andThen iht e
  | ifThen b s ih =>
    unfold course
    rcases b.eval e with f | _ | _
    · exact Or.inl rfl
    · exact Or.inl rfl
    · exact ih e
  | ifThenElse b s t ihs iht =>
    unfold course
    rcases b.eval e with f | _ | _
    · exact Or.inl rfl
    · exact iht e
    · exact ihs e
  | whileDo b s ih => exact whileCourse_continues hn ih e
  | repeatTimes k s ih => exact countedCourse_continues ih k.toInt.toNat e

end Room

/-! The names that are read, and environments that agree on them. -/

def Arith.reads : Arith → List String
  | int _ => []
  | var x => [x]
  | operation _ l r => l.reads ++ r.reads

def Condition.reads : Condition → List String
  | relation _ l r => l.reads ++ r.reads
  | and l r | or l r => l.reads ++ r.reads
  | not b => b.reads

/-- The names that the expressions of a program read; those it assigns to are not among them. -/
def Statement.reads : Statement → List String
  | assign _ a => a.reads
  | compound s t => s.reads ++ t.reads
  | ifThen b s | whileDo b s => b.reads ++ s.reads
  | ifThenElse b s t => b.reads ++ (s.reads ++ t.reads)
  | repeatTimes _ s => s.reads

namespace Environment

/-- The names read the same in both environments, bound or not. -/
def AgreesOn (names : List String) (e e' : Environment) : Prop := ∀ x ∈ names, e.get x = e'.get x

variable {names names' : List String}

theorem agreesOn_append :
    AgreesOn (names ++ names') e e' ↔ AgreesOn names e e' ∧ AgreesOn names' e e' := by
  simp [AgreesOn, or_imp, forall_and]

theorem AgreesOn.setAll (h : AgreesOn names e e') (ws : List (String × Int64)) :
    AgreesOn names (e.setAll ws) (e'.setAll ws) := by
  induction ws generalizing e e' with
  | nil => exact h
  | cons w ws ih =>
    apply ih
    intro x hx
    rw [get_set, get_set, h x hx]

/-- The name is bound in both environments to the same value, or in neither. -/
def AgreesAt (x : String) (e e' : Environment) : Prop :=
  e.contains x = e'.contains x ∧ e.get x = e'.get x

theorem AgreesAt.setAll {x : String} (h : AgreesAt x e e') (ws : List (String × Int64)) :
    AgreesAt x (e.setAll ws) (e'.setAll ws) := by
  induction ws generalizing e e' with
  | nil => exact h
  | cons w ws ih =>
    apply ih
    constructor
    · rw [contains_set, contains_set, h.1]
    · rw [get_set, get_set, h.2]

end Environment

open Environment

theorem Arith.eval_agreesOn {a : Arith} (h : AgreesOn a.reads e e') : a.eval e = a.eval e' := by
  induction a with
  | int n => rfl
  | var x => exact congrArg Except.ok (h x (List.mem_singleton.2 rfl))
  | operation o l r ihl ihr =>
    obtain ⟨hl, hr⟩ := agreesOn_append.1 h
    rw [eval, eval, ihl hl, ihr hr]

theorem Condition.eval_agreesOn {b : Condition} (h : AgreesOn b.reads e e') :
    b.eval e = b.eval e' := by
  induction b with
  | relation o l r =>
    obtain ⟨hl, hr⟩ := agreesOn_append.1 h
    rw [eval, eval, Arith.eval_agreesOn hl, Arith.eval_agreesOn hr]
  | and l r ihl ihr | or l r ihl ihr =>
    obtain ⟨hl, hr⟩ := agreesOn_append.1 h
    rw [eval, eval, ihl hl, ihr hr]
  | not b ih => rw [eval, eval, ih h]

section Agreement

variable {names : List String}

/-- What depends only on the names does so after the same assignments. -/
theorem Course.andThen_agreesOn {next : Environment → Course}
    (hn : ∀ e e', AgreesOn names e e' → next e = next e') (c : Course)
    (h : AgreesOn names e e') : c.andThen e next = c.andThen e' next := by
  rw [andThen, andThen, hn _ _ (h.setAll c.writes)]

theorem whileCourse_agreesOn {test : Environment → Except Fault Bool}
    {body : Environment → Course} (ht : ∀ e e', AgreesOn names e e' → test e = test e')
    (hb : ∀ e e', AgreesOn names e e' → body e = body e') (n : Nat)
    (h : AgreesOn names e e') : whileCourse test body n e = whileCourse test body n e' := by
  induction n generalizing e e' with
  | zero => rfl
  | succ n ih =>
    rw [whileCourse, whileCourse, ht e e' h, hb e e' h,
      Course.andThen_agreesOn (fun _ _ => ih) _ h]

theorem countedCourse_agreesOn {body : Environment → Course}
    (hb : ∀ e e', AgreesOn names e e' → body e = body e') (k : Nat)
    (h : AgreesOn names e e') : countedCourse body k e = countedCourse body k e' := by
  induction k generalizing e e' with
  | zero => rfl
  | succ k ih =>
    rw [countedCourse, countedCourse, hb e e' h, Course.andThen_agreesOn (fun _ _ => ih) _ h]

end Agreement

/-- From environments that agree on what is read, runs take the same course. -/
theorem Statement.course_agreesOn {s : Statement} (n : Nat) (h : AgreesOn s.reads e e') :
    s.course n e = s.course n e' := by
  induction s generalizing e e' with
  | assign x a => rw [course, course, Arith.eval_agreesOn h]
  | compound s t ihs iht =>
    obtain ⟨hs, ht⟩ := agreesOn_append.1 h
    rw [course, course, ihs hs, Course.andThen_agreesOn (fun _ _ => iht) _ ht]
  | ifThen b s ih =>
    obtain ⟨hb, hs⟩ := agreesOn_append.1 h
    rw [course, course, Condition.eval_agreesOn hb, ih hs]
  | ifThenElse b s t ihs iht =>
    obtain ⟨hb, hst⟩ := agreesOn_append.1 h
    obtain ⟨hs, ht⟩ := agreesOn_append.1 hst
    rw [course, course, Condition.eval_agreesOn hb, ihs hs, iht ht]
  | whileDo b s ih =>
    refine whileCourse_agreesOn (fun e e' h => ?_) (fun e e' h => ?_) n h
    · exact Condition.eval_agreesOn (agreesOn_append.1 h).1
    · exact ih (agreesOn_append.1 h).2
  | repeatTimes k s ih => exact countedCourse_agreesOn (fun _ _ => ih) k.toInt.toNat h

/-- Where a course halts from one environment, it halts from every other, in the same way. -/
theorem Course.halt?_of_some {c : Course} {r : Halt} (h : c.halt? e = some r)
    (e' : Environment) : r.environment = e.setAll c.writes ∧
      c.halt? e' = some ⟨e'.setAll c.writes, r.fault?⟩ := by
  obtain ⟨ws, stop⟩ := c
  cases stop with
  | cutShort => cases h
  | finished | faulted f =>
    cases h
    exact ⟨rfl, rfl⟩

/-- Nothing but the values of the names that a program reads bears on its run. Where these are the
same, it ends from both environments or from neither, with the same fault if with one; it makes the
same assignments in the same order, as far as it is followed, and these are all that it changes. -/
theorem values_read_decide_run {s : Statement} {e e' : Environment}
    (h : ∀ x ∈ s.reads, e.get x = e'.get x) :
    ((∃ n r, s.exec n e = some r) ↔ ∃ n r, s.exec n e' = some r) ∧
      ∀ n, s.course n e = s.course n e' ∧
        ∀ r, s.exec n e = some r → r.environment = e.setAll (s.course n e).writes ∧
          s.exec n e' = some ⟨e'.setAll (s.course n e).writes, r.fault?⟩ := by
  have hcourse (n : Nat) : s.course n e = s.course n e' := s.course_agreesOn n h
  have hhalt (n : Nat) (r : Halt) (hr : s.exec n e = some r) :
      r.environment = e.setAll (s.course n e).writes ∧
        s.exec n e' = some ⟨e'.setAll (s.course n e).writes, r.fault?⟩ := by
    rw [s.exec_eq_halt?, ← hcourse]
    rw [s.exec_eq_halt?] at hr
    exact Course.halt?_of_some hr e'
  refine ⟨⟨?_, ?_⟩, fun n => ⟨hcourse n, hhalt n⟩⟩
  · rintro ⟨n, r, hr⟩
    exact ⟨n, _, (hhalt n r hr).2⟩
  · rintro ⟨n, r, hr⟩
    rw [s.exec_eq_halt?, ← hcourse] at hr
    exact ⟨n, _, (s.exec_eq_halt? n e).trans (Course.halt?_of_some hr e).2⟩

theorem count_from_unbound_as_from_zero :
    let s : Statement := .whileDo (.relation "<" (.var "x") (.int 2))
      (.assign "x" (.operation "+" (.var "x") (.var "y")))
    let e := Environment.ofList [("y", 1)]
    let e' := Environment.ofList [("x", 0), ("y", 1), ("z", 5)]
    (∀ x ∈ s.reads, e.get x = e'.get x) ∧ (s.course 3 e).writes = [("x", 1), ("x", 2)] ∧
      s.exec 3 e' = some ⟨e'.setAll [("x", 1), ("x", 2)], none⟩ := by
  intro s e e'
  have h : ∀ x ∈ s.reads, e.get x = e'.get x := by decide +kernel
  have hw : (s.course 3 e).writes = [("x", 1), ("x", 2)] := by decide +kernel
  have hr : s.exec 3 e = some ⟨.ofList [("y", 1), ("x", 2)], none⟩ := by decide +kernel
  refine ⟨h, hw, ?_⟩
  rw [← hw]
  exact (((values_read_decide_run h).2 3).2 _ hr).2

end ImpLang
