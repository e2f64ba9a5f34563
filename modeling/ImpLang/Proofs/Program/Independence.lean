import ImpLang.Proofs.Program.Course
import ImpLang.Proofs.Program.Effects

/-! Programs that leave each other's variables alone. Behind such a program another one reads what it
would have read before it, so it ends or not as it would have, and does to every variable what it
would have done. Two of them can therefore be run in either order. -/

namespace ImpLang

open Statement Environment

variable {s t : Statement} {e e' f : Environment} {h : Halt}

/-- Neither program assigns to a name that the other one reads or assigns to. -/
structure Statement.Independent (s t : Statement) : Prop where
  left : ∀ x ∈ s.targets, x ∉ t.reads ∧ x ∉ t.targets
  right : ∀ x ∈ t.targets, x ∉ s.reads ∧ x ∉ s.targets

theorem Statement.Independent.symm (hi : s.Independent t) : t.Independent s := ⟨hi.right, hi.left⟩

/-- Where all that it reads is the same, a program ends likewise; and it keeps variables the same that
were so, also those that it does not read. -/
theorem Statement.RunsTo.of_agreesOn (hr : s.RunsTo e h) (he : AgreesOn s.reads e e') :
    ∃ h', s.RunsTo e' h' ∧ h'.fault? = h.fault? ∧
      ∀ x, AgreesAt x e e' → AgreesAt x h.environment h'.environment := by
  obtain ⟨n, hn⟩ := hr
  rw [exec_eq_halt?] at hn
  obtain ⟨henv, hn'⟩ := Course.halt?_of_some hn e'
  rw [course_agreesOn n he, ← exec_eq_halt?] at hn'
  refine ⟨_, ⟨n, hn'⟩, rfl, fun x hx => ?_⟩
  rw [henv, ← course_agreesOn n he]
  exact hx.setAll _

/-- What a program does not assign to is read the same behind it. -/
theorem Statement.Independent.agreesOn (hi : s.Independent t) (hr : s.RunsTo e h) :
    AgreesOn t.reads h.environment e :=
  fun _ hx => (hr.keeps_others fun ht => (hi.left _ ht).1 hx).2

/-- Of two runs in turn that end without a fault, the second could have been made before the first. -/
theorem Statement.Independent.swap (hi : s.Independent t) (hr : (compound s t).RunsTo e ⟨f, none⟩) :
    (compound t s).RunsTo e ⟨f, none⟩ := by
  obtain ⟨e₁, hs, ht⟩ : ∃ e₁, s.RunsTo e ⟨e₁, none⟩ ∧ t.RunsTo e₁ ⟨f, none⟩ :=
    (runsTo_compound.1 hr).resolve_left fun hf => hf.2 rfl
  obtain ⟨⟨e₂, _⟩, ht', rfl, htAgree⟩ := ht.of_agreesOn (hi.agreesOn hs)
  have hback : AgreesOn s.reads e e₂ := fun x hx => (hi.symm.agreesOn ht' x hx).symm
  obtain ⟨⟨f', _⟩, hs', rfl, hsAgree⟩ := hs.of_agreesOn hback
  -- a name is decided by the program that assigns to it, which finds it as it was in both orders
  have hsame (x : String) : AgreesAt x f f' := by
    by_cases hx : x ∈ t.targets
    · have hxs : x ∉ s.targets := (hi.right x hx).2
      obtain ⟨hc, hg⟩ := htAgree x (hs.keeps_others hxs)
      obtain ⟨hc', hg'⟩ := hs'.keeps_others hxs
      exact ⟨hc.trans hc'.symm, hg.trans hg'.symm⟩
    · obtain ⟨hc, hg⟩ := ht.keeps_others hx
      obtain ⟨hc', hg'⟩ := ht'.keeps_others hx
      obtain ⟨hc'', hg''⟩ := hsAgree x ⟨hc'.symm, hg'.symm⟩
      exact ⟨hc.trans hc'', hg.trans hg''⟩
  obtain rfl : f = f' := ext_get (fun x => (hsame x).1) fun x => (hsame x).2
  exact runsTo_compound.2 (Or.inr ⟨e₂, ht', hs'⟩)

/-- Programs that leave each other's variables alone commute: one order ends without a fault exactly
when the other does, and both then leave the same environment. -/
theorem independent_statements_commute (hi : s.Independent t) (e : Environment) :
    ((∃ f, (compound s t).RunsTo e ⟨f, none⟩) ↔ ∃ f, (compound t s).RunsTo e ⟨f, none⟩) ∧
      ∀ f g, (compound s t).RunsTo e ⟨f, none⟩ → (compound t s).RunsTo e ⟨g, none⟩ → f = g := by
  refine ⟨⟨?_, ?_⟩, fun f g hst hts => ?_⟩
  · rintro ⟨f, hr⟩
    exact ⟨f, hi.swap hr⟩
  · rintro ⟨f, hr⟩
    exact ⟨f, hi.symm.swap hr⟩
  · cases (hi.swap hst).unique hts
    rfl

theorem loops_swapped :
    let s : Statement := .whileDo (.relation "<" (.var "x") (.var "n"))
      (.assign "x" (.operation "+" (.var "x") (.int 1)))
    let t : Statement := .repeatTimes 2 (.assign "y" (.operation "-" (.var "y") (.var "n")))
    let e := Environment.ofList [("n", 3), ("y", 1)]
    s.Independent t ∧
      (compound t s).RunsTo e ⟨.ofList [("n", 3), ("x", 3), ("y", -5)], none⟩ := by
  intro s t e
  have hi : s.Independent t := ⟨by decide, by decide⟩
  have hst : (compound s t).RunsTo e ⟨.ofList [("n", 3), ("x", 3), ("y", -5)], none⟩ :=
    ⟨4, by decide +kernel⟩
  obtain ⟨hends, hsame⟩ := independent_statements_commute hi e
  obtain ⟨g, hts⟩ := hends.1 ⟨_, hst⟩
  obtain rfl := hsame _ g hst hts
  exact ⟨hi, hts⟩

end ImpLang
