import ImpLang.Proofs.Program.Sequence
import ImpLang.Proofs.Program.Spelling
import ImpLang.Proofs.Scanner.Lexemes

/-! Programs joined by a semicolon on a line of its own. The tokens of the joined text are those
of the parts with the semicolon between them; the parser reads on across it, so that the tree of
the joined text is not a sequence of the two trees but nests to the left throughout; and it runs
as the one program and then the other. -/

namespace ImpLang

open Scanner

theorem tokenize_join {a b : String} {ts us : List Token} (ha : tokenize a = .ok ts)
    (hb : tokenize b = .ok us) :
    ∃ ws, tokenize (a ++ "\n;\n" ++ b) = .ok ws ∧
      ∃ o : Token, o.isReserved ";" = true ∧ List.Forall₂ Token.Agrees (ts ++ o :: us) ws := by
  obtain ⟨s, hs, rfl⟩ := tokenize_eq_ok.1 ha
  obtain ⟨t, ht, rfl⟩ := tokenize_eq_ok.1 hb
  -- the scanner behind the semicolon and its line
  let o : Token := ⟨.reserved, ";", (s.accept none ['\n']).location⟩
  let s' := ((s.accept none ['\n']).accept (some .reserved) [';']).accept none ['\n']
  have hsemicolon : Takes (some .reserved) [';'] ('\n' :: b.toList) := ⟨rfl, rfl⟩
  have hscan : ({} : Scanner).scan (a ++ "\n;\n" ++ b).toList = s'.scan b.toList := by
    calc ({} : Scanner).scan (a ++ "\n;\n" ++ b).toList
        = ({} : Scanner).scan (a.toList ++ '\n' :: ([';'] ++ '\n' :: b.toList)) := by simp
      _ = (s.accept none ['\n']).scan ([';'] ++ '\n' :: b.toList) := scan_append_newline hs _
      _ = ((s.accept none ['\n']).accept (some .reserved) [';']).scan ('\n' :: b.toList) :=
        hsemicolon.scan _
      _ = s'.scan b.toList := scan_blank rfl _ _
  have hheld : s'.tokens.toList = s.tokens.toList ++ [o] := by simp [s', o, accept, push]
  have hbehind : Behind (s.tokens.toList ++ [o]) {} s' := by
    simp only [Behind, hheld, List.append_nil]
    exact List.forall₂_same.2 fun t _ => Token.Agrees.refl t
  obtain ⟨t', ht', hagree⟩ := scan_behind ht hbehind
  refine ⟨t'.tokens.toList, tokenize_eq_ok.2 ⟨t', hscan.trans ht', rfl⟩, o, ?_, ?_⟩
  · simp [o, Token.isReserved]
  · simpa [Behind] using hagree

theorem StatementDerivation.join_eq {us : List Token} {t : Statement}
    (h : StatementDerivation .single us t) (s : Statement) : s.join t = .compound s t := by
  cases h <;> rfl

theorem StatementDerivation.join {us ws : List Token} {o : Token} {s t : Statement}
    (left : StatementDerivation .list us s) (operator : o.isReserved ";")
    (right : StatementDerivation .list ws t) :
    Nonempty (StatementDerivation .list (us ++ o :: ws) (s.join t)) := by
  generalize hl : StatementLevel.list = l at right
  induction right with
  | ofSingle first =>
    rw [first.join_eq]
    exact ⟨.sequence left operator first⟩
  | @sequence xs ys p t u _ operator' last ih =>
    obtain ⟨d⟩ := ih rfl
    have hd := StatementDerivation.sequence d operator' last
    rw [List.append_assoc] at hd
    exact ⟨hd⟩
  | _ => cases hl

/-- Joined texts spell the joined programs. -/
theorem Spells.join {a b : String} {s t : Statement} (ha : Spells a s) (hb : Spells b t) :
    Spells (a ++ "\n;\n" ++ b) (s.join t) := by
  obtain ⟨ts, hts, hs⟩ := ha
  obtain ⟨us, hus, ht⟩ := hb
  obtain ⟨ws, hws, o, ho, hagree⟩ := tokenize_join hts hus
  obtain ⟨ds⟩ := parse?_eq_some.1 hs
  obtain ⟨dt⟩ := parse?_eq_some.1 ht
  refine ⟨ws, hws, ?_⟩
  rw [← parse?_agrees hagree, parse?_eq_some]
  exact ds.join ho dt

/-- Running joined texts is running the first and then, unless it failed, the second on the
variables it leaves. -/
theorem join_runs_in_turn {a b : String} (ha : ∃ s, Spells a s) (hb : ∃ t, Spells b t)
    (e : Environment) (r : Ending) :
    RunsTo (a ++ "\n;\n" ++ b) e r ↔
      (RunsTo a e r ∧ r.error? ≠ none) ∨ ∃ e', RunsTo a e ⟨e', none⟩ ∧ RunsTo b e' r := by
  obtain ⟨s, hs⟩ := ha
  obtain ⟨t, ht⟩ := hb
  rw [(hs.join ht).runsTo]
  simp only [hs.runsTo, ht.runsTo, Statement.exec_join, Halt.andThen_eq_some]
  constructor
  · rintro ⟨n, h, ⟨hx, hf⟩ | ⟨e', hx, hy⟩, rfl⟩
    · exact Or.inl ⟨⟨n, h, hx, rfl⟩, by simpa [Halt.ending] using hf⟩
    · exact Or.inr ⟨e', ⟨n, ⟨e', none⟩, hx, rfl⟩, n, h, hy, rfl⟩
  · rintro (⟨⟨n, h, hx, rfl⟩, hf⟩ | ⟨e', ⟨n, ⟨e'', f⟩, hx, he⟩, m, h, hy, rfl⟩)
    · exact ⟨n, h, Or.inl ⟨hx, by simpa [Halt.ending] using hf⟩, rfl⟩
    · obtain ⟨rfl, rfl⟩ : e'' = e' ∧ f = none := by simpa [Halt.ending] using he
      -- both runs within one bound
      refine ⟨max n m, h, Or.inr ⟨e'', ?_, ?_⟩, rfl⟩
      · exact Statement.exec_mono (Nat.le_max_left n m) hx
      · exact Statement.exec_mono (Nat.le_max_right n m) hy

theorem assign_joined_with_loop :
    (∃ s, Spells "x := 1 # once" s) ∧ (∃ t, Spells "while x < 3 do x := x + 1 end" t) ∧
      RunsTo ("x := 1 # once" ++ "\n;\n" ++ "while x < 3 do x := x + 1 end") {}
        ⟨.ofList [("x", 3)], none⟩ := by
  have ha : ∃ s, Spells "x := 1 # once" s := ⟨.assign "x" (.int 1), by decide +kernel⟩
  have hb : ∃ t, Spells "while x < 3 do x := x + 1 end" t :=
    ⟨.whileDo (.relation "<" (.var "x") (.int 3))
      (.assign "x" (.operation "+" (.var "x") (.int 1))), by decide +kernel⟩
  refine ⟨ha, hb, (join_runs_in_turn ha hb {} _).2 (Or.inr ⟨.ofList [("x", 1)], ⟨0, ?_⟩, 3, ?_⟩)⟩
  · decide +kernel
  · decide +kernel

end ImpLang
