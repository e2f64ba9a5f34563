import ImpLang.Program.Bound
import ImpLang.Program.Run
import ImpLang.Proofs.Grammar.Recognition
import ImpLang.Proofs.Parser.Lookahead

/-! Texts and the programs that they spell. Where the tokens stand does not matter, and a text
that spells a program runs as that program. -/

namespace ImpLang

theorem parse?_agrees {ts us : List Token} (h : List.Forall₂ Token.Agrees ts us) :
    parse? ts = parse? us := by
  have hc : (Cursor.ofTokens ts 0).Alike 0 (Cursor.ofTokens us 0) := ⟨rfl, h⟩
  have hl : (Cursor.ofTokens ts 0).rest.length = (Cursor.ofTokens us 0).rest.length := h.length_eq
  unfold parse? Grammar.matchAt
  rw [hl]
  exact (Parser.run_alike Grammar.rules _ Grammar.program hc).value?

/-- Scanned without an error, the text spells this program. -/
def Spells (source : String) (s : Statement) : Prop :=
  ∃ tokens, tokenize source = .ok tokens ∧ parse? tokens = some s

/-- Running the text in these variables ends, and ends so. -/
def RunsTo (source : String) (e : Environment) (r : Ending) : Prop :=
  ∃ n, runSource n source e = some r

variable {source : String} {s : Statement} {e : Environment} {r : Ending}

theorem spells_iff : Spells source s ↔ (tokenize source).toOption.bind parse? = some s := by
  unfold Spells
  cases tokenize source <;> simp [Except.toOption]

instance : Decidable (Spells source s) := decidable_of_iff _ spells_iff.symm

theorem Spells.runSource (h : Spells source s) (n : Nat) (e : Environment) :
    runSource n source e = (s.exec n e).map Halt.ending := by
  obtain ⟨ts, ht, hp⟩ := h
  simp [ImpLang.runSource, ht, runTokens, hp]

theorem Spells.runsTo (h : Spells source s) :
    RunsTo source e r ↔ ∃ n h, s.exec n e = some h ∧ h.ending = r := by
  simp [RunsTo, h.runSource]

end ImpLang
