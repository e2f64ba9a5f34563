import ImpLang.Proofs.Program.Printing
import ImpLang.Proofs.Program.Spelling
import ImpLang.Proofs.Scanner.Separation

/-! From a program to its text and back. What is written down is scanned as the tokens that were
written, at other places, which the parser does not see; and what a text spells can be written
down. -/

namespace ImpLang

open Scanner

/-! Tokens with single spaces between them. -/

/-- Each token with a space behind it, and the last with nothing. -/
def spaced : List Token → List (Token × List Char)
  | [] => []
  | [t] => [(t, [])]
  | t :: u :: ts => (t, [' ']) :: spaced (u :: ts)

theorem map_spaced (ts : List Token) : (spaced ts).map Prod.fst = ts := by
  fun_induction spaced ts with
  | case1 | case2 => rfl
  | case3 t u ts ih => rw [List.map_cons, ih]

theorem layOut_spaced (ts : List Token) :
    layOut (spaced ts) = [' '].intercalate (ts.map fun t => t.lexeme.toList) := by
  fun_induction spaced ts with
  | case1 => rfl
  | case2 t => simp [layOut]
  | case3 t u ts ih =>
    have hcons : layOut ((t, [' ']) :: spaced (u :: ts)) =
        t.lexeme.toList ++ [' '] ++ layOut (spaced (u :: ts)) := rfl
    rw [hcons, ih]
    simp

theorem spaced_separated (ts : List Token) : (∀ i ∈ spaced ts, IsSeparator i.2) ∧
    (spaced ts).IsChain fun i j => i.1.runsInto j.1 = true → i.2 ≠ [] := by
  fun_induction spaced ts with
  | case1 => simp
  | case2 t => simp [IsSeparator.nil]
  | case3 t u ts ih =>
    have hspace : IsSeparator [' '] := .blank rfl .nil
    rw [List.forall_mem_cons, List.isChain_cons]
    exact ⟨⟨hspace, ih.1⟩, by simp, ih.2⟩

theorem tokenize_spaced {ts : List Token} (h : ∀ t ∈ ts, t.IsLexeme) :
    ∃ us, tokenize (" ".intercalate (ts.map Token.lexeme)) = .ok us ∧
      List.Forall₂ Token.Agrees ts us := by
  obtain ⟨hs, hchain⟩ := spaced_separated ts
  have ht : ∀ i ∈ spaced ts, i.1.IsLexeme := fun i hi =>
    h i.1 (map_spaced ts ▸ List.mem_map_of_mem hi)
  obtain ⟨s, new, hread, hnew, ha⟩ := (scan_layOut_iff ht hs {}).2 hchain
  rw [map_spaced] at ha
  refine ⟨new, tokenize_eq_ok.2 ⟨s, ?_, by simpa using hnew⟩, ha⟩
  rw [← hread, layOut_spaced, String.toList_intercalate, List.map_map]
  rfl

/-! What is written down consists of lexemes. -/

def AreLexemes (ts : List Token) : Prop := ∀ t ∈ ts, t.IsLexeme

@[simp] theorem areLexemes_nil : AreLexemes [] := by simp [AreLexemes]

@[simp] theorem areLexemes_cons {t : Token} {ts : List Token} :
    AreLexemes (t :: ts) ↔ t.IsLexeme ∧ AreLexemes ts := by
  simp [AreLexemes]

@[simp] theorem areLexemes_append {ts us : List Token} :
    AreLexemes (ts ++ us) ↔ AreLexemes ts ∧ AreLexemes us := by
  simp [AreLexemes, or_imp, forall_and]

theorem word_isLexeme {w : String} (h : w ∈ symbols ++ keywords) : (word w).IsLexeme := h

theorem numeral_isLexeme {n : Int64} (h : 0 ≤ n.toInt) :
    (⟨.integer, Decimal.write n, {}⟩ : Token).IsLexeme := by
  have hd := Decimal.digits_all n.toInt.natAbs
  refine ⟨?_, ?_, by simp [Decimal.read?_write]⟩
  · simp [Decimal.write_of_nonneg h, Nat.toDigits_ne_nil]
  · simpa [Decimal.write_of_nonneg h] using hd

theorem areLexemes_enclose {ts : List Token} (h : AreLexemes ts) (needed : Bool) :
    AreLexemes (enclose needed ts) := by
  have hw : (word "(").IsLexeme ∧ (word ")").IsLexeme :=
    ⟨word_isLexeme (by decide), word_isLexeme (by decide)⟩
  cases needed <;> simp [enclose, h, hw]

theorem Arith.areLexemes {a : Arith} (h : a.WellFormed) : AreLexemes a.tokens := by
  induction a with
  | int n => simpa [tokens] using numeral_isLexeme h
  | var x =>
    have hx : (⟨.identifier, x, {}⟩ : Token).IsLexeme := h
    simpa [tokens] using hx
  | operation o a b iha ihb =>
    obtain ⟨ho, ha, hb⟩ := h
    have hw : (word o).IsLexeme :=
      word_isLexeme ((by decide : ∀ o ∈ ["+", "-", "*", "/"], o ∈ symbols ++ keywords) o ho)
    simp [tokens, areLexemes_enclose, iha ha, ihb hb, hw]

theorem Condition.areLexemes {b : Condition} (h : b.WellFormed) : AreLexemes b.tokens := by
  induction b with
  | relation o a b =>
    obtain ⟨ho, ha, hb⟩ := h
    have hw : (word o).IsLexeme :=
      word_isLexeme
        ((by decide : ∀ o ∈ ["<", "<=", ">", ">=", "=", "!="], o ∈ symbols ++ keywords) o ho)
    simp [tokens, Arith.areLexemes ha, Arith.areLexemes hb, hw]
  | and a b iha ihb =>
    have hw : (word "and").IsLexeme := word_isLexeme (by decide)
    simp [tokens, areLexemes_enclose, iha h.1, ihb h.2, hw]
  | or a b iha ihb =>
    have hw : (word "or").IsLexeme := word_isLexeme (by decide)
    simp [tokens, areLexemes_enclose, iha h.1, ihb h.2, hw]
  | not b ih =>
    have hw : (word "not").IsLexeme := word_isLexeme (by decide)
    simp [tokens, areLexemes_enclose, ih h, hw]

/-- The words of the statements. -/
theorem statement_words :
    ∀ w ∈ [":=", ";", "if", "then", "else", "end", "while", "do", "repeat", "times"],
      (word w).IsLexeme := by
  intro w hw
  exact word_isLexeme ((by decide : ∀ w ∈ _, w ∈ symbols ++ keywords) w hw)

theorem Statement.areLexemes {s : Statement} (h : s.WellFormed) : AreLexemes s.tokens := by
  have hw := statement_words
  simp only [List.forall_mem_cons] at hw
  induction s with
  | assign x a =>
    have hx : (⟨.identifier, x, {}⟩ : Token).IsLexeme := h.1
    simp [tokens, hx, Arith.areLexemes h.2, hw]
  | compound s t ihs iht => simp [tokens, ihs h.1, iht h.2.1, hw]
  | ifThen b s ih => simp [tokens, Condition.areLexemes h.1, ih h.2, hw]
  | ifThenElse b s t ihs iht => simp [tokens, Condition.areLexemes h.1, ihs h.2.1, iht h.2.2, hw]
  | whileDo b s ih => simp [tokens, Condition.areLexemes h.1, ih h.2, hw]
  | repeatTimes n s ih => simp [tokens, numeral_isLexeme h.1, ih h.2, hw]

/-! What lexemes spell is well-formed. -/

theorem ArithDerivation.wellFormed {l : ArithLevel} {us : List Token} {a : Arith}
    (h : ArithDerivation l us a) (hl : AreLexemes us) : a.WellFormed := by
  induction h with
  | @int t n kind value =>
    have ht : IsNumeral t.lexeme := by simpa [Token.IsLexeme, kind] using hl
    exact Decimal.toInt_nonneg ht.1 ht.2.1 value
  | @var t kind =>
    have ht : IsName t.lexeme := by simpa [Token.IsLexeme, kind] using hl
    exact ht
  | parentheses _ _ _ ih =>
    simp only [areLexemes_cons, areLexemes_append] at hl
    exact ih hl.2.1
  | ofTerm _ ih | ofProduct _ ih => exact ih hl
  | times _ operator _ ihl ihr =>
    simp only [areLexemes_cons, areLexemes_append] at hl
    have ho := Token.lexeme_mem_of_isOneOf operator
    exact ⟨(by decide : ∀ o ∈ ["*", "/"], o ∈ ["+", "-", "*", "/"]) _ ho, ihl hl.1, ihr hl.2.2⟩
  | plus _ operator _ ihl ihr =>
    simp only [areLexemes_cons, areLexemes_append] at hl
    have ho := Token.lexeme_mem_of_isOneOf operator
    exact ⟨(by decide : ∀ o ∈ ["+", "-"], o ∈ ["+", "-", "*", "/"]) _ ho, ihl hl.1, ihr hl.2.2⟩

theorem ConditionDerivation.wellFormed {l : ConditionLevel} {us : List Token} {b : Condition}
    (h : ConditionDerivation l us b) (hl : AreLexemes us) : b.WellFormed := by
  induction h with
  | negation _ _ ih =>
    simp only [areLexemes_cons] at hl
    exact ih hl.2
  | relation left operator right =>
    simp only [areLexemes_cons, areLexemes_append] at hl
    exact ⟨Token.lexeme_mem_of_isOneOf operator, left.wellFormed hl.1, right.wellFormed hl.2.2⟩
  | parentheses _ _ _ ih =>
    simp only [areLexemes_cons, areLexemes_append] at hl
    exact ih hl.2.1
  | ofTerm _ ih | ofConjunction _ ih => exact ih hl
  | and _ _ _ ihl ihr | or _ _ _ ihl ihr =>
    simp only [areLexemes_cons, areLexemes_append] at hl
    exact ⟨ihl hl.1, ihr hl.2.2⟩

theorem StatementDerivation.not_isCompound {us : List Token} {s : Statement}
    (h : StatementDerivation .single us s) : s.isCompound = false := by
  cases h <;> rfl

theorem StatementDerivation.wellFormed {l : StatementLevel} {us : List Token} {s : Statement}
    (h : StatementDerivation l us s) (hl : AreLexemes us) : s.WellFormed := by
  induction h with
  | @assign x o us a name operator value =>
    simp only [areLexemes_cons] at hl
    have hx : IsName x.lexeme := by simpa [Token.IsLexeme, name] using hl.1
    exact ⟨hx, value.wellFormed hl.2.2⟩
  | ifThen _ condition _ _ _ ih | whileDo _ condition _ _ _ ih =>
    simp only [areLexemes_cons, areLexemes_append] at hl
    exact ⟨condition.wellFormed hl.2.1, ih hl.2.2.2.1⟩
  | ifThenElse _ condition _ _ _ _ _ ihs iht =>
    simp only [areLexemes_cons, areLexemes_append] at hl
    exact ⟨condition.wellFormed hl.2.1, ihs hl.2.2.2.1, iht hl.2.2.2.2.2.1⟩
  | @repeatTimes r n m e us k s _ kind count _ _ _ ih =>
    simp only [areLexemes_cons, areLexemes_append] at hl
    have hn : IsNumeral n.lexeme := by simpa [Token.IsLexeme, kind] using hl.2.1
    exact ⟨Decimal.toInt_nonneg hn.1 hn.2.1 count, ih hl.2.2.2.1⟩
  | ofSingle _ ih => exact ih hl
  | sequence _ _ right ihs iht =>
    simp only [areLexemes_cons, areLexemes_append] at hl
    exact ⟨ihs hl.1, iht hl.2.2, right.not_isCompound⟩

theorem tokenize_areLexemes {source : String} {ts : List Token} (h : tokenize source = .ok ts) :
    AreLexemes ts := by
  obtain ⟨s, hs, rfl⟩ := tokenize_eq_ok.1 h
  obtain ⟨rest, hr, hh⟩ := scan_eq_iff.1 hs
  cases hh
  have := hr.lexemes (by simp)
  exact fun t ht => this t (by simpa using ht)

theorem Spells.wellFormed {source : String} {s : Statement} (h : Spells source s) :
    s.WellFormed := by
  obtain ⟨ts, ht, hp⟩ := h
  obtain ⟨d⟩ := parse?_eq_some.1 hp
  exact d.wellFormed (tokenize_areLexemes ht)

theorem Statement.WellFormed.spells {s : Statement} (h : s.WellFormed) : Spells s.text s := by
  obtain ⟨us, hu, ha⟩ := tokenize_spaced (Statement.areLexemes h)
  refine ⟨us, hu, ?_⟩
  rw [← parse?_agrees ha, parse?_eq_some]
  exact s.derives h

/-- A program is read back from its text exactly when it is well-formed, and these are all the
programs that texts spell. -/
theorem text_spells_iff (s : Statement) :
    (Spells s.text s ↔ s.WellFormed) ∧ ((∃ source, Spells source s) ↔ s.WellFormed) := by
  refine ⟨⟨Spells.wellFormed, Statement.WellFormed.spells⟩, ?_, fun h => ⟨s.text, h.spells⟩⟩
  rintro ⟨source, h⟩
  exact h.wellFormed

end ImpLang
