import ImpLang.Parser.Trial
import ImpLang.Proofs.Parser.Reads

/-! What a match consumes. Whatever was tried in vain on the way, a match stops within the tokens,
and not in front of the place where it began. A parser that throws nothing away holds what it
consumed: the lexemes in its value, from left to right, are those of the tokens it went over. -/

namespace ImpLang

/-- How lexemes lie in the values of a type. -/
inductive Shape : Type → Type 1 where
  | text : Shape String
  | nothing : Shape Unit
  | pair {α β : Type} (first : Shape α) (second : Shape β) : Shape (α × β)
  | option {α : Type} (value : Shape α) : Shape (Option α)
  | list {α : Type} (value : Shape α) : Shape (List α)
  /-- Another type, whose values hold these lexemes. -/
  | data {α : Type} (lexemes : α → List String) : Shape α

/-- The lexemes in a value, from left to right. -/
def Shape.lexemes : {α : Type} → Shape α → α → List String
  | _, text, s => [s]
  | _, nothing, _ => []
  | _, pair first second, v => first.lexemes v.1 ++ second.lexemes v.2
  | _, option _, none => []
  | _, option value, some v => value.lexemes v
  | _, list value, vs => vs.flatMap value.lexemes
  | _, data lexemes, v => lexemes v

/-- Behind the tokens read from an index on, a cursor stands in front of a later one or at the
end. -/
theorem Cursor.Past.within {ts us : List Token} {i : Nat} {d : Cursor}
    (h : Past us (ofTokens ts i) d) :
    d = ofTokens ts d.position ∧ i ≤ d.position ∧ d.position ≤ max i ts.length ∧
      us = ts.extract i d.position := by
  have hposition : d.position = i + us.length := h.position
  have hrest : ts.drop i = us ++ d.rest := h.rest
  have hlength : ts.length - i = us.length + d.rest.length := by
    rw [← List.length_drop, hrest, List.length_append]
  have hdrop : d.rest = ts.drop d.position := by
    rw [hposition, ← List.drop_drop, hrest, List.drop_left]
  refine ⟨?_, by omega, by omega, ?_⟩
  · rw [ofTokens, ← hdrop]
  · rw [List.extract_eq_take_drop, hposition, Nat.add_sub_cancel_left, hrest, List.take_left]

namespace Parser

open Outcome

variable {ρ : Type → Type} {α β : Type}

/-- The parser keeps in values of this shape all that it reads, provided that the rules keep what
they read in the shapes that `shapes` gives them. A value may be recast, but no lexeme dropped. -/
inductive Collects (shapes : (α : Type) → ρ α → Shape α → Prop) :
    {α : Type} → Shape α → Parser ρ α → Prop where
  | reserved (lexeme : String) (kind : TokenKind) :
      Collects shapes .text (.reserved lexeme kind)
  | tag (kind : TokenKind) : Collects shapes .text (.tag kind)
  | epsilon : Collects shapes .nothing .epsilon
  | failure {α : Type} (s : Shape α) : Collects shapes s .failure
  | pair {α β : Type} {s : Shape α} {t : Shape β} {p : Parser ρ α} {q : Parser ρ β}
      (first : Collects shapes s p) (second : Collects shapes t q) :
      Collects shapes (.pair s t) (.pair p q)
  | either {α : Type} {s : Shape α} {p q : Parser ρ α} (first : Collects shapes s p)
      (second : Collects shapes s q) : Collects shapes s (.either p q)
  | filter {α : Type} {s : Shape α} {p : Parser ρ α} (accepts : α → Bool)
      (part : Collects shapes s p) : Collects shapes s (.filter accepts p)
  | maybe {α : Type} {s : Shape α} {p : Parser ρ α} (part : Collects shapes s p) :
      Collects shapes (.option s) (.maybe p)
  | zeroOrMore {α : Type} {s : Shape α} {p : Parser ρ α} (part : Collects shapes s p) :
      Collects shapes (.list s) (.zeroOrMore p)
  | oneOrMore {α : Type} {s : Shape α} {p : Parser ρ α} (part : Collects shapes s p) :
      Collects shapes (.list s) (.oneOrMore p)
  | phrase {α : Type} {s : Shape α} {p : Parser ρ α} (part : Collects shapes s p) :
      Collects shapes s (.phrase p)
  | delay {α : Type} {s : Shape α} {p : Parser ρ α} (part : Collects shapes s p) :
      Collects shapes s (.delay p)
  | call {α : Type} {s : Shape α} {r : ρ α} (rule : shapes α r s) : Collects shapes s (.call r)
  | recast {α β : Type} {s : Shape α} {t : Shape β} {p : Parser ρ α} {f : α → β}
      (part : Collects shapes s p) (keeps : ∀ v, t.lexemes (f v) = s.lexemes v) :
      Collects shapes t (.map f p)

/-- Every rule keeps what it reads in the shapes it is given. -/
def CollectWith (rules : Rules ρ) (shapes : (α : Type) → ρ α → Shape α → Prop) : Prop :=
  ∀ α (r : ρ α) s, shapes α r s → Collects shapes s (rules α r)

variable {rules : Rules ρ} {shapes : (α : Type) → ρ α → Shape α → Prop} {s : Shape α}
  {us : List Token} {p : Parser ρ α} {c d : Cursor} {v : α}

/-- The items read so far are in the value so far, the last in front. -/
theorem lexemes_of_stretches {item : List Token → α → Prop}
    (hi : ∀ ws w, item ws w → s.lexemes w = ws.map Token.lexeme) {vs ws : List α}
    (h : Stretches (ItemStep item) vs us ws) :
    ws.reverse.flatMap s.lexemes = vs.reverse.flatMap s.lexemes ++ us.map Token.lexeme := by
  induction h with
  | none => simp
  | snoc _ hstep ih =>
    obtain ⟨w, hw, rfl⟩ := hstep
    simp [ih, hi _ w hw]

/-- All that is known here of what rules read: their values hold it. -/
def Held (shapes : (α : Type) → ρ α → Shape α → Prop) : Language ρ :=
  fun α r us v => ∀ s, shapes α r s → s.lexemes v = us.map Token.lexeme

theorem Collects.lexemes_eq (h : Collects shapes s p) (hr : p.Reads (Held shapes) us v) :
    s.lexemes v = us.map Token.lexeme := by
  induction h generalizing us with
  | reserved | tag =>
    obtain ⟨t, rfl, h⟩ := hr
    simp [Shape.lexemes, h]
  | epsilon =>
    obtain rfl : us = [] := hr
    rfl
  | failure => exact hr.elim
  | pair _ _ ihp ihq =>
    obtain ⟨xs, ys, rfl, hx, hy⟩ := hr
    simp [Shape.lexemes, ihp hx, ihq hy]
  | either _ _ ihp ihq => exact hr.elim ihp ihq
  | filter _ _ ih => exact ih hr.1
  | @maybe _ _ p _ ih =>
    cases v with
    | none =>
      obtain rfl : us = [] := hr
      rfl
    | some w => exact ih hr
  | zeroOrMore _ ih => simpa [Shape.lexemes] using lexemes_of_stretches (fun _ _ => ih) hr
  | oneOrMore _ ih =>
    obtain ⟨w, xs, ys, rfl, hx, hy⟩ := hr
    simpa [Shape.lexemes, ih hx] using lexemes_of_stretches (fun _ _ => ih) hy
  | phrase _ ih | delay _ ih => exact ih hr
  | call rule => exact hr _ rule
  | recast _ keeps ih =>
    obtain ⟨w, hw, rfl⟩ := hr
    rw [keeps, ih hw]

theorem Matches.lexemes (h : Matches rules p c v d) (hrules : CollectWith rules shapes)
    (hp : Collects shapes s p) : ∃ us, c.Past us d ∧ s.lexemes v = us.map Token.lexeme := by
  obtain ⟨us, hu, hr⟩ : ∃ us, c.Past us d ∧ p.Reads (Held shapes) us v :=
    h.reads fun α r us v hr s hs => (hrules α r s hs).lexemes_eq hr
  exact ⟨us, hu, hp.lexemes_eq hr⟩

/-- A match goes on from where it began and stops at the end of the tokens at the latest. If the
parser keeps what it reads, the lexemes in the value are those of the tokens between, in order. -/
theorem match_keeps_tokens_in_order {ts : List Token} {i : Nat} {d : Cursor}
    (h : Matches rules p (.ofTokens ts i) v d) :
    d = .ofTokens ts d.position ∧ i ≤ d.position ∧ d.position ≤ max i ts.length ∧
      ∀ (shapes : (α : Type) → ρ α → Shape α → Prop) (s : Shape α), CollectWith rules shapes →
        Collects shapes s p → s.lexemes v = (ts.extract i d.position).map Token.lexeme := by
  obtain ⟨us, hu⟩ := h.past
  obtain ⟨hd, hle, hmax, -⟩ := hu.within
  refine ⟨hd, hle, hmax, fun shapes s hrules hp => ?_⟩
  obtain ⟨us, hu, hv⟩ := h.lexemes hrules hp
  rw [hv, ← hu.within.2.2.2]

end Parser

/-! Described parsers, whose values are all of one type. -/

/-- The lexemes in a value, from left to right. -/
def Value.lexemes : Value → List String
  | nothing => []
  | text s => [s]
  | int _ => []
  | pair first second => first.lexemes ++ second.lexemes
  | labelled _ value => value.lexemes
  | absent => []
  | present value => value.lexemes
  | list values => values.flatMap lexemes
  | joined separator accumulated next =>
    accumulated.lexemes ++ separator.lexemes ++ next.lexemes

@[simp] theorem Value.lexemes_text (s : String) : (text s).lexemes = [s] := by rw [lexemes]

@[simp] theorem Value.lexemes_pair (v w : Value) :
    (pair v w).lexemes = v.lexemes ++ w.lexemes := by rw [lexemes]

@[simp] theorem Value.lexemes_list (vs : List Value) :
    (list vs).lexemes = vs.flatMap lexemes := by rw [lexemes]

@[simp] theorem Value.lexemes_ofOption (v : Option Value) :
    (ofOption v).lexemes = (Shape.option (.data lexemes)).lexemes v := by
  cases v <;> rw [ofOption, lexemes] <;> rfl

/-- Nothing that the parser reads is dropped or changed. -/
def Description.keepsLexemes : Description → Bool
  | reserved _ _ | tag _ | rule _ | epsilon | failure => true
  | pair p q => p.keepsLexemes && q.keepsLexemes
  | either p q => p.keepsLexemes && q.keepsLexemes
  | only _ p => p.keepsLexemes
  | maybe p => p.keepsLexemes
  | zeroOrMore p => p.keepsLexemes
  | oneOrMore p => p.keepsLexemes
  | phrase p => p.keepsLexemes
  | delay p => p.keepsLexemes
  | left _ _ | right _ _ | label _ _ | numeral _ | discard _ | sepBy _ _ | fold _ _ | part _ =>
    false

/-- Named rules have values that hold their lexemes. -/
inductive NamedShape : (α : Type) → Reference α → Shape α → Prop where
  | named (name : String) : NamedShape Value (.inr (.named name)) (.data Value.lexemes)

open ImpLang.Parser

theorem Description.collects {d : Description} (h : d.keepsLexemes = true) :
    Collects NamedShape (.data Value.lexemes) d.parser := by
  induction d with
  | reserved lexeme kind =>
    exact .recast (.reserved lexeme kind) fun s => by simp [Shape.lexemes]
  | tag kind => exact .recast (.tag kind) fun s => by simp [Shape.lexemes]
  | pair p q ihp ihq =>
    simp only [keepsLexemes, Bool.and_eq_true] at h
    exact .recast (.pair (ihp h.1) (ihq h.2)) fun v => by simp [Shape.lexemes]
  | either p q ihp ihq =>
    simp only [keepsLexemes, Bool.and_eq_true] at h
    exact .either (ihp h.1) (ihq h.2)
  | only text p ih => exact .filter _ (ih h)
  | maybe p ih => exact .recast (.maybe (ih h)) fun v => by simp [Shape.lexemes]
  | zeroOrMore p ih => exact .recast (.zeroOrMore (ih h)) fun vs => by simp [Shape.lexemes]
  | oneOrMore p ih => exact .recast (.oneOrMore (ih h)) fun vs => by simp [Shape.lexemes]
  | phrase p ih => exact .phrase (ih h)
  | delay p ih => exact .delay (ih h)
  | rule name => exact .delay (.call (.named name))
  | epsilon => exact .recast .epsilon fun _ => by simp [Shape.lexemes, Value.lexemes]
  | failure => exact .failure _
  | _ => cases h

theorem RuleTable.collectWith {table : RuleTable}
    (h : ∀ entry ∈ table, entry.2.keepsLexemes = true) : CollectWith table.rules NamedShape := by
  rintro _ _ _ ⟨name⟩
  refine Description.collects ?_
  cases hlookup : table.lookup name with
  | none => rfl
  | some d =>
    obtain ⟨l, r, rfl, -⟩ := List.lookup_eq_some_iff.1 hlookup
    exact h (name, d) (by simp)

/-- Read from the second token of `x ( ( y ) ) ; z )`: a name in parentheses with a semicolon, and
one without, for which the semicolon is sought in vain. -/
theorem nested_names_kept_in_order :
    let table : RuleTable := [("nested", .either
      (.pair (.reserved "(" .reserved) (.pair (.rule "nested") (.reserved ")" .reserved)))
      (.tag .identifier))]
    let d : Description := .zeroOrMore
      (.either (.pair (.rule "nested") (.reserved ";" .reserved)) (.rule "nested"))
    let ts : List Token := [⟨.identifier, "x", {}⟩, ⟨.reserved, "(", {}⟩, ⟨.reserved, "(", {}⟩,
      ⟨.identifier, "y", {}⟩, ⟨.reserved, ")", {}⟩, ⟨.reserved, ")", {}⟩, ⟨.reserved, ";", {}⟩,
      ⟨.identifier, "z", {}⟩, ⟨.reserved, ")", {}⟩]
    ∃ v, Matches table.rules d.parser (.ofTokens ts 1) v (.ofTokens ts 8) ∧
      v.lexemes = ["(", "(", "y", ")", ")", ";", "z"] := by
  intro table d ts
  let inner : Value := .pair (.text "(") (.pair (.text "y") (.text ")"))
  let outer : Value := .pair (.text "(") (.pair inner (.text ")"))
  have h : Matches table.rules d.parser (.ofTokens ts 1)
      (.list [.pair outer (.text ";"), .text "z"]) (.ofTokens ts 8) := ⟨9, rfl⟩
  have hrules : CollectWith table.rules NamedShape := RuleTable.collectWith (by decide)
  exact ⟨_, h, (match_keeps_tokens_in_order h).2.2.2 _ _ hrules (Description.collects rfl)⟩

end ImpLang
