import ImpLang.Proofs.Grammar.Completeness
import ImpLang.Proofs.Parser.Termination

/-! The parser recognises exactly the grammar, and the grammar is unambiguous: a program's tokens
have one derivation. Two splits of a level's tokens lead the same fold through the same rounds, so
they are one split. -/

open ImpLang.Parser

namespace ImpLang

namespace Cursor

theorem Past.inj {us ws : List Token} {c d : Cursor} (h : Past us c d) (h' : Past ws c d) :
    us = ws :=
  List.append_cancel_right (h.rest.symm.trans h'.rest)

theorem past_front (us ts : List Token) : Past us (ofTokens (us ++ ts) 0) ⟨us.length, ts⟩ :=
  ⟨by simp [ofTokens], by simp [ofTokens]⟩

theorem past_all (ts : List Token) : Past ts (ofTokens ts 0) ⟨ts.length, []⟩ := by
  simpa using past_front ts []

end Cursor

namespace Parser

variable {ρ : Type → Type} {rules : Rules ρ} {α : Type} {p : Parser ρ α} {q : Parser ρ (α → α → α)}

theorem round_rightUnique : Relator.RightUnique (Round (foldRound rules p q)) := by
  intro x y z h h'
  obtain ⟨f, d, v, hq, hp, hy⟩ := round_foldRound.1 h
  obtain ⟨f', d', v', hq', hp', hz⟩ := round_foldRound.1 h'
  obtain ⟨rfl, rfl⟩ := hq.unique hq'
  obtain ⟨rfl, hd⟩ := hp.unique hp'
  exact Prod.ext (hy.symm.trans hz) hd

/-- A fold from `c` comes to `b`, goes one round to `z`, and can go no further. -/
structure LastRound (rules : Rules ρ) (p : Parser ρ α) (q : Parser ρ (α → α → α)) (c b z : Cursor) :
    Prop where
  folds : ∃ u, Folds rules p q c u b
  round : ∃ f d v, Matches rules q b f d ∧ Matches rules p d v z
  stops : Fails rules q z

variable {b b' c z : Cursor}

/-- No round leads on from where a fold stops. -/
theorem not_round_of_stuck {x y : α × Cursor}
    (h : Fails rules q x.2 ∨ ∃ f e, Matches rules q x.2 f e ∧ Fails rules p e) :
    ¬ Round (foldRound rules p q) x y := by
  intro hr
  obtain ⟨f, d, v, hq, hp, -⟩ := round_foldRound.1 hr
  rcases h with hf | ⟨f', d', hq', hf⟩
  · exact hq.not_fails hf
  · obtain ⟨rfl, rfl⟩ := hq.unique hq'
    exact hp.not_fails hf

theorem eq_of_rounds_of_stuck {x y : α × Cursor}
    (hr : Relation.ReflTransGen (Round (foldRound rules p q)) x y)
    (h : Fails rules q x.2 ∨ ∃ f e, Matches rules q x.2 f e ∧ Fails rules p e) : y = x := by
  rcases hr.cases_head with rfl | ⟨w, hw, -⟩
  · rfl
  · exact absurd hw (not_round_of_stuck h)

theorem LastRound.not_first (h : LastRound rules p q c b z) {w : α} : ¬ Matches rules p c w z := by
  intro hp
  obtain ⟨⟨u, v, d, hv, hr⟩, ⟨f, e, x, hq, -⟩, hz⟩ := h
  obtain ⟨rfl, rfl⟩ := hv.unique hp
  cases eq_of_rounds_of_stuck hr (Or.inl hz)
  exact hq.not_fails hz

theorem eq_of_rounds {u u' : α} (h : LastRound rules p q c b z) (h' : LastRound rules p q c b' z)
    (hr : Relation.ReflTransGen (Round (foldRound rules p q)) (u, b) (u', b')) : b = b' := by
  rcases hr.cases_head with he | ⟨y, hy, hr⟩
  · exact congrArg Prod.snd he
  · -- the first round leads to the end, from which there is no way to `b'`
    obtain ⟨f, d, v, hq, hp⟩ := h.round
    obtain ⟨f', d', v', hq', hp', -⟩ := round_foldRound.1 hy
    obtain ⟨rfl, rfl⟩ := hq.unique hq'
    obtain ⟨-, hz⟩ := hp.unique hp'
    have hs : Fails rules q y.2 := hz ▸ h.stops
    have hb : b' = y.2 := congrArg Prod.snd (eq_of_rounds_of_stuck hr (Or.inl hs))
    obtain ⟨f, d, v, hq, -⟩ := h'.round
    exact absurd hs (hb ▸ hq.not_fails)

theorem LastRound.unique (h : LastRound rules p q c b z) (h' : LastRound rules p q c b' z) :
    b = b' := by
  obtain ⟨u, v, d, hv, hr⟩ := h.folds
  obtain ⟨u', v', d', hv', hr'⟩ := h'.folds
  obtain ⟨rfl, rfl⟩ := hv.unique hv'
  rcases Relation.ReflTransGen.total_of_right_unique round_rightUnique hr hr' with ht | ht
  · exact eq_of_rounds h h' ht
  · exact (eq_of_rounds h' h ht).symm

end Parser

open Grammar

theorem stops_of_nil {words : List String} {ts : List Token} (h : ts = []) : Stops words ts := by
  subst h
  exact fun t ht => by cases ht

theorem stops_cons {words : List String} {t : Token} {ts : List Token}
    (h : t.isOneOf words = false) : Stops words (t :: ts) := by
  intro u hu
  cases hu
  exact h

/-- In front of `ts` the parser reads exactly `us`. -/
def Ends {α : Type} (p : Parser Nonterminal α) (us ts : List Token) : Prop :=
  ∀ c d, c.Past us d → d.rest = ts → ∃ v, Matches rules p c v d

/-- Read to their end, the tokens lead a fold through `us` to a last round over `o` and `ws`. -/
def Splits {α : Type} (p : Parser Nonterminal α) (q : Parser Nonterminal (α → α → α))
    (us : List Token) (o : Token) (ws : List Token) : Prop :=
  ∀ c z, c.Past (us ++ o :: ws) z → z.rest = [] → ∃ b, c.Past us b ∧ LastRound rules p q c b z

section Splits

variable {α : Type} {p : Parser Nonterminal α} {q : Parser Nonterminal (α → α → α)}
  {us ws us' ws' ts ts' xs : List Token} {o o' : Token}

theorem Ends.unique (h : Ends p us ts) (h' : Ends p us' ts') (e : us ++ ts = us' ++ ts') :
    us = us' ∧ ts = ts' := by
  obtain ⟨v, hv⟩ := h _ _ (Cursor.past_front us ts) rfl
  obtain ⟨v', hv'⟩ := h' _ _ (Cursor.past_front us' ts') rfl
  rw [← e] at hv'
  obtain ⟨-, hts⟩ := Cursor.mk.inj (hv.unique hv').2
  exact List.append_inj' e (congrArg List.length hts)

theorem Ends.split (h : Ends p us (o :: ws)) (h' : Ends p us' (o' :: ws'))
    (e : us ++ o :: ws = us' ++ o' :: ws') : us = us' ∧ o = o' ∧ ws = ws' := by
  obtain ⟨hu, ht⟩ := h.unique h' e
  exact ⟨hu, List.cons.inj ht⟩

/-- The left side leads the fold up to the operator, and the right side is read to the end. -/
theorem splits_of_parts
    (hl : ∀ {c d z}, c.Past us d → d.Past (o :: ws) z → ∃ u, Folds rules p q c u d)
    (hq : ∀ {c d}, c.Past [o] d → ∃ f, Matches rules q c f d) (hp : Ends p ws [])
    (hs : ∀ {c}, c.rest = [] → Fails rules q c) : Splits p q us o ws := by
  intro c z h hz
  obtain ⟨e, hc, he⟩ := h.split
  obtain ⟨d, ho, hd⟩ := he.uncons
  obtain ⟨f, hf⟩ := hq ho
  obtain ⟨v, hv⟩ := hp d z hd hz
  exact ⟨e, hc, hl hc he, ⟨f, d, v, hf, hv⟩, hs hz⟩

theorem Splits.unique (h : Splits p q us o ws) (h' : Splits p q us' o' ws')
    (e : us ++ o :: ws = us' ++ o' :: ws') : us = us' ∧ o = o' ∧ ws = ws' := by
  obtain ⟨b, hb, hl⟩ := h _ _ (Cursor.past_all _) rfl
  obtain ⟨b', hb', hl'⟩ := h' _ _ (Cursor.past_all _) rfl
  rw [← e] at hb' hl'
  obtain rfl := hl.unique hl'
  obtain rfl := hb.inj hb'
  simpa using e

theorem Splits.ne_whole (h : Splits p q us o ws) (hp : Ends p xs []) : xs ≠ us ++ o :: ws := by
  rintro rfl
  obtain ⟨b, -, hl⟩ := h _ _ (Cursor.past_all _) rfl
  obtain ⟨v, hv⟩ := hp _ _ (Cursor.past_all _) rfl
  exact hl.not_first hv

end Splits

section Arith

variable {us ws ts : List Token} {o : Token} {a b : Arith}

theorem ArithDerivation.term_ends (h : ArithDerivation .term us a) : Ends arithmeticTerm us ts :=
  fun _ _ hc _ => ⟨a, h.runs hc⟩

theorem ArithDerivation.product_ends (h : ArithDerivation .product us a)
    (hs : Stops ["*", "/"] ts) : Ends Grammar.product us ts := by
  rintro c d hc rfl
  exact ⟨a, (h.runs hc).matches (operator_fails hs)⟩

theorem ArithDerivation.ends (h : ArithDerivation .sum us a) (hs : Stops ["*", "/", "+", "-"] ts) :
    Ends arithmetic us ts := by
  rintro c d hc rfl
  exact ⟨a, h.matches hc hs⟩

theorem ArithDerivation.times_splits (left : ArithDerivation .product us a)
    (operator : o.isOneOf ["*", "/"]) (right : ArithDerivation .term ws b) :
    Splits arithmeticTerm
      (.tryMap (fun op => some (.operation op)) (anyOf ["*", "/"])) us o ws := by
  apply splits_of_parts
  · exact fun hc _ => ⟨a, left.runs hc⟩
  · exact fun ho => ⟨_, operator_matches ho operator rfl⟩
  · exact right.term_ends
  · exact fun hz => operator_fails (stops_of_nil hz)

theorem ArithDerivation.plus_splits (left : ArithDerivation .sum us a)
    (operator : o.isOneOf ["+", "-"]) (right : ArithDerivation .product ws b) :
    Splits Grammar.product
      (.tryMap (fun op => some (.operation op)) (anyOf ["+", "-"])) us o ws := by
  apply splits_of_parts
  · exact fun hc hd => ⟨a, left.runs hc (hd.stops (plus_not_times operator))⟩
  · exact fun ho => ⟨_, operator_matches ho operator rfl⟩
  · exact right.product_ends (stops_of_nil rfl)
  · exact fun hz => operator_fails (stops_of_nil hz)

theorem ArithDerivation.unique {l : ArithLevel} (h : ArithDerivation l us a) :
    ∀ {us' a'} (h' : ArithDerivation l us' a'), us = us' → a = a' → HEq h h' := by
  induction h with
  | @int t n kind value =>
    intro us' a' h' e ea
    cases h' with
    | int =>
      cases e
      cases ea
      exact HEq.rfl
    | var => cases ea
    | parentheses => simp at e
  | @var t kind =>
    intro us' a' h' e ea
    cases h' with
    | int => cases ea
    | var =>
      cases e
      exact HEq.rfl
    | parentheses => simp at e
  | @parentheses l r us a left inner right ih =>
    intro us' a' h' e ea
    cases h' with
    | int | var => simp at e
    | parentheses left' inner' right' =>
      obtain ⟨rfl, e'⟩ := List.cons.inj e
      obtain ⟨rfl, e''⟩ := List.append_inj' e' rfl
      cases e''
      cases ea
      cases eq_of_heq (ih inner' rfl rfl)
      exact HEq.rfl
  | @ofTerm us a first ih =>
    intro us' a' h' e ea
    cases h' with
    | ofTerm first' =>
      cases e
      cases ea
      cases eq_of_heq (ih first' rfl rfl)
      exact HEq.rfl
    | times left operator right =>
      exact absurd e ((left.times_splits operator right).ne_whole first.term_ends)
  | @times us ws o a b left operator right ihl ihr =>
    intro us' a' h' e ea
    cases h' with
    | ofTerm first =>
      exact absurd e.symm ((left.times_splits operator right).ne_whole first.term_ends)
    | times left' operator' right' =>
      obtain ⟨rfl, rfl, rfl⟩ :=
        (left.times_splits operator right).unique (left'.times_splits operator' right') e
      cases ea
      cases eq_of_heq (ihl left' rfl rfl)
      cases eq_of_heq (ihr right' rfl rfl)
      exact HEq.rfl
  | @ofProduct us a first ih =>
    intro us' a' h' e ea
    cases h' with
    | ofProduct first' =>
      cases e
      cases ea
      cases eq_of_heq (ih first' rfl rfl)
      exact HEq.rfl
    | plus left operator right =>
      exact absurd e
        ((left.plus_splits operator right).ne_whole (first.product_ends (stops_of_nil rfl)))
  | @plus us ws o a b left operator right ihl ihr =>
    intro us' a' h' e ea
    cases h' with
    | ofProduct first =>
      exact absurd e.symm
        ((left.plus_splits operator right).ne_whole (first.product_ends (stops_of_nil rfl)))
    | plus left' operator' right' =>
      obtain ⟨rfl, rfl, rfl⟩ :=
        (left.plus_splits operator right).unique (left'.plus_splits operator' right') e
      cases ea
      cases eq_of_heq (ihl left' rfl rfl)
      cases eq_of_heq (ihr right' rfl rfl)
      exact HEq.rfl

end Arith

section Condition

variable {us ws us' ts : List Token} {o l r : Token} {a a' : Arith} {b b' : Condition}

theorem ConditionDerivation.term_ends (h : ConditionDerivation .term us b)
    (hs : Stops ["*", "/", "+", "-"] ts) : Ends conditionTerm us ts := by
  rintro c d hc rfl
  exact ⟨b, h.runs hc hs⟩

theorem ConditionDerivation.conjunction_ends (h : ConditionDerivation .conjunction us b)
    (hs : Stops ["*", "/", "+", "-", "and"] ts) : Ends Grammar.conjunction us ts := by
  rintro c d hc rfl
  exact ⟨b, (h.runs hc (hs.mono (by simp))).matches (operator_fails (hs.mono (by simp)))⟩

theorem ConditionDerivation.ends (h : ConditionDerivation .disjunction us b)
    (hs : Stops ["*", "/", "+", "-", "and", "or"] ts) : Ends condition us ts := by
  rintro c d hc rfl
  exact ⟨b, h.matches hc hs⟩

theorem ConditionDerivation.and_splits (left : ConditionDerivation .conjunction us b)
    (operator : o.isReserved "and") (right : ConditionDerivation .term ws b') :
    Splits conditionTerm (.tryMap connective? (anyOf ["and"])) us o ws := by
  apply splits_of_parts
  · exact fun hc hd => ⟨b, left.runs hc (hd.stops_reserved operator)⟩
  · exact fun ho => ⟨_, connective_matches ho operator rfl⟩
  · exact right.term_ends (stops_of_nil rfl)
  · exact fun hz => operator_fails (stops_of_nil hz)

theorem ConditionDerivation.or_splits (left : ConditionDerivation .disjunction us b)
    (operator : o.isReserved "or") (right : ConditionDerivation .conjunction ws b') :
    Splits Grammar.conjunction (.tryMap connective? (anyOf ["or"])) us o ws := by
  apply splits_of_parts
  · exact fun hc hd => ⟨b, left.runs hc (hd.stops_reserved operator)⟩
  · exact fun ho => ⟨_, connective_matches ho operator rfl⟩
  · exact right.conjunction_ends (stops_of_nil rfl)
  · exact fun hz => operator_fails (stops_of_nil hz)

/-- A relation ends its left side; it does not begin where a condition stands in parentheses. -/
theorem relation_ne_parentheses (left : ArithDerivation .sum us a) (operator : o.isOneOf relations)
    (opening : l.isReserved "(") (inner : ConditionDerivation .disjunction us' b) :
    us ++ o :: ws ≠ l :: (us' ++ [r]) := by
  intro e
  obtain ⟨c, z, hc⟩ : ∃ c z, Cursor.Past (us ++ o :: ws) c z := ⟨_, _, Cursor.past_all _⟩
  obtain ⟨d, hl, hd⟩ := hc.split
  have hm := left.matches hl (hd.stops (relation_not_arithmetic operator))
  rw [e] at hc
  obtain ⟨x, hx, h⟩ := hc.uncons
  obtain ⟨y, hy, -⟩ := h.split
  exact hm.not_fails ((inner.blocked hy).parentheses hx opening)

/-- A condition ends at the word behind it. -/
theorem ConditionDerivation.split (h : ConditionDerivation .disjunction us b) {w : String}
    (ho : o.isReserved w)
    (hw : w ∉ ["*", "/", "+", "-", "and", "or"] := by decide) : Ends condition us (o :: ws) :=
  h.ends (stops_cons (Token.isOneOf_eq_false ho hw))

theorem relation_split (left : ArithDerivation .sum us a) (operator : o.isOneOf relations) :
    Ends arithmetic us (o :: ws) :=
  left.ends (stops_cons (relation_not_arithmetic operator))

theorem ConditionDerivation.unique {l : ConditionLevel} (h : ConditionDerivation l us b) :
    ∀ {us' b'} (h' : ConditionDerivation l us' b'), us = us' → b = b' → HEq h h' := by
  induction h with
  | @negation o us b operator inner ih =>
    intro us' b' h' e eb
    cases h' with
    | negation operator' inner' =>
      cases e
      cases eb
      cases eq_of_heq (ih inner' rfl rfl)
      exact HEq.rfl
    | relation => cases eb
    | parentheses left' =>
      cases (List.cons.inj e).1
      exact absurd (Token.lexeme_of_isReserved operator)
        (by simp [Token.lexeme_of_isReserved left'])
  | @relation us ws o a b left operator right =>
    intro us' b' h' e eb
    cases h' with
    | negation => cases eb
    | relation left' operator' right' =>
      obtain ⟨rfl, rfl, rfl⟩ :=
        (relation_split left operator).split (relation_split left' operator') e
      cases eb
      cases eq_of_heq (left.unique left' rfl rfl)
      cases eq_of_heq (right.unique right' rfl rfl)
      exact HEq.rfl
    | parentheses left' inner' =>
      exact absurd e (relation_ne_parentheses left operator left' inner')
  | @parentheses l r us b left inner right ih =>
    intro us' b' h' e eb
    cases h' with
    | negation operator' =>
      cases (List.cons.inj e).1
      exact absurd (Token.lexeme_of_isReserved operator')
        (by simp [Token.lexeme_of_isReserved left])
    | relation left' operator' =>
      exact absurd e.symm (relation_ne_parentheses left' operator' left inner)
    | parentheses left' inner' right' =>
      obtain ⟨rfl, e'⟩ := List.cons.inj e
      obtain ⟨rfl, e''⟩ := List.append_inj' e' rfl
      cases e''
      cases eb
      cases eq_of_heq (ih inner' rfl rfl)
      exact HEq.rfl
  | @ofTerm us b first ih =>
    intro us' b' h' e eb
    cases h' with
    | ofTerm first' =>
      cases e
      cases eb
      cases eq_of_heq (ih first' rfl rfl)
      exact HEq.rfl
    | and left operator right =>
      exact absurd e
        ((left.and_splits operator right).ne_whole (first.term_ends (stops_of_nil rfl)))
  | @and us ws o a b left operator right ihl ihr =>
    intro us' b' h' e eb
    cases h' with
    | ofTerm first =>
      exact absurd e.symm
        ((left.and_splits operator right).ne_whole (first.term_ends (stops_of_nil rfl)))
    | and left' operator' right' =>
      obtain ⟨rfl, rfl, rfl⟩ :=
        (left.and_splits operator right).unique (left'.and_splits operator' right') e
      cases eb
      cases eq_of_heq (ihl left' rfl rfl)
      cases eq_of_heq (ihr right' rfl rfl)
      exact HEq.rfl
  | @ofConjunction us b first ih =>
    intro us' b' h' e eb
    cases h' with
    | ofConjunction first' =>
      cases e
      cases eb
      cases eq_of_heq (ih first' rfl rfl)
      exact HEq.rfl
    | or left operator right =>
      exact absurd e
        ((left.or_splits operator right).ne_whole (first.conjunction_ends (stops_of_nil rfl)))
  | @or us ws o a b left operator right ihl ihr =>
    intro us' b' h' e eb
    cases h' with
    | ofConjunction first =>
      exact absurd e.symm
        ((left.or_splits operator right).ne_whole (first.conjunction_ends (stops_of_nil rfl)))
    | or left' operator' right' =>
      obtain ⟨rfl, rfl, rfl⟩ :=
        (left.or_splits operator right).unique (left'.or_splits operator' right') e
      cases eb
      cases eq_of_heq (ihl left' rfl rfl)
      cases eq_of_heq (ihr right' rfl rfl)
      exact HEq.rfl

end Condition

section Statement

variable {us ws ts : List Token} {o : Token} {s t : Statement}

theorem StatementDerivation.single_ends (h : StatementDerivation .single us s)
    (hs : Stops ["*", "/", "+", "-"] ts) : Ends statement us ts := by
  rintro c d hc rfl
  exact ⟨s, h.runs hc fun _ => hs⟩

theorem StatementDerivation.ends (h : StatementDerivation .list us s)
    (hs : Stops ["*", "/", "+", "-", ";"] ts) : Ends statements us ts := by
  rintro c d hc rfl
  exact ⟨s, h.matches hc hs⟩

theorem StatementDerivation.split (h : StatementDerivation .list us s) {w : String}
    (ho : o.isReserved w)
    (hw : w ∉ ["*", "/", "+", "-", ";"] := by decide) : Ends statements us (o :: ws) :=
  h.ends (stops_cons (Token.isOneOf_eq_false ho hw))

theorem StatementDerivation.sequence_splits (left : StatementDerivation .list us s)
    (operator : o.isReserved ";") (right : StatementDerivation .single ws t) :
    Splits statement (.map (fun _ => .compound) (keyword ";")) us o ws := by
  apply splits_of_parts
  · exact fun hc hd => ⟨s, left.runs hc (hd.stops_reserved operator)⟩
  · exact fun ho => ⟨_, semicolon_matches ho operator⟩
  · exact right.single_ends (stops_of_nil rfl)
  · exact fun hz => fails_map.2 (keyword_fails (stops_of_nil hz))

theorem StatementDerivation.unique {l : StatementLevel} (h : StatementDerivation l us s) :
    ∀ {us' s'} (h' : StatementDerivation l us' s'), us = us' → s = s' → HEq h h' := by
  induction h with
  | @assign x o us a name operator value =>
    intro us' s' h' e es
    cases h' with
    | assign name' operator' value' =>
      cases e
      cases es
      cases eq_of_heq (value.unique value' rfl rfl)
      exact HEq.rfl
    | _ => cases es
  | @ifThen i h f us ws b s opening condition middle body closing ih =>
    intro us' s' h' e es
    cases h' with
    | ifThen opening' condition' middle' body' closing' =>
      obtain ⟨rfl, e1⟩ := List.cons.inj e
      obtain ⟨rfl, rfl, e2⟩ := (condition.split middle).split (condition'.split middle') e1
      obtain ⟨rfl, e3⟩ := List.append_inj' e2 rfl
      cases e3
      cases es
      cases eq_of_heq (condition.unique condition' rfl rfl)
      cases eq_of_heq (ih body' rfl rfl)
      exact HEq.rfl
    | _ => cases es
  | @ifThenElse i h l f us ws xs b s t opening condition middle body otherwise alternative closing
    ihs iht =>
    intro us' s' h' e es
    cases h' with
    | ifThenElse opening' condition' middle' body' otherwise' alternative' closing' =>
      obtain ⟨rfl, e1⟩ := List.cons.inj e
      obtain ⟨rfl, rfl, e2⟩ := (condition.split middle).split (condition'.split middle') e1
      obtain ⟨rfl, rfl, e3⟩ := (body.split otherwise).split (body'.split otherwise') e2
      obtain ⟨rfl, e4⟩ := List.append_inj' e3 rfl
      cases e4
      cases es
      cases eq_of_heq (condition.unique condition' rfl rfl)
      cases eq_of_heq (ihs body' rfl rfl)
      cases eq_of_heq (iht alternative' rfl rfl)
      exact HEq.rfl
    | _ => cases es
  | @whileDo w m f us ws b s opening condition middle body closing ih =>
    intro us' s' h' e es
    cases h' with
    | whileDo opening' condition' middle' body' closing' =>
      obtain ⟨rfl, e1⟩ := List.cons.inj e
      obtain ⟨rfl, rfl, e2⟩ := (condition.split middle).split (condition'.split middle') e1
      obtain ⟨rfl, e3⟩ := List.append_inj' e2 rfl
      cases e3
      cases es
      cases eq_of_heq (condition.unique condition' rfl rfl)
      cases eq_of_heq (ih body' rfl rfl)
      exact HEq.rfl
    | _ => cases es
  | @repeatTimes r n m f us k s opening kind count middle body closing ih =>
    intro us' s' h' e es
    cases h' with
    | repeatTimes opening' kind' count' middle' body' closing' =>
      obtain ⟨rfl, e1⟩ := List.cons.inj e
      obtain ⟨rfl, e2⟩ := List.cons.inj e1
      obtain ⟨rfl, e3⟩ := List.cons.inj e2
      obtain ⟨rfl, e4⟩ := List.append_inj' e3 rfl
      cases e4
      cases es
      cases eq_of_heq (ih body' rfl rfl)
      exact HEq.rfl
    | _ => cases es
  | @ofSingle us s first ih =>
    intro us' s' h' e es
    cases h' with
    | ofSingle first' =>
      cases e
      cases es
      cases eq_of_heq (ih first' rfl rfl)
      exact HEq.rfl
    | sequence left operator right =>
      exact absurd e
        ((left.sequence_splits operator right).ne_whole (first.single_ends (stops_of_nil rfl)))
  | @sequence us ws o s t left operator right ihs iht =>
    intro us' s' h' e es
    cases h' with
    | ofSingle first =>
      exact absurd e.symm
        ((left.sequence_splits operator right).ne_whole (first.single_ends (stops_of_nil rfl)))
    | sequence left' operator' right' =>
      obtain ⟨rfl, rfl, rfl⟩ :=
        (left.sequence_splits operator right).unique (left'.sequence_splits operator' right') e
      cases es
      cases eq_of_heq (ihs left' rfl rfl)
      cases eq_of_heq (iht right' rfl rfl)
      exact HEq.rfl

end Statement

namespace Grammar

theorem rules_wellFormed : WellFormed rules where
  advances _ r := by cases r <;> rfl
  repeatsSoundly _ r := by cases r <;> rfl
  guarded _ r := by cases r <;> rfl

variable {α : Type} {p : Parser Nonterminal α} {c d : Cursor}

theorem matchAt_ne_unfinished (hp : p.repeatsSoundly = true) : Grammar.matchAt p c ≠ .unfinished :=
  run_ne_unfinished rules_wellFormed hp (Nat.lt_succ_self _)

/-- The bound of a match at a cursor is room enough for it. -/
theorem matchAt_eq_matched (hp : p.repeatsSoundly = true) {v : α} :
    Grammar.matchAt p c = .matched v d ↔ Matches rules p c v d := by
  constructor
  · exact fun h => ⟨_, h⟩
  · rintro ⟨n, h⟩
    exact (run_grows rules p c).unique (matchAt_ne_unfinished hp) (by simp) ⟨_, rfl⟩ ⟨n, h⟩

theorem matchAt_eq_failed (hp : p.repeatsSoundly = true) :
    Grammar.matchAt p c = .failed ↔ Fails rules p c := by
  constructor
  · exact fun h => ⟨_, h⟩
  · rintro ⟨n, h⟩
    exact (run_grows rules p c).unique (matchAt_ne_unfinished hp) (by simp) ⟨_, rfl⟩ ⟨n, h⟩

/-- A part of the grammar that never matches fails, since its runs end. -/
theorem fails_iff (hp : p.repeatsSoundly = true) :
    Fails rules p c ↔ ∀ v d, ¬ Matches rules p c v d := by
  refine ⟨fun h v d hm => hm.not_fails h, fun h => ?_⟩
  cases ho : Grammar.matchAt p c with
  | unfinished => exact absurd ho (matchAt_ne_unfinished hp)
  | failed => exact ⟨_, ho⟩
  | matched v d => exact absurd ⟨_, ho⟩ (h v d)

variable {r : Nonterminal α} {us : List Token} {v : α}

theorem Derived.matches (h : Derived α r us v) (hc : c.Past us d) (hd : d.rest = []) :
    Matches rules (rules α r) c v d := by
  cases r with
  | statements => exact h.elim fun h => h.matches hc (stops_of_nil hd)
  | arithmetic => exact h.elim fun h => h.matches hc (stops_of_nil hd)
  | condition => exact h.elim fun h => h.matches hc (stops_of_nil hd)
  | conditionTerm => exact h.elim fun h => h.runs hc (stops_of_nil hd)

/-- Up to the end of the tokens, a rule matches what they derive. -/
theorem matches_whole : Matches rules (.phrase (rules α r)) (.ofTokens us 0) v d ↔
    Derived α r us v ∧ d = ⟨us.length, []⟩ := by
  constructor
  · intro h
    obtain ⟨h, hd⟩ := matches_phrase.1 h
    obtain ⟨ws, hp, hr⟩ := h.reads rules_read
    have he : d.rest = [] := by simpa [Cursor.atEnd] using hd
    obtain rfl : us = ws := by simpa [Cursor.ofTokens, he] using hp.rest
    have hpos : d.position = us.length := by simpa [Cursor.ofTokens] using hp.position
    exact ⟨rules_read α r us v hr, by rw [← hpos, ← he]⟩
  · rintro ⟨h, rfl⟩
    exact matches_phrase.2 ⟨h.matches (Cursor.past_all us) rfl, rfl⟩

theorem matches_program {t : List Token} {s : Statement} :
    Matches rules program (.ofTokens t 0) s d ↔ Derives t s ∧ d = ⟨t.length, []⟩ :=
  matches_whole (r := .statements)

theorem matchAt_program {t : List Token} {s : Statement} :
    Grammar.matchAt program (.ofTokens t 0) = .matched s ⟨t.length, []⟩ ↔ Derives t s := by
  rw [matchAt_eq_matched rfl, matches_program]
  simp

theorem matchAt_program_failed {t : List Token} :
    Grammar.matchAt program (.ofTokens t 0) = .failed ↔ ∀ s, ¬ Derives t s := by
  rw [matchAt_eq_failed rfl, fails_iff rfl]
  simp [matches_program]

end Grammar

theorem parse?_eq_some {t : List Token} {s : Statement} : parse? t = some s ↔ Derives t s := by
  rw [← matchAt_program, parse?]
  cases h : Grammar.matchAt program (.ofTokens t 0) with
  | unfinished | failed => simp [Outcome.value?]
  | matched v d =>
    obtain ⟨-, rfl⟩ := matches_program.1 ⟨_, h⟩
    simp [Outcome.value?]

theorem Derives.unique {t : List Token} {s s' : Statement} (h : Derives t s) (h' : Derives t s') :
    s = s' :=
  Option.some.inj ((parse?_eq_some.2 h).symm.trans (parse?_eq_some.2 h'))

/-- A token list has at most one derivation, of whatever statement. -/
theorem derivation_subsingleton (t : List Token) :
    Subsingleton (Σ s, StatementDerivation .list t s) := by
  refine ⟨fun ⟨s, h⟩ ⟨s', h'⟩ => ?_⟩
  obtain rfl := Derives.unique ⟨h⟩ ⟨h'⟩
  rw [eq_of_heq (h.unique h' rfl rfl)]

/-- The parser accepts its grammar: it matches exactly what has a derivation, to the last token,
and no choice or greedy repetition hides another reading. -/
theorem parser_recognizes_grammar (t : List Token) (s : Statement) :
    (Grammar.matchAt program (.ofTokens t 0) = .matched s ⟨t.length, []⟩ ↔ Derives t s) ∧
      (Grammar.matchAt program (.ofTokens t 0) = .failed ↔ ∀ s, ¬ Derives t s) ∧
        (parse? t = some s ↔ Derives t s) ∧ Subsingleton (Σ s, StatementDerivation .list t s) :=
  ⟨matchAt_program, matchAt_program_failed, parse?_eq_some, derivation_subsingleton t⟩

end ImpLang
