import ImpLang.Proofs.Grammar.Soundness

/-! Whatever has a derivation, the grammar's parsers match, provided that no token follows with
which a level would go on. No choice stands in the way: the alternatives of a statement begin with
different words, and where an opening parenthesis begins a condition, arithmetic, which is tried
first, fails or stops in front of a relation. -/

open ImpLang.Parser

namespace ImpLang

/-- No token of these words comes first. -/
def Stops (words : List String) (ts : List Token) : Prop := ∀ t ∈ ts.head?, t.isOneOf words = false

variable {words others : List String} {w : String} {t : Token} {us : List Token} {c d e : Cursor}

theorem Stops.mono (h : Stops words us) (hw : others ⊆ words) : Stops others us := by
  intro t ht
  have := h t ht
  simp only [Token.isOneOf, List.any_eq_false] at this ⊢
  exact fun w hm => this w (hw hm)

theorem Cursor.Past.stops (h : c.Past (t :: us) d) (ht : t.isOneOf words = false) :
    Stops words c.rest := by
  intro u hu
  rw [h.head] at hu
  cases hu
  exact ht

theorem Cursor.Past.stops_reserved (h : c.Past (t :: us) d) (ht : t.isReserved w = true)
    (hw : w ∉ words := by decide) : Stops words c.rest :=
  h.stops (Token.isOneOf_eq_false ht hw)

namespace Grammar

variable {α : Type} {p : Parser Nonterminal α} {v : α}

theorem keyword_matches (h : c.Past [t] d) (ht : t.isReserved w = true) :
    Matches rules (keyword w) c t.lexeme d :=
  matches_reserved.2 ⟨t, h, ht, rfl⟩

theorem keyword_fails (h : Stops [w] c.rest) : Fails rules (keyword w) c :=
  fails_reserved.2 fun t ht => by simpa [Token.isOneOf] using h t ht

theorem right_matches (h : c.Past [t] d) (ht : t.isReserved w = true) (hp : Matches rules p d v e) :
    Matches rules (right (keyword w) p) c v e :=
  matches_map.2 ⟨(t.lexeme, v), matches_pair.2 ⟨d, keyword_matches h ht, hp⟩, rfl⟩

theorem right_fails (h : Stops [w] c.rest) : Fails rules (right (keyword w) p) c :=
  fails_map.2 (fails_pair.2 (Or.inl (keyword_fails h)))

theorem left_matches (hp : Matches rules p c v d) (h : d.Past [t] e) (ht : t.isReserved w = true) :
    Matches rules (left p (keyword w)) c v e :=
  matches_map.2 ⟨(v, t.lexeme), matches_pair.2 ⟨d, hp, keyword_matches h ht⟩, rfl⟩

theorem inParentheses_matches {l r : Token} {b : Cursor} (hl : c.Past [l] b)
    (left : l.isReserved "(" = true)
    (hp : Matches rules p b v d) (hr : d.Past [r] e) (right : r.isReserved ")" = true) :
    Matches rules (inParentheses p) c v e :=
  matches_map.2
    ⟨((l.lexeme, v), r.lexeme), matches_pair.2 ⟨d, matches_pair.2 ⟨b, keyword_matches hl left, hp⟩,
    keyword_matches hr right⟩, rfl⟩

theorem inParentheses_fails (h : Stops ["("] c.rest) : Fails rules (inParentheses p) c :=
  fails_map.2 (fails_pair.2 (Or.inl (fails_pair.2 (Or.inl (keyword_fails h)))))

theorem anyOf_matches (h : c.Past [t] d) (ht : t.isOneOf words = true) :
    Matches rules (anyOf words) c t.lexeme d := by
  -- the words behind an arbitrary first choice, which matches the token or fails
  suffices ∀ p : Parser Nonterminal String,
      Matches rules p c t.lexeme d ∨ Fails rules p c ∧ t.isOneOf words = true →
        Matches rules (words.foldl (fun p w => .either p (keyword w)) p) c t.lexeme d from
    this .failure (Or.inr ⟨failure_fails, ht⟩)
  clear ht
  induction words with
  | nil => exact fun p hp => hp.resolve_right (by simp [Token.isOneOf])
  | cons w words ih =>
    rintro p (hp | ⟨hp, ht⟩)
    · exact ih _ (Or.inl (matches_either.2 (Or.inl hp)))
    · cases hw : t.isReserved w with
      | true => exact ih _ (Or.inl (matches_either.2 (Or.inr ⟨hp, keyword_matches h hw⟩)))
      | false =>
        have hs : Stops [w] c.rest := h.stops (by simp [Token.isOneOf, hw])
        exact ih _ (Or.inr
          ⟨fails_either.2 ⟨hp, keyword_fails hs⟩, by simpa [Token.isOneOf, hw] using ht⟩)

theorem anyOf_fails (h : Stops words c.rest) : Fails rules (anyOf words) c := by
  suffices ∀ p : Parser Nonterminal String, Fails rules p c →
      Fails rules (words.foldl (fun p w => .either p (keyword w)) p) c from
    this .failure failure_fails
  induction words with
  | nil => exact fun p hp => hp
  | cons w words ih =>
    intro p hp
    have hs : Stops [w] c.rest := h.mono (by simp)
    exact ih (h.mono (by simp)) _ (fails_either.2 ⟨hp, keyword_fails hs⟩)

variable {join : String → Option (α → α → α)}

theorem operator_matches {f : α → α → α} (h : c.Past [t] d) (ht : t.isOneOf words = true)
    (hf : join t.lexeme = some f) : Matches rules (.tryMap join (anyOf words)) c f d :=
  matches_tryMap.2 ⟨t.lexeme, anyOf_matches h ht, hf⟩

theorem connective_matches {f : Condition → Condition → Condition} (h : c.Past [t] d)
    (ht : t.isReserved w = true) (hf : connective? w = some f) :
    Matches rules (.tryMap connective? (anyOf [w])) c f d := by
  obtain rfl := Token.lexeme_of_isReserved ht
  exact operator_matches h (Token.isOneOf_singleton.2 ht) hf

theorem operator_fails (h : Stops words c.rest) : Fails rules (.tryMap join (anyOf words)) c :=
  fails_tryMap.2 (Or.inl (anyOf_fails h))

/-! Arithmetic. A term ends by itself; a product or sum goes on as far as there are operators. -/

theorem number_fails (h : ∀ t ∈ c.rest.head?, t.kind ≠ .integer) : Fails rules number c :=
  fails_tryMap.2 (Or.inl (fails_tag.2 h))

theorem reserved_head (h : c.Past [t] d) (ht : t.isReserved w = true) :
    ∀ u ∈ c.rest.head?, u.kind = .reserved := by
  intro u hu
  rw [h.head] at hu
  cases hu
  exact Token.kind_of_isReserved ht

theorem literal_fails (h : ∀ t ∈ c.rest.head?, t.kind = .reserved) :
    Fails rules (.either (.map Arith.int number) (.map Arith.var identifier)) c := by
  refine fails_either.2 ⟨fails_map.2 (number_fails ?_), fails_map.2 (fails_tag.2 ?_)⟩
  · intro t ht
    simp [h t ht]
  · intro t ht
    simp [h t ht]

theorem arithmetic_fails (h : Fails rules arithmeticTerm c) : Fails rules arithmetic c :=
  fails_fold.2 (fails_fold.2 h)

end Grammar

open Grammar

theorem plus_not_times {o : Token} (h : o.isOneOf ["+", "-"] = true) :
    o.isOneOf ["*", "/"] = false :=
  Token.isOneOf_disjoint h (by decide)

def ArithLevel.Runs (us : List Token) (a : Arith) : ArithLevel → Prop
  | term => ∀ {c d}, c.Past us d → Matches rules arithmeticTerm c a d
  | product => ∀ {c d}, c.Past us d →
    Folds rules arithmeticTerm (.tryMap (fun op => some (.operation op)) (anyOf ["*", "/"])) c a d
  | sum => ∀ {c d}, c.Past us d → Stops ["*", "/"] d.rest →
    Folds rules Grammar.product (.tryMap (fun op => some (.operation op)) (anyOf ["+", "-"])) c a d

theorem ArithDerivation.runs {l : ArithLevel} {us : List Token} {a : Arith}
    (h : ArithDerivation l us a) : l.Runs us a := by
  induction h with
  | @int t n kind value =>
    intro c d hc
    refine matches_either.2 (Or.inl (matches_either.2 (Or.inl (matches_map.2 ⟨n, ?_, rfl⟩))))
    exact matches_tryMap.2 ⟨t.lexeme, matches_tag.2 ⟨t, hc, kind, rfl⟩, value⟩
  | @var t kind =>
    intro c d hc
    refine matches_either.2 (Or.inl (matches_either.2 (Or.inr ⟨fails_map.2 (number_fails ?_), ?_⟩)))
    · intro u hu
      rw [hc.head] at hu
      cases hu
      simp [kind]
    · exact matches_map.2 ⟨t.lexeme, matches_tag.2 ⟨t, hc, kind, rfl⟩, rfl⟩
  | @parentheses l r us a left inner right ih =>
    intro c d hc
    obtain ⟨b, hl, hc⟩ := hc.uncons
    obtain ⟨e, hi, hr⟩ := hc.split
    have hm : Matches rules arithmetic b a e :=
      (ih hi (hr.stops_reserved right)).matches
        (operator_fails (hr.stops_reserved right))
    refine matches_either.2 (Or.inr ⟨literal_fails (reserved_head hl left), ?_⟩)
    exact inParentheses_matches hl left (matches_call.2 hm) hr right
  | ofTerm _ ih => exact fun hc => .first (ih hc)
  | times _ operator _ ihl ihr =>
    intro c d hc
    obtain ⟨b, hl, hc⟩ := hc.split
    obtain ⟨e, ho, hr⟩ := hc.uncons
    exact (ihl hl).more (operator_matches ho operator rfl) (ihr hr)
  | ofProduct _ ih => exact fun hc hs => .first ((ih hc).matches (operator_fails hs))
  | @plus us ws o a b left operator right ihl ihr =>
    intro c d hc hs
    obtain ⟨b, hl, hc⟩ := hc.split
    obtain ⟨e, ho, hr⟩ := hc.uncons
    exact (ihl hl (hc.stops (plus_not_times operator))).more (operator_matches ho operator rfl)
      ((ihr hr).matches (operator_fails hs))

theorem ArithDerivation.matches {us : List Token} {a : Arith} {c d : Cursor}
    (h : ArithDerivation .sum us a)
    (hc : c.Past us d) (hs : Stops ["*", "/", "+", "-"] d.rest) : Matches rules arithmetic c a d :=
  (h.runs hc (hs.mono (by simp))).matches (operator_fails (hs.mono (by simp)))

namespace Grammar

theorem relation_not_arithmetic {o : Token} (h : o.isOneOf relations = true) :
    o.isOneOf ["*", "/", "+", "-"] = false :=
  Token.isOneOf_disjoint h (by decide)

/-- Arithmetic fails, or it stops in front of a relation. -/
def Blocked (c : Cursor) : Prop :=
  Fails rules arithmetic c ∨
    ∃ a d, Matches rules arithmetic c a d ∧ ∃ t ∈ d.rest.head?, t.isOneOf relations = true

/-- Behind an opening parenthesis, what stands behind the arithmetic is a relation and not a
closing one. -/
theorem Blocked.parentheses {c e : Cursor} {l : Token} (h : Blocked e) (hl : c.Past [l] e)
    (left : l.isReserved "(" = true) : Fails rules arithmetic c := by
  refine arithmetic_fails
    (fails_either.2 ⟨literal_fails (reserved_head hl left), fails_map.2 (fails_pair.2 ?_)⟩)
  rcases h with hf | ⟨a, x, hm, t, ht, hr⟩
  · exact Or.inl (fails_pair.2 (Or.inr ⟨_, e, keyword_matches hl left, fails_call.2 hf⟩))
  · refine Or.inr
      ⟨(l.lexeme, a), x, matches_pair.2 ⟨e, keyword_matches hl left, matches_call.2 hm⟩, ?_⟩
    refine keyword_fails fun u hu => ?_
    obtain rfl : t = u := Option.some.inj (ht.symm.trans hu)
    exact Token.isOneOf_disjoint hr (by decide)

end Grammar

theorem ConditionDerivation.blocked {l : ConditionLevel} {us : List Token} {b : Condition}
    (h : ConditionDerivation l us b) : ∀ {c d}, c.Past us d → Blocked c := by
  induction h with
  | @negation o us b operator =>
    intro c d hc
    obtain ⟨e, ho, -⟩ := hc.uncons
    refine Or.inl
      (arithmetic_fails (fails_either.2 ⟨literal_fails (reserved_head ho operator), ?_⟩))
    exact inParentheses_fails (ho.stops_reserved operator)
  | @relation us ws o a b left operator right =>
    intro c d hc
    obtain ⟨e, hl, hc⟩ := hc.split
    have hs := hc.stops (relation_not_arithmetic operator)
    exact Or.inr ⟨a, e, left.matches hl hs, o, hc.head, operator⟩
  | @parentheses l r us b left inner right ih =>
    intro c d hc
    obtain ⟨e, hl, hc⟩ := hc.uncons
    obtain ⟨x, hi, -⟩ := hc.split
    exact Or.inl ((ih hi).parentheses hl left)
  | ofTerm _ ih | ofConjunction _ ih => exact ih
  | and _ _ _ ih | or _ _ _ ih =>
    intro c d hc
    obtain ⟨e, hl, -⟩ := hc.split
    exact ih hl

theorem ArithDerivation.head {l : ArithLevel} {us : List Token} {a : Arith}
    (h : ArithDerivation l us a) :
    ∃ t ws, us = t :: ws ∧ (t.kind = .reserved → t.isReserved "(" = true) := by
  induction h with
  | int kind | var kind => exact ⟨_, _, rfl, by simp [kind]⟩
  | parentheses left => exact ⟨_, _, rfl, fun _ => left⟩
  | ofTerm _ ih | ofProduct _ ih => exact ih
  | times _ _ _ ih | plus _ _ _ ih =>
    obtain ⟨t, ws, rfl, ht⟩ := ih
    exact ⟨t, _, rfl, ht⟩

namespace Grammar

/-! A condition of each form, whatever follows it. -/

variable {ws : List Token} {l o r : Token} {x : Cursor} {a : Arith} {a' : Arith} {b : Condition}

theorem conditionTerm_negation (ho : c.Past [o] e) (operator : o.isReserved "not")
    (h : Matches rules conditionTerm e b d) : Matches rules conditionTerm c (.not b) d := by
  refine matches_either.2 (Or.inl (matches_either.2 (Or.inl (matches_map.2 ⟨b, ?_, rfl⟩))))
  exact right_matches ho operator (matches_call.2 h)

theorem conditionTerm_relation (hl : c.Past us e) (left : ArithDerivation .sum us a)
    (ho : e.Past [o] x) (operator : o.isOneOf relations) (h : Matches rules arithmetic x a' d) :
    Matches rules conditionTerm c (.relation o.lexeme a a') d := by
  have hm := left.matches hl (ho.stops (relation_not_arithmetic operator))
  refine matches_either.2 (Or.inl (matches_either.2 (Or.inr ⟨fails_map.2 (right_fails ?_), ?_⟩)))
  · obtain ⟨t, vs, rfl, ht⟩ := left.head
    refine hl.stops (Bool.eq_false_iff.2 fun hn => ?_)
    have hn := Token.isOneOf_singleton.1 hn
    have : t.isOneOf ["not"] = false :=
      Token.isOneOf_eq_false (ht (Token.kind_of_isReserved hn)) (by decide)
    simp [Token.isOneOf, hn] at this
  · exact matches_map.2 ⟨((a, o.lexeme), a'), matches_pair.2 ⟨x, matches_pair.2 ⟨e, hm,
      anyOf_matches ho operator⟩, h⟩, rfl⟩

theorem conditionTerm_parentheses (hl : c.Past [l] e) (left : l.isReserved "(")
    (hi : e.Past us x) (inner : ConditionDerivation .disjunction us b)
    (h : Matches rules condition e b x) (hr : x.Past [r] d) (right : r.isReserved ")") :
    Matches rules conditionTerm c b d := by
  refine matches_either.2 (Or.inr ⟨fails_either.2 ⟨?_, ?_⟩, ?_⟩)
  · exact fails_map.2 (right_fails (hl.stops_reserved left))
  · exact fails_map.2
      (fails_pair.2 (Or.inl (fails_pair.2 (Or.inl ((inner.blocked hi).parentheses hl left)))))
  · exact inParentheses_matches hl left (matches_call.2 h) hr right

end Grammar

def ConditionLevel.Runs (us : List Token) (b : Condition) : ConditionLevel → Prop
  | term => ∀ {c d}, c.Past us d → Stops ["*", "/", "+", "-"] d.rest →
    Matches rules conditionTerm c b d
  | conjunction => ∀ {c d}, c.Past us d → Stops ["*", "/", "+", "-"] d.rest →
    Folds rules conditionTerm (.tryMap connective? (anyOf ["and"])) c b d
  | disjunction => ∀ {c d}, c.Past us d → Stops ["*", "/", "+", "-", "and"] d.rest →
    Folds rules Grammar.conjunction (.tryMap connective? (anyOf ["or"])) c b d

theorem ConditionDerivation.runs {l : ConditionLevel} {us : List Token} {b : Condition}
    (h : ConditionDerivation l us b) : l.Runs us b := by
  induction h with
  | @negation o us b operator _ ih =>
    intro c d hc hs
    obtain ⟨e, ho, hc⟩ := hc.uncons
    exact conditionTerm_negation ho operator (ih hc hs)
  | @relation us ws o a b left operator right =>
    intro c d hc hs
    obtain ⟨e, hl, hc⟩ := hc.split
    obtain ⟨x, ho, hr⟩ := hc.uncons
    exact conditionTerm_relation hl left ho operator (right.matches hr hs)
  | @parentheses l r us b left inner right ih =>
    intro c d hc hs
    obtain ⟨e, hl, hc⟩ := hc.uncons
    obtain ⟨x, hi, hr⟩ := hc.split
    have hm : Matches rules condition e b x :=
      (ih hi (hr.stops_reserved right)).matches
        (operator_fails (hr.stops_reserved right))
    exact conditionTerm_parentheses hl left hi inner hm hr right
  | ofTerm _ ih => exact fun hc hs => .first (ih hc hs)
  | @and us ws o a b _ operator _ ihl ihr =>
    intro c d hc hs
    obtain ⟨e, hl, hc⟩ := hc.split
    obtain ⟨x, ho, hr⟩ := hc.uncons
    exact (ihl hl (hc.stops_reserved operator)).more (connective_matches ho operator rfl)
      (ihr hr hs)
  | ofConjunction _ ih =>
    intro c d hc hs
    exact .first ((ih hc (hs.mono (by simp))).matches (operator_fails (hs.mono (by simp))))
  | @or us ws o a b _ operator _ ihl ihr =>
    intro c d hc hs
    obtain ⟨e, hl, hc⟩ := hc.split
    obtain ⟨x, ho, hr⟩ := hc.uncons
    exact (ihl hl (hc.stops_reserved operator)).more (connective_matches ho operator rfl)
      ((ihr hr (hs.mono (by simp))).matches (operator_fails (hs.mono (by simp))))

theorem ConditionDerivation.matches {us : List Token} {b : Condition} {c d : Cursor}
    (h : ConditionDerivation .disjunction us b) (hc : c.Past us d)
    (hs : Stops ["*", "/", "+", "-", "and", "or"] d.rest) : Matches rules condition c b d :=
  (h.runs hc (hs.mono (by simp))).matches (operator_fails (hs.mono (by simp)))

/-! Statements. Each kind begins with a word of its own, assignments with an identifier. -/

/-- Other statements end with a word of their own. -/
def Statement.isAssignment : Statement → Bool
  | assign _ _ => true
  | _ => false

def StatementLevel.Runs (us : List Token) (s : Statement) : StatementLevel → Prop
  | single => ∀ {c d}, c.Past us d → (s.isAssignment = true → Stops ["*", "/", "+", "-"] d.rest) →
    Matches rules statement c s d
  | list => ∀ {c d}, c.Past us d → Stops ["*", "/", "+", "-"] d.rest →
    Folds rules statement (.map (fun _ => .compound) (keyword ";")) c s d

namespace Grammar

/-- Statements up to a word that closes them. -/
theorem list_matches {us : List Token} {s : Statement} {c d : Cursor}
    (h : StatementLevel.list.Runs us s)
    (hc : c.Past us d) (hs : Stops ["*", "/", "+", "-", ";"] d.rest) :
    Matches rules (.call .statements) c s d :=
  matches_call.2
    ((h hc (hs.mono (by simp))).matches (fails_map.2 (keyword_fails (hs.mono (by simp)))))

theorem semicolon_matches (h : c.Past [t] d) (ht : t.isReserved ";" = true) :
    Matches rules (.map (fun _ => .compound) (keyword ";")) c Statement.compound d :=
  matches_map.2 ⟨t.lexeme, keyword_matches h ht, rfl⟩

theorem statement_assignment {x o : Token} {a : Arith} {b : Cursor} (hx : c.Past [x] b)
    (name : x.kind = .identifier) (ho : b.Past [o] e) (operator : o.isReserved ":=")
    (h : Matches rules arithmetic e a d) : Matches rules statement c (.assign x.lexeme a) d := by
  refine matches_either.2 (Or.inl (matches_either.2 (Or.inl (matches_either.2 (Or.inl ?_)))))
  refine matches_map.2
    ⟨((x.lexeme, o.lexeme), a), matches_pair.2 ⟨e, matches_pair.2 ⟨b, ?_, ?_⟩, h⟩, rfl⟩
  · exact matches_tag.2 ⟨x, hx, name, rfl⟩
  · exact keyword_matches ho operator

theorem assignment_fails (h : ∀ t ∈ c.rest.head?, t.kind = .reserved) :
    Fails rules assignment c := by
  refine fails_map.2 (fails_pair.2 (Or.inl (fails_pair.2 (Or.inl (fails_tag.2 ?_)))))
  intro t ht
  simp [h t ht]

theorem ifStatement_fails (h : Stops ["if"] c.rest) : Fails rules ifStatement c :=
  fails_map.2 (fails_pair.2 (Or.inl (fails_pair.2 (Or.inl (right_fails h)))))

theorem whileStatement_fails (h : Stops ["while"] c.rest) : Fails rules whileStatement c :=
  fails_map.2 (fails_pair.2 (Or.inl (right_fails h)))

end Grammar

theorem StatementDerivation.runs {l : StatementLevel} {us : List Token} {s : Statement}
    (h : StatementDerivation l us s) : l.Runs us s := by
  induction h with
  | @assign x o us a name operator value =>
    intro c d hc hs
    obtain ⟨b, hx, hc⟩ := hc.uncons
    obtain ⟨e, ho, hc⟩ := hc.uncons
    exact statement_assignment hx name ho operator (value.matches hc (hs rfl))
  | @ifThen i h e us ws b s opening condition middle _ closing ih =>
    intro c d hc _
    obtain ⟨c1, hi, hc⟩ := hc.uncons
    obtain ⟨c2, hb, hc⟩ := hc.split
    obtain ⟨c3, hh, hc⟩ := hc.uncons
    obtain ⟨c4, hw, he⟩ := hc.split
    have hcond := condition.matches hb (hh.stops_reserved middle)
    have hbody := list_matches ih hw (he.stops_reserved closing)
    have hnone : Matches rules (.maybe (right (keyword "else") (.call .statements))) c4 none c4 :=
      matches_maybe_none (right_fails (he.stops_reserved closing))
    refine matches_either.2
      (Or.inl (matches_either.2 (Or.inl (matches_either.2 (Or.inr ⟨?_, ?_⟩)))))
    · exact assignment_fails (reserved_head hi opening)
    · refine matches_map.2
        ⟨((b, s), none), matches_pair.2 ⟨c4, matches_pair.2 ⟨c2, ?_, ?_⟩, ?_⟩, rfl⟩
      · exact right_matches hi opening hcond
      · exact right_matches hh middle hbody
      · exact left_matches hnone he closing
  | @ifThenElse i h l e us ws xs b s t opening condition middle _ otherwise _ closing ihs iht =>
    intro c d hc _
    obtain ⟨c1, hi, hc⟩ := hc.uncons
    obtain ⟨c2, hb, hc⟩ := hc.split
    obtain ⟨c3, hh, hc⟩ := hc.uncons
    obtain ⟨c4, hw, hc⟩ := hc.split
    obtain ⟨c5, hl, hc⟩ := hc.uncons
    obtain ⟨c6, hx, he⟩ := hc.split
    have hcond := condition.matches hb (hh.stops_reserved middle)
    have hbody := list_matches ihs hw (hl.stops_reserved otherwise)
    have helse := list_matches iht hx (he.stops_reserved closing)
    refine matches_either.2
      (Or.inl (matches_either.2 (Or.inl (matches_either.2 (Or.inr ⟨?_, ?_⟩)))))
    · exact assignment_fails (reserved_head hi opening)
    · refine matches_map.2
        ⟨((b, s), some t), matches_pair.2 ⟨c4, matches_pair.2 ⟨c2, ?_, ?_⟩, ?_⟩, rfl⟩
      · exact right_matches hi opening hcond
      · exact right_matches hh middle hbody
      · exact left_matches (matches_maybe_some (right_matches hl otherwise helse)) he closing
  | @whileDo w m e us ws b s opening condition middle _ closing ih =>
    intro c d hc _
    obtain ⟨c1, hi, hc⟩ := hc.uncons
    obtain ⟨c2, hb, hc⟩ := hc.split
    obtain ⟨c3, hm, hc⟩ := hc.uncons
    obtain ⟨c4, hw, he⟩ := hc.split
    have hcond := condition.matches hb (hm.stops_reserved middle)
    have hbody := list_matches ih hw (he.stops_reserved closing)
    refine matches_either.2 (Or.inl (matches_either.2 (Or.inr ⟨fails_either.2 ⟨?_, ?_⟩, ?_⟩)))
    · exact assignment_fails (reserved_head hi opening)
    · exact ifStatement_fails (hi.stops_reserved opening)
    · refine matches_map.2 ⟨(b, s), matches_pair.2 ⟨c2, right_matches hi opening hcond, ?_⟩, rfl⟩
      exact left_matches (right_matches hm middle hbody) he closing
  | @repeatTimes r n m e us k s opening kind count middle _ closing ih =>
    intro c d hc _
    obtain ⟨c1, hi, hc⟩ := hc.uncons
    obtain ⟨c2, hn, hc⟩ := hc.uncons
    obtain ⟨c3, hm, hc⟩ := hc.uncons
    obtain ⟨c4, hw, he⟩ := hc.split
    have hnumber : Matches rules number c1 k c2 :=
      matches_tryMap.2 ⟨n.lexeme, matches_tag.2 ⟨n, hn, kind, rfl⟩, count⟩
    have hbody := list_matches ih hw (he.stops_reserved closing)
    refine matches_either.2 (Or.inr ⟨fails_either.2 ⟨fails_either.2 ⟨?_, ?_⟩, ?_⟩, ?_⟩)
    · exact assignment_fails (reserved_head hi opening)
    · exact ifStatement_fails (hi.stops_reserved opening)
    · exact whileStatement_fails (hi.stops_reserved opening)
    · refine matches_map.2 ⟨(k, s), matches_pair.2 ⟨c2, right_matches hi opening hnumber, ?_⟩, rfl⟩
      exact left_matches (right_matches hm middle hbody) he closing
  | ofSingle _ ih => exact fun hc hs => .first (ih hc fun _ => hs)
  | @sequence us ws o s t _ operator _ ihs iht =>
    intro c d hc hs
    obtain ⟨b, hl, hc⟩ := hc.split
    obtain ⟨e, ho, hr⟩ := hc.uncons
    exact (ihs hl (hc.stops_reserved operator)).more (semicolon_matches ho operator)
      (iht hr fun _ => hs)

theorem StatementDerivation.matches {us : List Token} {s : Statement} {c d : Cursor}
    (h : StatementDerivation .list us s) (hc : c.Past us d)
    (hs : Stops ["*", "/", "+", "-", ";"] d.rest) : Matches rules statements c s d :=
  matches_call.1 (list_matches h.runs hc hs)

end ImpLang
