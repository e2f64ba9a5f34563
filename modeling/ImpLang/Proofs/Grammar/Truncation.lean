import ImpLang.Proofs.Grammar.Balance
import ImpLang.Proofs.Grammar.Recognition

/-! Programs cut short. The first tokens of a program are a program themselves exactly when the cut
stands outside all parentheses and blocks, in front of an operator of arithmetic or a semicolon. So
no program is left when its last token is dropped. -/

namespace ImpLang

/-- The words behind which a program goes on, and in front of which it may end. -/
def goesOn : List String := [";", "+", "-", "*", "/"]

variable {us ws xs ys zs : List Token} {l o o' r t : Token} {w : String} {d : Delimiter}

theorem not_isReserved_of_goesOn (ho : o.isOneOf goesOn = true) (hw : w ∉ goesOn := by decide) :
    o.isReserved w = false := by
  rw [Bool.eq_false_iff]
  intro h
  rw [Token.isOneOf_eq_false h hw] at ho
  cases ho

/-- Of two places in a list, the second comes first, both are one, or the first comes first. -/
theorem cut_cases (e : us ++ o' :: ws = xs ++ o :: ys) :
    (∃ zs, us = xs ++ o :: zs) ∨ us = xs ∨ ∃ zs, xs = us ++ o' :: zs ∧ ws = zs ++ o :: ys := by
  rcases List.append_eq_append_iff.1 e with ⟨zs, rfl, hz⟩ | ⟨zs, rfl, hz⟩
  · rcases List.cons_eq_append_iff.1 hz with ⟨rfl, -⟩ | ⟨vs, rfl, hv⟩
    · exact Or.inr (Or.inl (List.append_nil us).symm)
    · exact Or.inr (Or.inr ⟨vs, rfl, hv⟩)
  · rcases List.cons_eq_append_iff.1 hz with ⟨rfl, -⟩ | ⟨zs, rfl, -⟩
    · exact Or.inr (Or.inl (List.append_nil xs))
    · exact Or.inl ⟨zs, rfl⟩

namespace Balanced

theorem depth_join (hu : Balanced d us) (ho : d.depth [o] = 0) :
    d.depth (us ++ o :: zs) = d.depth zs := by
  rw [d.depth_append, d.depth_cons, hu.whole, ho]
  omega

/-- A cut within an enclosed stretch leaves open what the first word opens. -/
theorem weight_le_of_cut (h : Balanced d us) (hl : l.isReserved w = true)
    (e : l :: (us ++ [r]) = xs ++ o :: ys) (hne : o.isReserved w = false) :
    d.weight w ≤ d.depth xs := by
  rcases List.cons_eq_append_iff.1 e with ⟨-, hx⟩ | ⟨xs, rfl, hx⟩
  · obtain ⟨rfl, -⟩ := List.cons.inj hx
    rw [hl] at hne
    cases hne
  · rcases cut_cases hx with ⟨zs, rfl⟩ | rfl | ⟨zs, -, hz⟩
    · exact h.weight_le_depth hl (List.prefix_append xs _)
    · exact h.weight_le_depth hl (List.prefix_refl us)
    · simp at hz

end Balanced

theorem ArithDerivation.cut {l : ArithLevel} {a : Arith} (h : ArithDerivation l us a)
    (e : us = xs ++ o :: ys) (ho : o.isOneOf goesOn = true)
    (hd : Delimiter.parenthesis.depth xs = 0) : ∃ b, Nonempty (ArithDerivation l xs b) := by
  have hkind := Token.kind_of_isOneOf ho
  induction h generalizing xs ys with
  | @int t n kind | @var t kind =>
    obtain rfl : o = t := by simpa using (e ▸ by simp : o ∈ [t])
    rw [kind] at hkind
    cases hkind
  | parentheses left inner right =>
    have hdepth := (inner.balanced .parenthesis).weight_le_of_cut left e
      (not_isReserved_of_goesOn ho)
    rw [hd] at hdepth
    exact absurd hdepth (by decide)
  | ofTerm _ ih =>
    obtain ⟨b, ⟨h⟩⟩ := ih e hd
    exact ⟨b, ⟨.ofTerm h⟩⟩
  | ofProduct _ ih =>
    obtain ⟨b, ⟨h⟩⟩ := ih e hd
    exact ⟨b, ⟨.ofProduct h⟩⟩
  | @times us ws o' a b left operator right ihl ihr =>
    rcases cut_cases e with ⟨zs, hz⟩ | rfl | ⟨zs, rfl, hz⟩
    · exact ihl hz hd
    · exact ⟨a, ⟨left⟩⟩
    · rw [(left.balanced _).depth_join (Delimiter.depth_other operator)] at hd
      obtain ⟨b, ⟨h⟩⟩ := ihr hz hd
      exact ⟨_, ⟨.times left operator h⟩⟩
  | @plus us ws o' a b left operator right ihl ihr =>
    rcases cut_cases e with ⟨zs, hz⟩ | rfl | ⟨zs, rfl, hz⟩
    · exact ihl hz hd
    · exact ⟨a, ⟨left⟩⟩
    · rw [(left.balanced _).depth_join (Delimiter.depth_other operator)] at hd
      obtain ⟨b, ⟨h⟩⟩ := ihr hz hd
      exact ⟨_, ⟨.plus left operator h⟩⟩

theorem SingleShape.cut (h : SingleShape us) (e : us = xs ++ o :: ys)
    (ho : o.isOneOf goesOn = true) (hd : ∀ d : Delimiter, d.depth xs = 0) :
    ∃ s, Nonempty (StatementDerivation .single xs s) := by
  have hkind := Token.kind_of_isOneOf ho
  cases h with
  | @assignment x o' us a name operator value =>
    rcases List.cons_eq_append_iff.1 e with ⟨rfl, hx⟩ | ⟨xs, rfl, hx⟩
    · obtain ⟨rfl, -⟩ := List.cons.inj hx
      rw [name] at hkind
      cases hkind
    rcases List.cons_eq_append_iff.1 hx with ⟨rfl, hy⟩ | ⟨zs, rfl, hz⟩
    · obtain ⟨rfl, -⟩ := List.cons.inj hy
      rw [not_isReserved_of_goesOn ho] at operator
      cases operator
    · have hdepth := hd .parenthesis
      have hx' : Delimiter.parenthesis.depth [x] = 0 :=
        Delimiter.depth_of_kind (by rw [name]; decide)
      have ho' : Delimiter.parenthesis.depth [o'] = 0 :=
        Delimiter.depth_other (Token.isOneOf_singleton.2 operator)
      rw [Delimiter.depth_cons _ x, hx', Delimiter.depth_cons _ o', ho', Int.zero_add,
        Int.zero_add] at hdepth
      obtain ⟨b, ⟨h⟩⟩ := value.cut hz ho hdepth
      exact ⟨_, ⟨.assign name operator h⟩⟩
  | block opening inner closing =>
    obtain ⟨w, hw, hl⟩ := Token.isOneOf_iff.1 opening
    have hword : ∀ w ∈ Delimiter.block.opening, w ∉ goesOn ∧ Delimiter.block.weight w = 1 := by
      decide
    have hdepth := (inner .block).weight_le_of_cut hl e (not_isReserved_of_goesOn ho (hword w hw).1)
    rw [hd .block, (hword w hw).2] at hdepth
    exact absurd hdepth (by decide)

theorem StatementDerivation.cut {s : Statement} (h : StatementDerivation .list us s)
    (e : us = xs ++ o :: ys) (ho : o.isOneOf goesOn = true) (hd : ∀ d : Delimiter, d.depth xs = 0) :
    ∃ t, Nonempty (StatementDerivation .list xs t) := by
  generalize hl : StatementLevel.list = l at h
  induction h generalizing xs ys with
  | ofSingle first =>
    obtain ⟨t, ⟨h⟩⟩ := first.shape.cut e ho hd
    exact ⟨t, ⟨.ofSingle h⟩⟩
  | @sequence us ws o' s t left operator right ih =>
    rcases cut_cases e with ⟨zs, hz⟩ | rfl | ⟨zs, rfl, hz⟩
    · exact ih hz hd rfl
    · exact ⟨s, ⟨left⟩⟩
    · have ho' (d : Delimiter) : d.depth [o'] = 0 :=
        Delimiter.depth_other (Token.isOneOf_singleton.2 operator)
      have hzs (d : Delimiter) : d.depth zs = 0 := by
        rw [← (left.shape d).depth_join (ho' d), hd d]
      obtain ⟨t, ⟨h⟩⟩ := right.shape.cut hz ho hzs
      exact ⟨_, ⟨.sequence left operator h⟩⟩
  | _ => cases hl

/-! The last token. -/

/-- The last token is there, and behind it nothing has to follow. -/
def EndsClosed (ts : List Token) : Prop := ∃ us t, ts = us ++ [t] ∧ t.isOneOf goesOn = false

theorem EndsClosed.append (h : EndsClosed ws) (us : List Token) : EndsClosed (us ++ ws) := by
  obtain ⟨xs, t, rfl, ht⟩ := h
  exact ⟨us ++ xs, t, (List.append_assoc ..).symm, ht⟩

theorem ArithDerivation.endsClosed {l : ArithLevel} {a : Arith} (h : ArithDerivation l us a) :
    EndsClosed us := by
  have hkind {t : Token} (ht : t.kind ≠ .reserved) : EndsClosed [t] :=
    ⟨[], t, rfl, Bool.eq_false_iff.2 fun h => ht (Token.kind_of_isOneOf h)⟩
  induction h with
  | int kind | var kind => exact hkind (by rw [kind]; decide)
  | @parentheses l r us a left inner right =>
    exact ⟨l :: us, r, rfl, Token.isOneOf_eq_false right (by decide)⟩
  | ofTerm _ ih | ofProduct _ ih => exact ih
  | @times us _ o _ _ _ _ _ _ ih | @plus us _ o _ _ _ _ _ _ ih =>
    simpa using ih.append (us ++ [o])

theorem SingleShape.endsClosed (h : SingleShape us) : EndsClosed us := by
  cases h with
  | @assignment x o us a name operator value => exact value.endsClosed.append [x, o]
  | @block l r us opening inner closing =>
    exact ⟨l :: us, r, rfl, Token.isOneOf_eq_false closing (by decide)⟩

theorem Derives.endsClosed {s : Statement} (h : Derives us s) : EndsClosed us := by
  obtain ⟨h⟩ := h
  generalize hl : StatementLevel.list = l at h
  cases h with
  | ofSingle first => exact first.shape.endsClosed
  | @sequence us ws o s t left operator right =>
    simpa using right.shape.endsClosed.append (us ++ [o])
  | _ => cases hl

/-! The parser reads a program as far as it goes on. -/

theorem Derives.goesOn {s t : Statement} (h : Derives (us ++ o :: ws) s) (ht : Derives us t) :
    o.isOneOf goesOn = true := by
  obtain ⟨h⟩ := h
  obtain ⟨ht⟩ := ht
  rw [← Bool.not_eq_false]
  intro hn
  -- it would stop in front of the token, and it reads to the end
  have hstops : Stops ["*", "/", "+", "-", ";"] (o :: ws) :=
    (stops_cons hn).mono (by simp [ImpLang.goesOn])
  have hfront := ht.matches (Cursor.past_front us (o :: ws)) hstops
  have hall := h.matches (Cursor.past_all (us ++ o :: ws)) (stops_of_nil rfl)
  have hrest := congrArg Cursor.rest (hfront.unique hall).2
  cases hrest

theorem derives_front_iff {s : Statement} (h : Derives (us ++ o :: ws) s) :
    (∃ t, Derives us t) ↔ o.isOneOf goesOn = true ∧ ∀ d : Delimiter, d.depth us = 0 := by
  constructor
  · rintro ⟨t, ht⟩
    exact ⟨h.goesOn ht, fun d => (ht.balanced d).whole⟩
  · rintro ⟨ho, hd⟩
    obtain ⟨h⟩ := h
    exact h.cut rfl ho hd

theorem isSome_parse?_iff : (parse? us).isSome = true ↔ ∃ t, Derives us t := by
  simp [Option.isSome_iff_exists, parse?_eq_some]

/-- Cut in front of a token, a program is left exactly if the token is a semicolon or an operator of
arithmetic and nothing is open there. Without its last token it is no program. -/
theorem truncation_parses_iff {ts : List Token} {s : Statement} (h : parse? ts = some s) :
    (∀ k, (hk : k < ts.length) → ((parse? (ts.take k)).isSome = true ↔
      (ts[k].isOneOf [";", "+", "-", "*", "/"] = true ∧
        ∀ d : Delimiter, d.depth (ts.take k) = 0))) ∧
      parse? ts.dropLast = none := by
  rw [parse?_eq_some] at h
  constructor
  · intro k hk
    have hsplit : ts.take k ++ ts[k] :: ts.drop (k + 1) = ts := by
      rw [← List.drop_eq_getElem_cons hk, List.take_append_drop]
    rw [isSome_parse?_iff]
    exact derives_front_iff (hsplit.symm ▸ h)
  · obtain ⟨us, t, rfl, ht⟩ := h.endsClosed
    rw [List.dropLast_concat, ← Option.not_isSome_iff_eq_none, isSome_parse?_iff,
      derives_front_iff h, ht]
    simp

/-- The tokens of `x := (1 + 2) * y`. -/
def productTokens : List Token :=
  [⟨.identifier, "x", {}⟩, ⟨.reserved, ":=", {}⟩, ⟨.reserved, "(", {}⟩, ⟨.integer, "1", {}⟩,
    ⟨.reserved, "+", {}⟩, ⟨.integer, "2", {}⟩, ⟨.reserved, ")", {}⟩, ⟨.reserved, "*", {}⟩,
    ⟨.identifier, "y", {}⟩]

theorem product_cut_short :
    parse? productTokens = some (.assign "x"
      (.operation "*" (.operation "+" (.int 1) (.int 2)) (.var "y"))) ∧
      (parse? (productTokens.take 7)).isSome = true ∧
        (parse? (productTokens.take 4)).isSome = false ∧ parse? productTokens.dropLast = none := by
  have h : parse? productTokens = some (.assign "x"
      (.operation "*" (.operation "+" (.int 1) (.int 2)) (.var "y"))) := by decide +kernel
  obtain ⟨hcut, hlast⟩ := truncation_parses_iff h
  have houtside : ∀ d : Delimiter, d.depth (productTokens.take 7) = 0 := by
    intro d
    cases d <;> decide
  have hinside : ¬ ∀ d : Delimiter, d.depth (productTokens.take 4) = 0 := fun hd =>
    absurd (hd .parenthesis) (by decide)
  refine ⟨h, (hcut 7 (by decide)).2 ⟨by decide, houtside⟩, ?_, hlast⟩
  rw [Bool.eq_false_iff, Ne, hcut 4 (by decide)]
  exact fun hboth => hinside hboth.2

end ImpLang
