import ImpLang.Proofs.Scanner.Run
import ImpLang.Proofs.Text.Decimal

/-! What tokens look like. A lexeme that is written down is read back as the same token, provided
that no character follows with which it would run on; and whatever is read from a whole text is
such a lexeme. A keyword can be taken for a name only in front of a character that no rule
covers. -/

namespace ImpLang

/-- A name: a letter, then letters, digits and underscores, and not a keyword. -/
def IsName (x : String) : Prop :=
  (∃ c ∈ x.toList.head?, isLetter c = true) ∧ (∀ c ∈ x.toList, isAsciiWord c = true) ∧ x ∉ keywords

/-- A numeral: digits whose value fits a word. -/
def IsNumeral (x : String) : Prop :=
  x.toList ≠ [] ∧ (∀ c ∈ x.toList, c.isDigit = true) ∧ (Decimal.read? x).isSome = true

theorem isNumeral_iff {x : String} : IsNumeral x ↔ x.toList ≠ [] ∧
    (∀ c ∈ x.toList, c.isDigit = true) ∧ Decimal.value x.toList ≤ 9223372036854775807 := by
  refine and_congr_right fun hne => and_congr_right fun hd => ?_
  have hread := Decimal.read?_digits hne hd
  rw [String.ofList_toList] at hread
  rw [hread, Option.isSome_iff_ne_none, Ne, word?_eq_none_iff, not_not, FitsWord]
  omega

namespace Token

def IsLexeme (t : Token) : Prop :=
  match t.kind with
  | .reserved => t.lexeme ∈ symbols ++ keywords
  | .integer => IsNumeral t.lexeme
  | .identifier => IsName t.lexeme

/-- A symbol or a keyword, digits of a value that fits a word, or a letter and then letters, digits
and underscores. -/
def WellSpelled (t : Token) : Prop :=
  match t.kind with
  | .reserved => t.lexeme ∈ symbols ++ keywords
  | .integer => t.lexeme.toList ≠ [] ∧ (∀ c ∈ t.lexeme.toList, c.isDigit = true) ∧
      Decimal.value t.lexeme.toList ≤ 9223372036854775807
  | .identifier => (∃ c ∈ t.lexeme.toList.head?, isLetter c = true) ∧
      ∀ c ∈ t.lexeme.toList, isAsciiWord c = true

/-- Is the token over where this character follows? -/
def endsBefore (t : Token) (c : Char) : Bool :=
  match t.kind with
  | .reserved => if t.lexeme ∈ keywords then !isWord c else !(t.lexeme ∈ ["<", ">"] && c == '=')
  | .integer => !c.isDigit
  | .identifier => !isAsciiWord c

end Token

namespace Scanner

variable {s s' : Scanner} {kind : TokenKind} {lexeme text rest : List Char} {t : Token}

theorem not_isAsciiWord_of_not_isWord {c : Char} (h : isWord c = false) :
    isAsciiWord c = false := by
  rw [Bool.eq_false_iff] at h ⊢
  exact fun hn => h (isWord_of_isAsciiWord hn)

theorem endsWord_of_head (h : ∀ c ∈ rest.head?, isWord c = false) : endsWord rest = true := by
  cases rest with
  | nil => rfl
  | cons c cs => simp [endsWord, h c rfl]

/-- A lexeme is read as the token that it was. -/
theorem takes_lexeme (h : t.IsLexeme) (hr : ∀ c ∈ rest.head?, t.endsBefore c = true) :
    Takes (some t.kind) t.lexeme.toList rest := by
  obtain ⟨kind, lexeme, location⟩ := t
  cases kind with
  | reserved =>
    refine ⟨?_, by simp [fault?]⟩
    rw [String.length_toList]
    by_cases hk : lexeme ∈ keywords
    · have hw : ∀ c ∈ rest.head?, isWord c = false :=
        fun c hc => by simpa [Token.endsBefore, hk] using hr c hc
      have hm := firstMatch?_word (keywords_heads hk) (keywords_all hk)
        fun c hc => not_isAsciiWord_of_not_isWord (hw c hc)
      simpa [hk, endsWord_of_head hw, String.length_toList] using hm
    · have hs : lexeme ∈ symbols := (List.mem_append.1 h).resolve_right hk
      refine firstMatch?_symbol hs fun hl c hc => ?_
      simpa [Token.endsBefore, hk, show lexeme ∈ ["<", ">"] from hl] using hr c hc
  | integer =>
    obtain ⟨hne, hd, hv⟩ := h
    refine ⟨firstMatch?_digits hd hne fun c hc => by simpa [Token.endsBefore] using hr c hc, ?_⟩
    have : Decimal.read? lexeme ≠ none := Option.isSome_iff_ne_none.1 hv
    simp [fault?, this]
  | identifier =>
    obtain ⟨hh, hw, hk⟩ := h
    refine ⟨?_, by simp [fault?]⟩
    have hm := firstMatch?_word hh hw fun c hc => by simpa [Token.endsBefore] using hr c hc
    simpa [hk] using hm

theorem lexeme_of_length? {p : Pattern} {t : String} (hp : p = .symbol t ∨ p = .keyword t)
    (h : p.length? (lexeme ++ rest) = some lexeme.length) : String.ofList lexeme = t := by
  obtain ⟨⟨r, hr⟩, hlength⟩ := prefix_of_length? hp h
  rw [← (List.append_inj hr (String.length_toList.trans hlength)).1, String.ofList_toList]

/-- A name is covered up to where word characters of ASCII end. -/
theorem name_of_length? (hne : lexeme ≠ [])
    (hn : Pattern.name.length? (lexeme ++ rest) = some lexeme.length) :
    (∃ c ∈ lexeme.head?, isLetter c = true) ∧ (∀ c ∈ lexeme, isAsciiWord c = true) ∧
      ∀ c ∈ rest.head?, isAsciiWord c = false := by
  obtain ⟨c, l, rfl⟩ := List.exists_cons_of_ne_nil hne
  obtain ⟨hc, hlen⟩ :
      isLetter c = true ∧ l.length = ((l ++ rest).takeWhile isAsciiWord).length := by
    simp only [List.cons_append, Pattern.length?] at hn
    split at hn <;> simp_all
  obtain ⟨hl, hstop⟩ := takeWhile_eq_left hlen
  refine ⟨⟨c, rfl, hc⟩, fun d hd => ?_, hstop⟩
  rcases List.mem_cons.1 hd with rfl | hd
  · exact isAsciiWord_of_isLetter hc
  · exact hl d hd

theorem Takes.name (h : Takes (some .identifier) lexeme rest) :
    (∃ c ∈ lexeme.head?, isLetter c = true) ∧ (∀ c ∈ lexeme, isAsciiWord c = true) ∧
      ∀ c ∈ rest.head?, isAsciiWord c = false := by
  obtain ⟨⟨pattern, k⟩, hr, hl, rfl⟩ := rule_of_firstMatch? h.covers
  have hpattern : ∀ r ∈ lexicalRules, r.kind? = some .identifier → r.pattern = .name := by decide
  obtain rfl := hpattern _ hr rfl
  exact name_of_length? h.ne_nil hl

/-- A keyword is taken for a name only where its word would go on with a character past ASCII. -/
theorem Takes.keyword_goes_on (h : Takes (some .identifier) lexeme rest)
    (hk : String.ofList lexeme ∈ keywords) :
    ∃ c cs, rest = c :: cs ∧ isWord c = true ∧ 0x80 ≤ c.toNat := by
  obtain ⟨hhead, hall, hstop⟩ := h.name
  have hm := (firstMatch?_word hhead hall hstop).symm.trans h.covers
  have hend : endsWord rest = false := by
    refine Bool.eq_false_iff.2 fun hw => ?_
    rw [if_pos ⟨hk, hw⟩] at hm
    cases hm
  cases rest with
  | nil => cases hend
  | cons c cs =>
    have hc : isWord c = true := by simpa [endsWord] using hend
    refine ⟨c, cs, rfl, hc, Nat.le_of_not_lt fun hlt => ?_⟩
    rw [isWord_of_ascii hlt, hstop c rfl] at hc
    cases hc

theorem Takes.wellSpelled (h : Takes (some kind) lexeme rest) (location : Location) :
    (⟨kind, String.ofList lexeme, location⟩ : Token).WellSpelled := by
  obtain ⟨r, hm, hl, hk⟩ := rule_of_firstMatch? h.covers
  simp only [lexicalRules_eq, List.mem_append, List.mem_cons, List.not_mem_nil, or_false] at hm
  rcases hm with ((hm | hm) | hm) | rfl | rfl
  · simp only [blankRules, List.mem_cons, List.not_mem_nil, or_false] at hm
    rcases hm with rfl | rfl <;> cases hk
  · obtain ⟨t, ht, rfl⟩ := List.mem_map.1 hm
    cases hk
    simp [Token.WellSpelled, lexeme_of_length? (Or.inl rfl) hl, ht]
  · obtain ⟨t, ht, rfl⟩ := List.mem_map.1 hm
    cases hk
    simp [Token.WellSpelled, lexeme_of_length? (Or.inr rfl) hl, ht]
  · cases hk
    have hlen := (runLength?_eq_some hl).1
    have hv : (Decimal.read? (String.ofList lexeme)).isSome = true := by
      have := h.sound
      rw [Option.isSome_iff_ne_none]
      intro hn
      simp [fault?, hn] at this
    exact isNumeral_iff.1
      ⟨by simpa using h.ne_nil, by simpa using (takeWhile_eq_left hlen).1, hv⟩
  · cases hk
    simpa [Token.WellSpelled] using ⟨h.name.1, h.name.2.1⟩

/-- What is taken off a text that can be read on is a lexeme. -/
theorem Takes.isLexeme (h : Takes (some kind) lexeme rest)
    (hr : rest = [] ∨ firstMatch? rest ≠ none) (location : Location) :
    (⟨kind, String.ofList lexeme, location⟩ : Token).IsLexeme := by
  have hspelled := h.wellSpelled location
  cases kind with
  | reserved => exact hspelled
  | integer => exact isNumeral_iff.2 hspelled
  | identifier =>
    refine ⟨hspelled.1, hspelled.2, fun hk => ?_⟩
    obtain ⟨c, cs, rfl, -, hc⟩ := h.keyword_goes_on hk
    exact hr.elim (fun hnil => by cases hnil) fun hne => hne (firstMatch?_nonAscii hc cs)

theorem Reaches.readable (h : Reaches s text s' []) : text = [] ∨ firstMatch? text ≠ none := by
  cases h with
  | refl => exact Or.inl rfl
  | step first _ => exact Or.inr (by simp [first.covers])

theorem Reaches.lexemes (h : Reaches s text s' []) (hs : ∀ t ∈ s.tokens, t.IsLexeme) :
    ∀ t ∈ s'.tokens, t.IsLexeme := by
  generalize hrest : ([] : List Char) = rest at h
  induction h with
  | refl => exact hs
  | @step s s' kind? lexeme text rest first more ih =>
    subst hrest
    refine ih (fun t ht => ?_) rfl
    cases kind? with
    | none => exact hs t ht
    | some k =>
      rcases Array.mem_push.1 ht with ht | rfl
      · exact hs t ht
      · exact first.isLexeme more.readable s.location

end Scanner
end ImpLang
