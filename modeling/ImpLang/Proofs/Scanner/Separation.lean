import ImpLang.Proofs.Scanner.Layout
import ImpLang.Proofs.Scanner.Lexemes
import ImpLang.Proofs.Text.Decimal
import Mathlib.Data.List.Chain

/-! Tokens written down with separators between them. A text made of lexemes, with blanks and
comments behind them, is read back as the tokens that were written exactly if something stands
between any two of them that would run together. -/

namespace ImpLang

open Scanner

/-- Blanks, and comments with the ends of their lines. -/
inductive IsSeparator : List Char → Prop where
  | nil : IsSeparator []
  | blank {c : Char} {more : List Char} (blank : isBlank c = true) (rest : IsSeparator more) :
      IsSeparator (c :: more)
  | comment {text more : List Char} (line : ∀ c ∈ text, c ≠ '\n') (rest : IsSeparator more) :
      IsSeparator ('#' :: (text ++ '\n' :: more))

namespace Token

/-- A symbol or a keyword, digits of a value that fits a word, or a name. -/
def Writable (t : Token) : Prop :=
  match t.kind with
  | .reserved => t.lexeme ∈ symbols ++ keywords
  | .integer => t.lexeme.toList ≠ [] ∧ (∀ c ∈ t.lexeme.toList, c.isDigit = true) ∧
      Decimal.value t.lexeme.toList ≤ 9223372036854775807
  | .identifier => IsName t.lexeme

/-- Is the token a keyword or a name? -/
def isWordlike (t : Token) : Bool :=
  t.kind == .identifier || (t.kind == .reserved && t.lexeme ∈ keywords)

/-- Would the two tokens run together with nothing between them? -/
def runsInto (t u : Token) : Bool :=
  (t.isWordlike && (u.isWordlike || u.kind == .integer)) ||
    (t.kind == .integer && u.kind == .integer) ||
    ((t.isReserved "<" || t.isReserved ">") && u.isReserved "=")

end Token

/-- The text of tokens, each with what stands behind it. -/
def layOut (items : List (Token × List Char)) : List Char :=
  items.flatMap fun i => i.1.lexeme.toList ++ i.2

variable {t u : Token} {gap rest : List Char}

theorem Token.Writable.isLexeme (h : t.Writable) : t.IsLexeme := by
  obtain ⟨kind, lexeme, location⟩ := t
  cases kind with
  | reserved | identifier => exact h
  | integer => exact isNumeral_iff.2 h

/-! Separators are passed over. -/

theorem IsSeparator.scan (h : IsSeparator gap) (s : Scanner) (rest : List Char) :
    s.scan (gap ++ rest) = (s.accept none gap).scan rest := by
  induction h generalizing s with
  | nil => rfl
  | @blank c more hc _ ih =>
    rw [List.cons_append, scan_blank hc, ih, ← accept_append]
    rfl
  | @comment text more line _ ih =>
    have htakes : Takes none ('#' :: text) ('\n' :: (more ++ rest)) :=
      ⟨firstMatch?_comment line (more ++ rest), by simp [fault?]⟩
    calc s.scan ('#' :: (text ++ '\n' :: more) ++ rest)
        = s.scan (('#' :: text) ++ '\n' :: (more ++ rest)) := by simp
      _ = (((s.accept none ('#' :: text)).accept none ['\n']).accept none more).scan rest := by
        rw [htakes.scan, scan_blank rfl, ih]
      _ = (s.accept none ('#' :: (text ++ '\n' :: more))).scan rest := by
        rw [← accept_append, ← accept_append]
        simp

/-! What may stand behind a lexeme. -/

theorem endsBefore_separator (t : Token) (h : IsSeparator gap) :
    ∀ c ∈ gap.head?, t.endsBefore c = true := by
  intro c hc
  have hstop : isWord c = false ∧ isAsciiWord c = false ∧ c.isDigit = false ∧ (c == '=') = false := by
    cases h with
    | nil => cases hc
    | blank blank rest =>
      cases hc
      simp only [isBlank, Bool.or_eq_true, beq_iff_eq] at blank
      obtain (rfl | rfl) | rfl := blank <;> decide
    | comment line rest =>
      cases hc
      decide
  unfold Token.endsBefore
  cases t.kind <;> simp [hstop]

/-- What a character tells of a token that begins with it. -/
structure Token.BeginsWith (t : Token) (c : Char) : Prop where
  head : c ∈ t.lexeme.toList.head?
  ascii : c.toNat < 0x80
  word : isAsciiWord c = (t.isWordlike || t.kind == .integer)
  digit : c.isDigit = (t.kind == .integer)
  equals : (c == '=') = t.isReserved "="
  noGap : ∀ r ∈ blankRules, r.pattern.starts c = false

theorem symbols_begin {x : String} (h : x ∈ symbols) {c : Char} (hc : c ∈ x.toList.head?) :
    (c == '=') = (x == "=") ∧ ∀ r ∈ blankRules, r.pattern.starts c = false := by
  have hall : ∀ x ∈ symbols,
      (x.toList.head?.all fun c => (c == '=') == (x == "=")) = true := by decide
  refine ⟨by simpa using (Option.all_eq_true _ _).1 (hall x h) c hc, fun r hr => ?_⟩
  refine blankRules_starts_symbol hr (List.mem_map_of_mem h) ?_
  simp [Pattern.starts, Option.mem_def.1 hc]

theorem not_equals_of_isAsciiWord {c : Char} (h : isAsciiWord c = true) : (c == '=') = false := by
  rw [beq_eq_false_iff_ne]
  rintro rfl
  exact absurd h (by decide)

theorem Token.IsLexeme.beginsWith (h : t.IsLexeme) : ∃ c, t.BeginsWith c := by
  obtain ⟨kind, lexeme, location⟩ := t
  cases kind with
  | reserved =>
    rcases List.mem_append.1 h with hs | hk
    · obtain ⟨c, hc, hw, hlt⟩ := symbols_heads hs
      have hn : lexeme ∉ keywords := symbols_not_keywords hs
      have hd : c.isDigit = false :=
        Bool.eq_false_iff.2 fun hd => by simp [isAsciiWord_of_isDigit hd] at hw
      obtain ⟨hequals, hgap⟩ := symbols_begin hs hc
      refine ⟨c, hc, hlt, by simp [Token.isWordlike, hn, hw], by simp [hd], ?_, hgap⟩
      simpa [Token.isReserved] using hequals
    · obtain ⟨c, hc, hl⟩ := keywords_heads hk
      have hw := isAsciiWord_of_isLetter hl
      have hn : lexeme ≠ "=" := by
        rintro rfl
        exact absurd hk (by decide : "=" ∉ keywords)
      refine ⟨c, hc, toNat_lt_of_isAsciiWord hw, by simp [Token.isWordlike, hk, hw],
        by simp [not_isDigit_of_isLetter hl], ?_, fun r hr => blankRules_starts hr hw⟩
      simp [Token.isReserved, not_equals_of_isAsciiWord hw, hn]
  | integer =>
    obtain ⟨hne, hall, -⟩ := h
    obtain ⟨c, l, hl⟩ := List.exists_cons_of_ne_nil hne
    have hd := hall c (by simp [hl])
    have hw := isAsciiWord_of_isDigit hd
    refine ⟨c, by simp [hl], toNat_lt_of_isAsciiWord hw, by simp [hw], by simp [hd], ?_,
      fun r hr => blankRules_starts hr hw⟩
    simp [Token.isReserved, not_equals_of_isAsciiWord hw]
  | identifier =>
    obtain ⟨⟨c, hc, hl⟩, -⟩ := h
    have hw := isAsciiWord_of_isLetter hl
    refine ⟨c, hc, toNat_lt_of_isAsciiWord hw, by simp [Token.isWordlike, hw],
      by simp [not_isDigit_of_isLetter hl], ?_, fun r hr => blankRules_starts hr hw⟩
    simp [Token.isReserved, not_equals_of_isAsciiWord hw]

/-- The first character of a lexeme ends a token exactly if the two do not run together. -/
theorem Token.BeginsWith.endsBefore {c : Char} (hu : u.BeginsWith c) (t : Token) :
    t.endsBefore c = !t.runsInto u := by
  obtain ⟨kind, lexeme, location⟩ := t
  cases kind with
  | reserved =>
    by_cases hk : lexeme ∈ keywords
    · have hn : lexeme ≠ "<" ∧ lexeme ≠ ">" := by
        constructor <;> rintro rfl <;> exact absurd hk (by decide)
      have hw : isWord c = isAsciiWord c := isWord_of_ascii hu.ascii
      simp [Token.endsBefore, Token.runsInto, Token.isWordlike, Token.isReserved,
        Bool.beq_eq_decide_eq, hk, hn, hw, hu.word]
    · have he : decide (c = '=') = u.isReserved "=" := by
        rw [← hu.equals, Bool.beq_eq_decide_eq]
      simp [Token.endsBefore, Token.runsInto, Token.isWordlike, Token.isReserved,
        Bool.beq_eq_decide_eq, hk, he]
  | integer =>
    simp [Token.endsBefore, Token.runsInto, Token.isWordlike, Token.isReserved,
      Bool.beq_eq_decide_eq, hu.digit]
  | identifier =>
    simp [Token.endsBefore, Token.runsInto, Token.isWordlike, Token.isReserved,
      Bool.beq_eq_decide_eq, hu.word]

/-- A keyword is taken as one only where the word ends. -/
theorem endsWord_of_takes {w : String} (hw : w ∈ keywords)
    (h : Takes (some .reserved) w.toList rest) : endsWord rest = true := by
  obtain ⟨r, hm, hl, hk⟩ := rule_of_firstMatch? h.covers
  simp only [lexicalRules_eq, List.mem_append, List.mem_cons, List.not_mem_nil, or_false] at hm
  rcases hm with ((hm | hm) | hm) | rfl | rfl
  · simp only [blankRules, List.mem_cons, List.not_mem_nil, or_false] at hm
    rcases hm with rfl | rfl <;> cases hk
  · obtain ⟨s, hs, rfl⟩ := List.mem_map.1 hm
    have hsw := lexeme_of_length? (Or.inl rfl) hl
    rw [String.ofList_toList] at hsw
    exact absurd hw (symbols_not_keywords (hsw ▸ hs))
  · obtain ⟨k, -, rfl⟩ := List.mem_map.1 hm
    have hkw := lexeme_of_length? (Or.inr rfl) hl
    rw [String.ofList_toList] at hkw
    subst hkw
    simpa [Pattern.length?, ← String.length_toList] using hl
  · cases hk
  · cases hk

/-- An angle bracket is not taken off an equals sign. -/
theorem not_takes_before_equals {w : String} (hw : w ∈ ["<", ">"]) (more : List Char) :
    ¬ Takes (some .reserved) w.toList ('=' :: more) := by
  intro h
  have hlong : ∀ w ∈ ["<", ">"], ∃ x ∈ symbols, x ∉ ["<", ">"] ∧ x.toList = w.toList ++ ['='] := by
    decide
  obtain ⟨x, hx, hn, heq⟩ := hlong w hw
  have hm := firstMatch?_symbol (r := more) hx fun hx => absurd hx hn
  have hlen := congrArg List.length heq
  rw [heq, List.append_assoc, List.singleton_append, h.covers, ← String.length_toList] at hm
  simp at hm hlen
  omega

/-- A lexeme is taken off a text only if it does not run on there. -/
theorem endsBefore_of_takes (h : t.IsLexeme) (ht : Takes (some t.kind) t.lexeme.toList rest) :
    ∀ c ∈ rest.head?, t.endsBefore c = true := by
  intro c hc
  obtain ⟨kind, lexeme, location⟩ := t
  cases kind with
  | reserved =>
    obtain ⟨more, rfl⟩ := List.head?_eq_some_iff.1 hc
    by_cases hk : lexeme ∈ keywords
    · have hend := endsWord_of_takes hk ht
      simpa [Token.endsBefore, hk, endsWord] using hend
    · have hequals : lexeme ∈ ["<", ">"] → c ≠ '=' := by
        rintro hl rfl
        exact not_takes_before_equals hl more ht
      simpa [Token.endsBefore, hk, imp_iff_not_or] using hequals
  | integer =>
    have hall := digits_of_covers ht.covers
    have hstop := (takeWhile_eq_left (congrArg List.length hall)).2 c hc
    simp [Token.endsBefore, hstop]
  | identifier =>
    simp [Token.endsBefore, ht.name.2.2 c hc]

theorem takes_lexeme_iff (h : t.IsLexeme) : Takes (some t.kind) t.lexeme.toList rest ↔
    ∀ c ∈ rest.head?, t.endsBefore c = true :=
  ⟨endsBefore_of_takes h, takes_lexeme h⟩

/-! One item after the other. -/

/-- Behind an item stands its separator, and then the next lexeme. -/
theorem takes_item_iff {items : List (Token × List Char)} (ht : t.IsLexeme)
    (hs : IsSeparator gap) (hitems : ∀ i ∈ items, i.1.IsLexeme) :
    Takes (some t.kind) t.lexeme.toList (gap ++ layOut items) ↔
      ∀ j ∈ items.head?, t.runsInto j.1 = true → gap ≠ [] := by
  rw [takes_lexeme_iff ht]
  cases gap with
  | cons c gap => simpa using endsBefore_separator t hs c rfl
  | nil =>
    cases items with
    | nil => simp [layOut]
    | cons j items =>
      obtain ⟨c, hc⟩ := (hitems j (by simp)).beginsWith
      obtain ⟨cs, hcs⟩ := List.head?_eq_some_iff.1 hc.head
      simp [layOut, hcs, hc.endsBefore]

/-- The token taken next is the next one held. -/
theorem held_next {s s₁ s' : Scanner} {new : List Token}
    (hheld : s₁.tokens.toList = s.tokens.toList ++ [t])
    (hfront : s₁.tokens.toList <+: s'.tokens.toList)
    (hnew : s'.tokens.toList = s.tokens.toList ++ u :: new) : t = u := by
  rw [hheld, hnew, List.prefix_append_right_inj, List.cons_prefix_cons] at hfront
  exact hfront.1

/-- No lexeme begins like a gap. -/
theorem not_covered_as_gap (ht : t.IsLexeme) (more : List Char) (n : Nat) :
    firstMatch? (t.lexeme.toList ++ more) ≠ some (n, none) := by
  intro h
  obtain ⟨c, hc⟩ := ht.beginsWith
  obtain ⟨cs, hcs⟩ := List.head?_eq_some_iff.1 hc.head
  obtain ⟨r, hm, hl, hk⟩ := rule_of_firstMatch? h
  have hblank : ∀ r ∈ lexicalRules, r.kind? = none → r ∈ blankRules := by decide
  rw [hcs, List.cons_append, length?_eq_none_of_starts (hc.noGap r (hblank r hm hk))] at hl
  cases hl

/-- Where a lexeme was written and a token like it is read, the lexeme was taken. -/
theorem takes_of_scan {s s' : Scanner} {new : List Token} (ht : t.IsLexeme)
    (h : s.scan (t.lexeme.toList ++ rest) = (s', none))
    (hnew : s'.tokens.toList = s.tokens.toList ++ u :: new) (ha : t.Agrees u) :
    Takes (some t.kind) t.lexeme.toList rest := by
  obtain ⟨_, hr, hh⟩ := scan_eq_iff.1 h
  cases hh
  generalize htext : t.lexeme.toList ++ rest = text at hr
  cases hr with
  | refl => simp at hnew
  | @step _ _ kind? lexeme text' _ first more =>
    cases kind? with
    | none => exact absurd (htext ▸ first.covers) (not_covered_as_gap ht rest lexeme.length)
    | some kind =>
      have hheld : (s.accept (some kind) lexeme).tokens.toList =
          s.tokens.toList ++ [⟨kind, String.ofList lexeme, s.location⟩] := by
        simp [accept, push]
      obtain rfl := held_next hheld more.keeps_tokens hnew
      obtain ⟨hkind, hlexeme⟩ := ha
      dsimp only at hkind hlexeme
      subst hkind
      obtain rfl : t.lexeme.toList = lexeme := by simp [hlexeme]
      rwa [List.append_cancel_left htext]

/-- Items are read as their tokens exactly if each lexeme is taken off what is behind it. -/
theorem scan_layOut_iff {items : List (Token × List Char)} (ht : ∀ i ∈ items, i.1.IsLexeme)
    (hs : ∀ i ∈ items, IsSeparator i.2) (s : Scanner) :
    (∃ s' new, s.scan (layOut items) = (s', none) ∧ s'.tokens.toList = s.tokens.toList ++ new ∧
      List.Forall₂ Token.Agrees (items.map Prod.fst) new) ↔
      items.IsChain fun i j => i.1.runsInto j.1 = true → i.2 ≠ [] := by
  induction items generalizing s with
  | nil => simpa using ⟨s, scan_nil s, rfl⟩
  | cons i items ih =>
    obtain ⟨t, gap⟩ := i
    rw [List.forall_mem_cons] at ht hs
    have htext : layOut ((t, gap) :: items) = t.lexeme.toList ++ (gap ++ layOut items) := by
      simp [layOut]
    have htakes := takes_item_iff ht.1 hs.1 ht.2
    let s₁ := (s.accept (some t.kind) t.lexeme.toList).accept none gap
    have hheld : s₁.tokens.toList = s.tokens.toList ++ [⟨t.kind, t.lexeme, s.location⟩] := by
      simp [s₁, accept, push]
    -- an item that is taken leaves the others to be read
    have hscan (h : Takes (some t.kind) t.lexeme.toList (gap ++ layOut items)) :
        s.scan (layOut ((t, gap) :: items)) = s₁.scan (layOut items) := by
      rw [htext, h.scan, hs.1.scan]
    rw [List.isChain_cons, ← htakes, ← ih ht.2 hs.2 s₁]
    constructor
    · rintro ⟨s', new, hread, hnew, hagree⟩
      cases hagree with
      | @cons _ u _ new ha hmore =>
        have h := takes_of_scan ht.1 (htext ▸ hread) hnew ha
        have hread₁ := (hscan h).symm.trans hread
        have hu := held_next hheld (scan_keeps_tokens hread₁) hnew
        refine ⟨h, s', new, hread₁, ?_, hmore⟩
        rw [hnew, hheld, hu, List.append_assoc, List.singleton_append]
    · rintro ⟨h, s', new, hread, hnew, hagree⟩
      refine ⟨s', ⟨t.kind, t.lexeme, s.location⟩ :: new, (hscan h).trans hread, ?_,
        .cons ⟨rfl, rfl⟩ hagree⟩
      rw [hnew, hheld, List.append_assoc, List.singleton_append]

/-- Tokens that are written down in order, with separators behind them, are read back exactly if
there is a separator wherever two of them would run together. -/
theorem laid_out_read_back_iff {items : List (Token × List Char)}
    (ht : ∀ i ∈ items, i.1.Writable) (hs : ∀ i ∈ items, IsSeparator i.2) :
    (∃ us, tokenize (String.ofList (layOut items)) = .ok us ∧
      List.Forall₂ Token.Agrees (items.map Prod.fst) us) ↔
      items.IsChain fun i j => i.1.runsInto j.1 = true → i.2 ≠ [] := by
  rw [← scan_layOut_iff (fun i hi => (ht i hi).isLexeme) hs {}]
  simp [tokenize_eq_ok]

theorem dense_text_read_back :
    let items : List (Token × List Char) := [(⟨.integer, "1", {}⟩, []),
      (⟨.reserved, "if", {}⟩, ['#', 'c', '\n']), (⟨.identifier, "x", {}⟩, []),
      (⟨.reserved, "<", {}⟩, []), (⟨.reserved, "<=", {}⟩, []), (⟨.reserved, ":=", {}⟩, []),
      (⟨.reserved, "=", {}⟩, []), (⟨.reserved, "<", {}⟩, [' ']), (⟨.reserved, "=", {}⟩, [])]
    (∀ i ∈ items, i.1.Writable) ∧ (∀ i ∈ items, IsSeparator i.2) ∧
      layOut items = "1if#c\nx<<=:==< =".toList ∧
      ∃ us, tokenize (String.ofList (layOut items)) = .ok us ∧
        List.Forall₂ Token.Agrees (items.map Prod.fst) us := by
  intro items
  have ht : ∀ i ∈ items, i.1.Writable := by
    simp [items, Token.Writable, IsName, symbols, keywords, isLetter, isAsciiWord, Decimal.value]
  have hs : ∀ i ∈ items, IsSeparator i.2 := by
    have hcomment : IsSeparator ['#', 'c', '\n'] :=
      .comment (List.forall_mem_singleton.2 (by decide) : ∀ c ∈ ['c'], c ≠ '\n') .nil
    have hspace : IsSeparator [' '] := .blank rfl .nil
    simp [items, hcomment, hspace, IsSeparator.nil]
  exact ⟨ht, hs, by decide, (laid_out_read_back_iff ht hs).2 (by decide)⟩

end ImpLang
