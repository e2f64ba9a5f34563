import ImpLang.Proofs.Scanner.Run

/-! The order of the rules. They are tried in turn and the first that covers anything decides, but
the table is ordered: no rule covers more than one that comes before it. So the scanner takes the
longest match there is, and of the rules that reach as far the first. -/

namespace ImpLang

variable {text : List Char} {n m : Nat} {p q : Pattern}

/-- Wherever both cover something, the second covers no more than the first. -/
def Pattern.Precedes (p q : Pattern) : Prop :=
  ∀ text n m, p.length? text = some n → q.length? text = some m → m ≤ n

/-- Tried in order, the rule is the first to cover anything. -/
def FirstToMatch (text : List Char) (r : LexicalRule) (n : Nat) : Prop :=
  ∃ before behind, lexicalRules = before ++ r :: behind ∧ r.pattern.length? text = some n ∧
    ∀ q ∈ before, q.pattern.length? text = none

/-- No rule covers more, and none that comes before this one covers as much. -/
def LongestMatch (text : List Char) (r : LexicalRule) (n : Nat) : Prop :=
  ∃ before behind, lexicalRules = before ++ r :: behind ∧ r.pattern.length? text = some n ∧
    (∀ q ∈ before, ∀ m, q.pattern.length? text = some m → m < n) ∧
    ∀ q ∈ behind, ∀ m, q.pattern.length? text = some m → m ≤ n

/-! Two rules that can begin at one place: symbols of which one begins the other, keywords with the
same first letter, and a keyword and the name that it would be. -/

theorem precedes_of_starts (h : ∀ c, q.starts c = true → p.starts c = false) : p.Precedes q := by
  intro text n m hp hq
  cases text with
  | nil => exact Nat.le_trans (length?_le hq) (Nat.zero_le n)
  | cons c cs =>
    by_cases hc : q.starts c = true
    · rw [length?_eq_none_of_starts (h c hc)] at hp
      cases hp
    · rw [length?_eq_none_of_starts (Bool.eq_false_iff.2 hc)] at hq
      cases hq

theorem precedes_of_texts {s t : String} (hp : p = .symbol s ∨ p = .keyword s)
    (hq : q = .symbol t ∨ q = .keyword t) (h : s.toList <+: t.toList → t.length ≤ s.length) :
    p.Precedes q := by
  intro text n m hn hm
  obtain ⟨hs, rfl⟩ := prefix_of_length? hp hn
  obtain ⟨ht, rfl⟩ := prefix_of_length? hq hm
  rcases List.prefix_or_prefix_of_prefix hs ht with hst | hts
  · exact h hst
  · rw [← String.length_toList, ← String.length_toList]
    exact hts.length_le

theorem name_length? (h : Pattern.name.length? text = some n) :
    n = (text.takeWhile isAsciiWord).length := by
  cases text with
  | nil => cases h
  | cons c cs =>
    simp only [Pattern.length?] at h
    split at h
    · rename_i hc
      rw [List.takeWhile_cons_of_pos (isAsciiWord_of_isLetter hc)]
      exact (Option.some.inj h).symm
    · cases h

/-- A keyword ends where a word ends, so the name that it would be is no longer. -/
theorem keyword_precedes_name {k : String} (hk : k ∈ keywords) :
    (Pattern.keyword k).Precedes .name := by
  intro text n m hn hm
  obtain ⟨⟨rest, rfl⟩, rfl⟩ := prefix_of_length? (Or.inr rfl) hn
  have hend : endsWord rest = true := by
    simpa [Pattern.length?, ← String.length_toList] using hn
  have hlen : m = k.length := by
    rw [name_length? hm, takeWhile_append_stop (keywords_all hk) (endsWord_stop hend),
      String.length_toList]
  exact Nat.le_of_eq hlen

theorem isLetter_of_starts {r : LexicalRule} (hr : r ∈ keywordRules) {c : Char}
    (h : r.pattern.starts c = true) : isLetter c = true := by
  rw [← Bool.not_eq_false]
  intro hn
  simp [keywordRules_starts hr hn] at h

/-! The order of the table. -/

def Ordered (rules : List LexicalRule) : Prop :=
  rules.Pairwise fun r q => r.pattern.Precedes q.pattern

theorem blankRules_ordered : Ordered blankRules := by
  refine List.pairwise_pair.2 (precedes_of_starts fun c hc => ?_)
  obtain rfl : c = '#' := by simpa [Pattern.starts] using hc
  decide

theorem symbolRules_ordered : Ordered symbolRules := by
  have htexts : symbols.Pairwise fun s t => s.toList <+: t.toList → t.length ≤ s.length := by decide
  exact List.pairwise_map.2 (htexts.imp fun h => precedes_of_texts (Or.inl rfl) (Or.inl rfl) h)

theorem keywordRules_ordered : Ordered keywordRules := by
  have htexts : keywords.Pairwise fun s t => s.toList <+: t.toList → t.length ≤ s.length := by decide
  exact List.pairwise_map.2 (htexts.imp fun h => precedes_of_texts (Or.inr rfl) (Or.inr rfl) h)

/-- Blanks, comments and symbols do not begin like words or numerals. -/
theorem precedes_of_word {r : LexicalRule} (hr : r ∈ blankRules ++ symbolRules)
    (hq : ∀ c, q.starts c = true → isAsciiWord c = true) : r.pattern.Precedes q := by
  refine precedes_of_starts fun c hc => ?_
  rcases List.mem_append.1 hr with hr | hr
  · exact blankRules_starts hr (hq c hc)
  · exact symbolRules_starts hr (hq c hc)

theorem keywordRules_precede_digits {r : LexicalRule} (hr : r ∈ keywordRules) :
    r.pattern.Precedes .digits := by
  refine precedes_of_starts fun c hc => keywordRules_starts hr (Bool.eq_false_iff.2 fun hl => ?_)
  simp [Pattern.starts, not_isDigit_of_isLetter hl] at hc

/-- No rule covers more than one that comes before it. -/
theorem lexicalRules_ordered : Ordered lexicalRules := by
  rw [lexicalRules_eq]
  refine List.pairwise_append.2 ⟨List.pairwise_append.2 ⟨List.pairwise_append.2
    ⟨blankRules_ordered, symbolRules_ordered, ?_⟩, keywordRules_ordered, ?_⟩, ?_, ?_⟩
  · exact fun r hr s hs => precedes_of_starts fun c hc => blankRules_starts_symbol hr hs hc
  · exact fun r hr k hk =>
      precedes_of_word hr fun c hc => isAsciiWord_of_isLetter (isLetter_of_starts hk hc)
  · exact List.pairwise_pair.2 (precedes_of_starts fun c hc => not_isDigit_of_isLetter hc)
  · intro r hr q hq
    simp only [List.mem_cons, List.not_mem_nil, or_false] at hq
    rcases List.mem_append.1 hr with hr | hr
    · rcases hq with rfl | rfl
      · exact precedes_of_word hr fun c => isAsciiWord_of_isDigit
      · exact precedes_of_word hr fun c => isAsciiWord_of_isLetter
    · rcases hq with rfl | rfl
      · exact keywordRules_precede_digits hr
      · obtain ⟨k, hk, rfl⟩ := List.mem_map.1 hr
        exact keyword_precedes_name hk

/-! The choice of the table. -/

variable {r : LexicalRule}

theorem Ordered.split {before behind : List LexicalRule} (h : Ordered (before ++ r :: behind)) :
    (∀ q ∈ before, q.pattern.Precedes r.pattern) ∧
      ∀ q ∈ behind, r.pattern.Precedes q.pattern := by
  obtain ⟨-, hr, hbefore⟩ := List.pairwise_append.1 h
  exact ⟨fun q hq => hbefore q hq r List.mem_cons_self, (List.pairwise_cons.1 hr).1⟩

theorem FirstToMatch.longest (h : FirstToMatch text r n) : LongestMatch text r n := by
  obtain ⟨before, behind, htable, hr, hnone⟩ := h
  refine ⟨before, behind, htable, hr, fun q hq m hm => ?_, fun q hq m hm => ?_⟩
  · rw [hnone q hq] at hm
    cases hm
  · have hordered := lexicalRules_ordered
    rw [htable] at hordered
    exact hordered.split.2 q hq text n m hr hm

theorem LongestMatch.first (h : LongestMatch text r n) : FirstToMatch text r n := by
  obtain ⟨before, behind, htable, hr, hfewer, -⟩ := h
  refine ⟨before, behind, htable, hr, fun q hq => ?_⟩
  rw [Option.eq_none_iff_forall_ne_some]
  intro m hm
  have hordered := lexicalRules_ordered
  rw [htable] at hordered
  have hle : n ≤ m := hordered.split.1 q hq text m n hm hr
  exact Nat.not_lt.2 hle (hfewer q hq m hm)

theorem firstMatch?_eq_some {kind? : Option TokenKind} :
    firstMatch? text = some (n, kind?) ↔ ∃ r, FirstToMatch text r n ∧ r.kind? = kind? := by
  simp only [firstMatch?, List.findSome?_eq_some_iff, Option.map_eq_some_iff, Prod.mk.injEq,
    Option.map_eq_none_iff, FirstToMatch]
  constructor
  · rintro ⟨before, r, behind, htable, ⟨n, hr, rfl, rfl⟩, hnone⟩
    exact ⟨r, ⟨before, behind, htable, hr, hnone⟩, rfl⟩
  · rintro ⟨r, ⟨before, behind, htable, hr, hnone⟩, rfl⟩
    exact ⟨before, r, behind, htable, ⟨n, hr, rfl, rfl⟩, hnone⟩

theorem firstMatch?_eq_none :
    firstMatch? text = none ↔ ∀ r ∈ lexicalRules, r.pattern.length? text = none := by
  simp [firstMatch?, List.findSome?_eq_none_iff]

theorem LongestMatch.firstMatch? (h : LongestMatch text r n) :
    firstMatch? text = some (n, r.kind?) :=
  firstMatch?_eq_some.2 ⟨r, h.first, rfl⟩

theorem LongestMatch.scan (h : LongestMatch text r n) (s : Scanner) :
    s.scan text = match Scanner.fault? r.kind? (text.take n) with
      | some fault => (s, some ⟨fault, s.location⟩)
      | none => (s.accept r.kind? (text.take n)).scan (text.drop n) := by
  have hscan := Scanner.scan_of_covers (Scanner.covers_take h.firstMatch?) s
  rwa [List.take_append_drop] at hscan

theorem exists_longestMatch :
    (∃ r n, LongestMatch text r n) ↔ ∃ r ∈ lexicalRules, ∃ n, r.pattern.length? text = some n := by
  constructor
  · rintro ⟨r, n, before, behind, htable, hr, -⟩
    exact ⟨r, by simp [htable], n, hr⟩
  · rintro ⟨r, hmem, n, hr⟩
    cases hf : firstMatch? text with
    | none => simp [firstMatch?_eq_none.1 hf r hmem] at hr
    | some found =>
      obtain ⟨q, hq, -⟩ := firstMatch?_eq_some.1 hf
      exact ⟨q, found.1, hq.longest⟩

/-- The rule that is the first to match is the first of those with the longest match, which is not
empty; there is one if any rule matches. So the scanner goes on behind the longest match, or halts
at what it makes of it, and where no rule matches it halts at the character there. -/
theorem scanner_takes_longest_match :
    (∀ text r n, FirstToMatch text r n ↔ LongestMatch text r n) ∧
      (∀ text, (∃ r n, LongestMatch text r n) ↔
        ∃ r ∈ lexicalRules, ∃ n, r.pattern.length? text = some n) ∧
      (∀ text r n, LongestMatch text r n → 0 < n ∧ ∀ s : Scanner,
        s.scan text = match Scanner.fault? r.kind? (text.take n) with
          | some fault => (s, some ⟨fault, s.location⟩)
          | none => (s.accept r.kind? (text.take n)).scan (text.drop n)) ∧
      ∀ c cs, (∀ r ∈ lexicalRules, r.pattern.length? (c :: cs) = none) → ∀ s : Scanner,
        s.scan (c :: cs) = (s, some ⟨.illegalCharacter c, s.location⟩) :=
  ⟨fun _ _ _ => ⟨FirstToMatch.longest, LongestMatch.first⟩, fun _ => exists_longestMatch,
    fun _ _ _ h => ⟨firstMatch?_pos h.firstMatch?, h.scan⟩,
    fun _ _ h _ => (Scanner.Halts.illegal (firstMatch?_eq_none.2 h)).scan⟩

-- a keyword in front of a letter past ASCII is a name, no shorter than the keyword would be
example : firstMatch? "ifé".toList = some (2, some .identifier) ∧
    firstMatch? "if ".toList = some (2, some .reserved) ∧
    firstMatch? "<=1".toList = some (2, some .reserved) := by decide +kernel

end ImpLang
