import ImpLang.Scanner.Rule

/-! What the table of rules makes of a text, told by the kind of its first character. Blanks,
digits and words are covered as far as they go; a word is a keyword when it is one of them and no
word character follows. Only blanks reach past the end of a line. -/

namespace ImpLang

theorem takeWhile_append_stop {p : Char → Bool} {l r : List Char} (h : ∀ c ∈ l, p c = true)
    (hr : ∀ c ∈ r.head?, p c = false) : (l ++ r).takeWhile p = l := by
  rw [List.takeWhile_append_of_pos h]
  cases r with
  | nil => simp
  | cons c r => simp [hr c rfl]

theorem dropWhile_stops (p : Char → Bool) (l : List Char) :
    ∀ c ∈ (l.dropWhile p).head?, p c = false := by
  intro c hc
  have := List.head?_dropWhile_not p l
  rw [Option.mem_def.1 hc] at this
  exact this

theorem takeWhile_all (p : Char → Bool) (l : List Char) : ∀ c ∈ l.takeWhile p, p c = true :=
  List.all_eq_true.1 List.all_takeWhile

/-- A run as long as the first part of a text is that part. -/
theorem takeWhile_eq_left {p : Char → Bool} {l r : List Char}
    (h : l.length = ((l ++ r).takeWhile p).length) :
    (∀ c ∈ l, p c = true) ∧ ∀ c ∈ r.head?, p c = false := by
  have hsplit : l ++ r = (l ++ r).takeWhile p ++ (l ++ r).dropWhile p :=
    List.takeWhile_append_dropWhile.symm
  obtain ⟨hl, hr⟩ := List.append_inj hsplit h
  exact ⟨hl ▸ takeWhile_all p (l ++ r), hr ▸ dropWhile_stops p (l ++ r)⟩

theorem runLength?_append {p : Char → Bool} {l r : List Char} (h : ∀ c ∈ l, p c = true)
    (hl : l ≠ []) (hr : ∀ c ∈ r.head?, p c = false) : runLength? p (l ++ r) = some l.length := by
  rw [runLength?, takeWhile_append_stop h hr]
  cases l with
  | nil => exact absurd rfl hl
  | cons c l => rfl

theorem runLength?_eq_none {p : Char → Bool} {c : Char} (h : p c = false) (cs : List Char) :
    runLength? p (c :: cs) = none := by
  simp [runLength?, h]

theorem not_blank_of_isAsciiWord {c : Char} (h : isAsciiWord c = true) : isBlank c = false := by
  rw [Bool.eq_false_iff]
  intro hb
  simp only [isBlank, Bool.or_eq_true, beq_iff_eq] at hb
  obtain (rfl | rfl) | rfl := hb <;> exact absurd h (by decide)

theorem isLetter_iff {c : Char} :
    isLetter c = true ↔ (65 ≤ c.toNat ∧ c.toNat ≤ 90) ∨ (97 ≤ c.toNat ∧ c.toNat ≤ 122) := by
  change (decide (c.val ≥ 65 ∧ c.val ≤ 90) || (decide (c.val ≥ 97) && decide (c.val ≤ 122)))
    = true ↔ _
  simp [UInt32.le_iff_toNat_le]

theorem isAsciiWord_iff {c : Char} :
    isAsciiWord c = true ↔ isLetter c = true ∨ c.isDigit = true ∨ c = '_' := by
  change (isLetter c || c.isDigit || c == '_') = true ↔ _
  simp [or_assoc]

theorem isAsciiWord_of_isLetter {c : Char} (h : isLetter c = true) : isAsciiWord c = true :=
  isAsciiWord_iff.2 (Or.inl h)

theorem isAsciiWord_of_isDigit {c : Char} (h : c.isDigit = true) : isAsciiWord c = true :=
  isAsciiWord_iff.2 (Or.inr (Or.inl h))

theorem not_isDigit_of_isLetter {c : Char} (h : isLetter c = true) : c.isDigit = false := by
  rw [Bool.eq_false_iff]
  intro hd
  have hl := isLetter_iff.1 h
  have hr : 48 ≤ c.toNat ∧ c.toNat ≤ 57 := Char.isDigit_iff_toNat.1 hd
  omega

theorem toNat_lt_of_isAsciiWord {c : Char} (h : isAsciiWord c = true) : c.toNat < 0x80 := by
  rcases isAsciiWord_iff.1 h with h | h | rfl
  · have := isLetter_iff.1 h
    omega
  · have : 48 ≤ c.toNat ∧ c.toNat ≤ 57 := Char.isDigit_iff_toNat.1 h
    omega
  · decide

theorem isWord_of_isAsciiWord {c : Char} (h : isAsciiWord c = true) : isWord c = true :=
  (isWord_of_ascii (toNat_lt_of_isAsciiWord h)).trans h

/-- A symbol or a keyword covers its own text. -/
theorem prefix_of_length? {p : Pattern} {t : String} (hp : p = .symbol t ∨ p = .keyword t)
    {cs : List Char} {n : Nat} (h : p.length? cs = some n) : t.toList <+: cs ∧ t.length = n := by
  rcases hp with rfl | rfl <;> simp only [Pattern.length?] at h <;> split at h <;> simp_all

theorem length?_le {p : Pattern} {cs : List Char} {n : Nat} (h : p.length? cs = some n) :
    n ≤ cs.length := by
  have hrun {q : Char → Bool} (hq : runLength? q cs = some n) : n ≤ cs.length := by
    rw [(runLength?_eq_some hq).1]
    exact (List.takeWhile_prefix q).length_le
  cases p with
  | blanks | digits => exact hrun h
  | comment =>
    unfold Pattern.length? at h
    split at h <;> simp_all
    rw [← h]
    exact Nat.succ_le_succ (List.takeWhile_prefix _).length_le
  | name =>
    cases cs with
    | nil => cases h
    | cons c cs =>
      simp only [Pattern.length?] at h
      split at h <;> simp_all
      rw [← h]
      exact Nat.succ_le_succ (List.takeWhile_prefix _).length_le
  | symbol t | keyword t =>
    obtain ⟨hbegins, rfl⟩ := prefix_of_length? (t := t) (by simp) h
    rw [← String.length_toList]
    exact hbegins.length_le

theorem firstMatch?_le {cs : List Char} {n : Nat} {k : Option TokenKind}
    (h : firstMatch? cs = some (n, k)) : n ≤ cs.length := by
  obtain ⟨r, -, hl, -⟩ := rule_of_firstMatch? h
  exact length?_le hl

/-- With which characters the pattern can begin. -/
def Pattern.starts : Pattern → Char → Bool
  | blanks, c => isBlank c
  | comment, c => c == '#'
  | symbol text, c => text.toList.head?.all (· == c)
  | keyword word, c => word.toList.head?.all (· == c)
  | digits, c => c.isDigit
  | name, c => isLetter c

theorem endsWord_stop {rest : List Char} (h : endsWord rest = true) :
    ∀ c ∈ rest.head?, isAsciiWord c = false := by
  intro c hc
  rw [Bool.eq_false_iff]
  intro hw
  cases rest with
  | nil => cases hc
  | cons d rest =>
    cases hc
    simp [endsWord, isWord_of_isAsciiWord hw] at h

theorem length?_eq_none_of_starts {p : Pattern} {c : Char} (h : p.starts c = false)
    (cs : List Char) : p.length? (c :: cs) = none := by
  cases p with
  | blanks | digits => exact runLength?_eq_none h cs
  | comment =>
    unfold Pattern.length?
    split <;> simp_all [Pattern.starts]
  | name => simp_all [Pattern.starts, Pattern.length?]
  | symbol t | keyword t =>
    cases ht : t.toList with
    | nil => simp [Pattern.starts, ht] at h
    | cons d ds =>
      have hd : (d == c) = false := by simpa [Pattern.starts, ht] using h
      simp [Pattern.length?, ht, List.isPrefixOf, hd]

/-- Rules that cannot begin here may be passed over. -/
theorem firstMatch?_of_skip {skipped kept : List LexicalRule} (h : lexicalRules = skipped ++ kept)
    {c : Char} (hs : ∀ r ∈ skipped, r.pattern.starts c = false) (cs : List Char) :
    firstMatch? (c :: cs) =
      kept.findSome? fun r => (r.pattern.length? (c :: cs)).map fun n => (n, r.kind?) := by
  have : (skipped.findSome? fun r => (r.pattern.length? (c :: cs)).map fun n => (n, r.kind?)) =
      none := by
    rw [List.findSome?_eq_none_iff]
    intro r hr
    rw [length?_eq_none_of_starts (hs r hr), Option.map_none]
  rw [firstMatch?, h, List.findSome?_append, this, Option.none_or]

def blankRules : List LexicalRule := [⟨.blanks, none⟩, ⟨.comment, none⟩]

def symbolRules : List LexicalRule := symbols.map fun s => ⟨.symbol s, some .reserved⟩

def keywordRules : List LexicalRule := keywords.map fun w => ⟨.keyword w, some .reserved⟩

theorem symbols_heads {t : String} (ht : t ∈ symbols) :
    ∃ d ∈ t.toList.head?, isAsciiWord d = false ∧ d.toNat < 0x80 := by
  have h : ∀ t ∈ symbols,
      (t.toList.head?.any fun d => !isAsciiWord d && decide (d.toNat < 0x80)) = true := by decide
  simpa [Option.any_eq_true] using h t ht

theorem symbols_not_keywords {x : String} (h : x ∈ symbols) : x ∉ keywords :=
  (by decide : ∀ x ∈ symbols, x ∉ keywords) x h

theorem keywords_heads {w : String} (hw : w ∈ keywords) :
    ∃ d ∈ w.toList.head?, isLetter d = true := by
  have h : ∀ w ∈ keywords, w.toList.head?.any isLetter = true := by decide
  simpa [Option.any_eq_true] using h w hw

theorem keywords_all {w : String} (hw : w ∈ keywords) : ∀ c ∈ w.toList, isAsciiWord c = true := by
  have h : ∀ w ∈ keywords, w.toList.all isAsciiWord = true := by decide
  simpa using h w hw

theorem starts_eq_false {p : Pattern} {text : String} (hp : p = .symbol text ∨ p = .keyword text)
    {c d : Char} (hd : d ∈ text.toList.head?) (hn : d ≠ c) : p.starts c = false := by
  rcases hp with rfl | rfl <;> simpa [Pattern.starts, Option.mem_def.1 hd] using hn

/-- No symbol begins with a character of a word. -/
theorem symbolRules_starts {r : LexicalRule} (hr : r ∈ symbolRules) {c : Char}
    (h : isAsciiWord c = true) : r.pattern.starts c = false := by
  obtain ⟨s, hs, rfl⟩ := List.mem_map.1 hr
  obtain ⟨d, hd, hw, -⟩ := symbols_heads hs
  refine starts_eq_false (Or.inl rfl) hd ?_
  rintro rfl
  simp [h] at hw

theorem keywordRules_starts {r : LexicalRule} (hr : r ∈ keywordRules) {c : Char}
    (h : isLetter c = false) : r.pattern.starts c = false := by
  obtain ⟨w, hw, rfl⟩ := List.mem_map.1 hr
  obtain ⟨d, hd, hl⟩ := keywords_heads hw
  refine starts_eq_false (Or.inr rfl) hd ?_
  rintro rfl
  simp [h] at hl

theorem blankRules_starts {r : LexicalRule} (hr : r ∈ blankRules) {c : Char}
    (h : isAsciiWord c = true) : r.pattern.starts c = false := by
  simp only [blankRules, List.mem_cons, List.not_mem_nil, or_false] at hr
  rcases hr with rfl | rfl
  · exact not_blank_of_isAsciiWord h
  · simp only [Pattern.starts, beq_eq_false_iff_ne]
    rintro rfl
    exact absurd h (by decide)

theorem blankRules_starts_symbol {r s : LexicalRule} (hr : r ∈ blankRules) (hs : s ∈ symbolRules)
    {c : Char} (h : s.pattern.starts c = true) : r.pattern.starts c = false := by
  have hall : ∀ t ∈ symbols, ∀ r ∈ blankRules,
      (t.toList.head?.any fun d => !r.pattern.starts d) = true := by decide
  obtain ⟨t, ht, rfl⟩ := List.mem_map.1 hs
  obtain ⟨d, hd, hn⟩ : ∃ d, t.toList.head? = some d ∧ r.pattern.starts d = false := by
    simpa [Option.any_eq_true] using hall t ht r hr
  obtain rfl : d = c := by simpa [Pattern.starts, hd] using h
  exact hn

theorem toNat_lt_of_blankRules {r : LexicalRule} (hr : r ∈ blankRules) {c : Char}
    (h : r.pattern.starts c = true) : c.toNat < 0x80 := by
  simp only [blankRules, List.mem_cons, List.not_mem_nil, or_false] at hr
  rcases hr with rfl | rfl
  · simp only [Pattern.starts, isBlank, Bool.or_eq_true, beq_iff_eq] at h
    obtain (rfl | rfl) | rfl := h <;> decide
  · obtain rfl : c = '#' := by simpa [Pattern.starts] using h
    decide

theorem lexicalRules_eq : lexicalRules = blankRules ++ symbolRules ++ keywordRules ++
    [⟨.digits, some .integer⟩, ⟨.name, some .identifier⟩] := rfl

theorem starts_nonAscii {r : LexicalRule} (hr : r ∈ lexicalRules) {c : Char}
    (h : 0x80 ≤ c.toNat) : r.pattern.starts c = false := by
  have hword : isAsciiWord c = false := Bool.eq_false_iff.2 fun hn => by
    have := toNat_lt_of_isAsciiWord hn
    omega
  have hletter : isLetter c = false :=
    Bool.eq_false_iff.2 fun hn => by simp [isAsciiWord_of_isLetter hn] at hword
  simp only [lexicalRules_eq, List.mem_append, List.mem_cons, List.not_mem_nil, or_false] at hr
  rcases hr with ((hr | hr) | hr) | rfl | rfl
  · rw [Bool.eq_false_iff]
    intro hn
    have := toNat_lt_of_blankRules hr hn
    omega
  · obtain ⟨s, hs, rfl⟩ := List.mem_map.1 hr
    obtain ⟨d, hd, -, hlt⟩ := symbols_heads hs
    apply starts_eq_false (Or.inl rfl) hd
    rintro rfl
    omega
  · exact keywordRules_starts hr hletter
  · exact Bool.eq_false_iff.2 fun hn => by simp [isAsciiWord_of_isDigit hn] at hword
  · exact hletter

/-- No rule covers a character past ASCII, except inside a comment. -/
theorem firstMatch?_nonAscii {c : Char} (h : 0x80 ≤ c.toNat) (cs : List Char) :
    firstMatch? (c :: cs) = none :=
  firstMatch?_of_skip (List.append_nil _).symm (fun _ hr => starts_nonAscii hr h) cs

/-! Blanks, comments and numerals: as far as they go. -/

theorem firstMatch?_blanks {l r : List Char} (h : ∀ c ∈ l, isBlank c = true) (hl : l ≠ [])
    (hr : ∀ c ∈ r.head?, isBlank c = false) : firstMatch? (l ++ r) = some (l.length, none) := by
  have : Pattern.blanks.length? (l ++ r) = some l.length := runLength?_append h hl hr
  simp [firstMatch?, lexicalRules, this]

theorem firstMatch?_comment {text : List Char} (h : ∀ c ∈ text, c ≠ '\n') (rest : List Char) :
    firstMatch? ('#' :: (text ++ '\n' :: rest)) = some (text.length + 1, none) := by
  have hrun : (text ++ '\n' :: rest).takeWhile (· != '\n') = text :=
    takeWhile_append_stop (by simpa using h) (by simp)
  have hlen : Pattern.comment.length? ('#' :: (text ++ '\n' :: rest)) = some (text.length + 1) := by
    rw [Pattern.length?, hrun]
  have hblank : Pattern.blanks.length? ('#' :: (text ++ '\n' :: rest)) = none :=
    length?_eq_none_of_starts (show Pattern.blanks.starts '#' = false by decide) _
  simp [firstMatch?, lexicalRules, hblank, hlen]

theorem firstMatch?_digits {l r : List Char} (h : ∀ c ∈ l, c.isDigit = true) (hl : l ≠ [])
    (hr : ∀ c ∈ r.head?, c.isDigit = false) :
    firstMatch? (l ++ r) = some (l.length, some .integer) := by
  obtain ⟨c, l, rfl⟩ := List.exists_cons_of_ne_nil hl
  have hc : c.isDigit = true := h c (by simp)
  have hletter : isLetter c = false := by
    rw [Bool.eq_false_iff]
    intro hn
    simp [not_isDigit_of_isLetter hn] at hc
  have hskip : ∀ r ∈ blankRules ++ symbolRules ++ keywordRules, r.pattern.starts c = false := by
    intro r hr
    simp only [List.mem_append] at hr
    rcases hr with (hr | hr) | hr
    · exact blankRules_starts hr (isAsciiWord_of_isDigit hc)
    · exact symbolRules_starts hr (isAsciiWord_of_isDigit hc)
    · exact keywordRules_starts hr hletter
  have hd : Pattern.digits.length? (c :: (l ++ r)) = some (c :: l).length :=
    runLength?_append h hl hr
  rw [List.cons_append, firstMatch?_of_skip lexicalRules_eq hskip]
  simp [hd]

/-! Words. A keyword that covers something here is the whole word. -/

theorem length?_keyword {k : String} (hk : k ∈ keywords) {w r : List Char}
    (hw : ∀ c ∈ w, isAsciiWord c = true) (hr : ∀ c ∈ r.head?, isAsciiWord c = false) :
    (Pattern.keyword k).length? (w ++ r) =
      if k.toList = w ∧ endsWord r = true then some w.length else none := by
  by_cases he : k.toList = w
  · subst he
    simp [Pattern.length?, ← String.length_toList]
  · simp only [Pattern.length?, he, false_and, if_false, ite_eq_right_iff, Bool.and_eq_true,
      List.isPrefixOf_iff_prefix, reduceCtorEq, imp_false, not_and, Bool.not_eq_true]
    intro hp
    -- the keyword or the word is the shorter one, and then a word character follows it
    rcases List.prefix_or_prefix_of_prefix hp (List.prefix_append w r) with ⟨x, rfl⟩ | ⟨x, hx⟩
    · obtain ⟨d, x, rfl⟩ := List.exists_cons_of_ne_nil (fun h => he (by simp [h]) : x ≠ [])
      have hd : isWord d = true := isWord_of_isAsciiWord (hw d (by simp))
      have : (k.toList ++ (d :: (x ++ r))).drop k.length = d :: (x ++ r) := by
        simp [← String.length_toList]
      simp [this, endsWord, hd]
    · obtain ⟨d, x, rfl⟩ := List.exists_cons_of_ne_nil (fun h => he (by simp [← hx, h]) : x ≠ [])
      rw [← hx, List.prefix_append_right_inj] at hp
      obtain ⟨y, rfl⟩ := hp
      have := hr d (by simp)
      simp [keywords_all hk d (by simp [← hx])] at this

theorem findSome?_keywordRules {w r : List Char} (hw : ∀ c ∈ w, isAsciiWord c = true)
    (hr : ∀ c ∈ r.head?, isAsciiWord c = false) :
    (keywordRules.findSome? fun k => (k.pattern.length? (w ++ r)).map fun n => (n, k.kind?)) =
      if String.ofList w ∈ keywords ∧ endsWord r = true then some (w.length, some .reserved)
      else none := by
  have hk (k : String) (hk : k ∈ keywords) := length?_keyword hk hw hr
  split
  · rename_i h
    cases hf : keywordRules.findSome? fun k =>
        (k.pattern.length? (w ++ r)).map fun n => (n, k.kind?) with
    | none =>
      have := List.findSome?_eq_none_iff.1 hf _ (List.mem_map_of_mem h.1)
      simp [hk _ h.1, h.2] at this
    | some x =>
      obtain ⟨k, hm, hx⟩ := List.exists_of_findSome?_eq_some hf
      obtain ⟨k, hm', rfl⟩ := List.mem_map.1 hm
      simp only [hk k hm'] at hx
      split at hx
      · exact hx.symm
      · cases hx
  · rename_i h
    rw [List.findSome?_eq_none_iff]
    intro k hm
    obtain ⟨k, hm', rfl⟩ := List.mem_map.1 hm
    simp only [hk k hm']
    split
    · rename_i he
      rw [← he.1, String.ofList_toList] at h
      exact absurd ⟨hm', he.2⟩ h
    · rfl

/-- A word, up to where word characters of ASCII end, is a keyword or a name. -/
theorem firstMatch?_word {w r : List Char} (hh : ∃ c ∈ w.head?, isLetter c = true)
    (hw : ∀ c ∈ w, isAsciiWord c = true) (hr : ∀ c ∈ r.head?, isAsciiWord c = false) :
    firstMatch? (w ++ r) = some (w.length,
      some (if String.ofList w ∈ keywords ∧ endsWord r = true then .reserved
        else .identifier)) := by
  obtain ⟨c, hc, hl⟩ := hh
  obtain ⟨cs, rfl⟩ : ∃ cs, w = c :: cs := by
    cases w with
    | nil => cases hc
    | cons d ds =>
      cases hc
      exact ⟨ds, rfl⟩
  have hskip : ∀ r ∈ blankRules ++ symbolRules, r.pattern.starts c = false := by
    intro r hr
    rcases List.mem_append.1 hr with hr | hr
    · exact blankRules_starts hr (hw c (by simp))
    · exact symbolRules_starts hr (hw c (by simp))
  have hname : Pattern.name.length? (c :: (cs ++ r)) = some (c :: cs).length := by
    have := takeWhile_append_stop (fun d hd => hw d (List.mem_cons_of_mem c hd)) hr
    simp [Pattern.length?, hl, this]
  have hkeyword := findSome?_keywordRules hw hr
  rw [List.cons_append] at hkeyword ⊢
  rw [firstMatch?_of_skip (lexicalRules_eq.trans (List.append_assoc ..)) hskip,
    List.findSome?_append, hkeyword]
  split
  · rfl
  · have hd : Pattern.digits.length? (c :: (cs ++ r)) = none :=
      runLength?_eq_none (not_isDigit_of_isLetter hl) _
    simp [hd, hname]

theorem firstMatch?_shorter {c d : Char} {skipped kept : List LexicalRule}
    (h : lexicalRules = skipped ++ (⟨.symbol (String.ofList [c, '=']), some .reserved⟩ ::
      ⟨.symbol (String.ofList [c]), some .reserved⟩ :: kept))
    (hs : ∀ r ∈ skipped, r.pattern.starts c = false) (hd : d ≠ '=') (r : List Char) :
    firstMatch? (c :: d :: r) = some (1, some .reserved) := by
  have hlong : (Pattern.symbol (String.ofList [c, '='])).length? (c :: d :: r) = none := by
    simp [Pattern.length?, Ne.symm hd]
  have hshort : (Pattern.symbol (String.ofList [c])).length? (c :: d :: r) = some 1 := by
    simp [Pattern.length?]
  rw [firstMatch?_of_skip h hs, List.findSome?_cons, hlong, List.findSome?_cons, hshort]
  rfl

/-- A symbol is covered as it stands, unless an equals sign makes a longer one of it. -/
theorem firstMatch?_symbol {t : String} (ht : t ∈ symbols) {r : List Char}
    (hr : t ∈ ["<", ">"] → ∀ c ∈ r.head?, c ≠ '=') :
    firstMatch? (t.toList ++ r) = some (t.length, some .reserved) := by
  by_cases h : t ∈ ["<", ">"]
  · cases r with
    | nil =>
      simp only [List.mem_cons, List.not_mem_nil, or_false] at h
      rcases h with rfl | rfl <;> rfl
    | cons c r =>
      have hc : c ≠ '=' := hr h c rfl
      simp only [List.mem_cons, List.not_mem_nil, or_false] at h
      rcases h with rfl | rfl
      · exact firstMatch?_shorter (show lexicalRules = lexicalRules.take 10 ++ _ from rfl)
          (by decide) hc r
      · exact firstMatch?_shorter (show lexicalRules = lexicalRules.take 12 ++ _ from rfl)
          (by decide) hc r
  · simp only [symbols, List.mem_cons, List.not_mem_nil, or_false, not_or] at ht h
    rcases ht with rfl | rfl | rfl | rfl | rfl | rfl | rfl | rfl | rfl | rfl | rfl | rfl | rfl | rfl
    all_goals first | rfl | exact absurd rfl h.1 | exact absurd rfl h.2

/-! The end of a line. -/

/-- Does a match of the pattern stay within a line? -/
def Pattern.staysOnLine : Pattern → Bool
  | blanks => false
  | symbol text => !text.toList.contains '\n'
  | keyword word => !word.toList.contains '\n'
  | comment | digits | name => true

theorem takeWhile_append_cons_neg {p : Char → Bool} {c : Char} (hc : p c = false)
    (a b : List Char) : (a ++ c :: b).takeWhile p = a.takeWhile p := by
  rw [List.takeWhile_append]
  split
  · rename_i h
    simp [hc, (List.takeWhile_prefix p).eq_of_length h]
  · rfl

theorem isPrefixOf_append_cons {t a b : List Char} {c : Char} (hc : c ∉ t) :
    t.isPrefixOf (a ++ c :: b) = t.isPrefixOf a := by
  induction t generalizing a with
  | nil => simp
  | cons d t ih =>
    simp only [List.mem_cons, not_or] at hc
    cases a with
    | nil => simp [List.isPrefixOf, Ne.symm hc.1]
    | cons e a => simp [List.isPrefixOf, ih hc.2]

theorem length?_append_newline {p : Pattern} (hp : p.staysOnLine = true) (a b : List Char) :
    p.length? (a ++ '\n' :: b) = p.length? a := by
  cases p with
  | blanks => cases hp
  | digits =>
    have hstop : Char.isDigit '\n' = false := rfl
    simp [Pattern.length?, runLength?, takeWhile_append_cons_neg hstop]
  | comment =>
    cases a with
    | nil => rfl
    | cons c a =>
      by_cases hc : c = '#'
      · subst hc
        simp [Pattern.length?, takeWhile_append_cons_neg (p := (· != '\n')) (c := '\n') rfl]
      · have hs : Pattern.comment.starts c = false := by simpa [Pattern.starts] using hc
        rw [List.cons_append, length?_eq_none_of_starts hs, length?_eq_none_of_starts hs]
  | name =>
    cases a with
    | nil => rfl
    | cons c a =>
      simp [Pattern.length?, takeWhile_append_cons_neg (p := isAsciiWord) (c := '\n') rfl]
  | symbol t =>
    have ht : '\n' ∉ t.toList := by simpa [Pattern.staysOnLine] using hp
    simp [Pattern.length?, -List.isPrefixOf_iff_prefix, isPrefixOf_append_cons ht]
  | keyword t =>
    have ht : '\n' ∉ t.toList := by simpa [Pattern.staysOnLine] using hp
    simp only [Pattern.length?, isPrefixOf_append_cons ht]
    cases h : t.toList.isPrefixOf a with
    | false => rfl
    | true =>
      obtain ⟨x, rfl⟩ := List.isPrefixOf_iff_prefix.1 h
      cases x with
      | nil => simp [← String.length_toList, endsWord, show isWord '\n' = false from rfl]
      | cons c x => simp [← String.length_toList, endsWord]

theorem firstMatch?_append_newline {c : Char} (hc : isBlank c = false) (a b : List Char) :
    firstMatch? (c :: (a ++ '\n' :: b)) = firstMatch? (c :: a) := by
  have hskip : ∀ r ∈ ([⟨.blanks, none⟩] : List LexicalRule), r.pattern.starts c = false := by
    simpa [Pattern.starts] using hc
  have htable : lexicalRules = [⟨.blanks, none⟩] ++ lexicalRules.tail := rfl
  have hstay : ∀ r ∈ lexicalRules.tail, r.pattern.staysOnLine = true := by decide
  rw [firstMatch?_of_skip htable hskip, firstMatch?_of_skip htable hskip]
  generalize lexicalRules.tail = kept at hstay
  induction kept with
  | nil => rfl
  | cons r kept ih =>
    have hr := length?_append_newline (hstay r (by simp)) (c :: a) b
    rw [List.cons_append] at hr
    rw [List.findSome?_cons, List.findSome?_cons, hr,
      ih fun r hr => hstay r (List.mem_cons_of_mem _ hr)]

end ImpLang
