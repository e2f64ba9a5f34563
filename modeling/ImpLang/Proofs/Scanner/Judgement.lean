import ImpLang.Proofs.Scanner.Faults
import ImpLang.Proofs.Scanner.Lexemes
import ImpLang.Proofs.Text.Decimal

/-! The scanner reads exactly the texts with nothing wrong, and reports the first fault of any
other. While it reads, nothing is wrong behind it, and where a word character stands ahead, its run
begins there or with the digits just read; so what halts it is a fault, and is the first one. -/

namespace ImpLang

open Scanner

variable {text front behind lexeme rest pre l : List Char} {c : Char} {fault : LexicalFault}
  {kind? : Option TokenKind}

/-! What rules cover. -/

theorem blank_allowed (h : isBlank c = true) (behind : List Char) :
    Allowed c behind ∧ isAsciiWord c = false ∧ c ≠ '#' := by
  refine ⟨Or.inl h, Bool.eq_false_iff.2 fun hw => ?_, ?_⟩
  · simp [not_blank_of_isAsciiWord hw] at h
  · rintro rfl
    exact absurd h (by decide)

theorem symbol_cases (h : String.ofList lexeme ∈ symbols) :
    (∃ c ∈ operatorCharacters, lexeme = [c]) ∨ ∃ c ∈ [':', '!', '<', '>'], lexeme = [c, '='] := by
  have hall : symbols.all (fun t => operatorCharacters.any (t.toList == [·]) ||
      [':', '!', '<', '>'].any (t.toList == [·, '='])) = true := by decide
  simpa using List.all_eq_true.1 hall _ h

theorem operatorCharacters_wordless (h : c ∈ operatorCharacters) :
    isAsciiWord c = false ∧ c ≠ '#' := by
  have hall : operatorCharacters.all (fun d => !isAsciiWord d && d != '#') = true := by decide
  simpa using List.all_eq_true.1 hall c h

/-- Every character of a symbol may stand where it stands. -/
theorem symbol_allowed (h : String.ofList lexeme ∈ symbols) {a b : List Char}
    (he : lexeme = a ++ c :: b) : Allowed c (b ++ rest) ∧ isAsciiWord c = false ∧ c ≠ '#' := by
  rcases symbol_cases h with ⟨d, hd, rfl⟩ | ⟨d, hd, rfl⟩
  · obtain ⟨rfl, rfl, rfl⟩ : a = [] ∧ d = c ∧ b = [] := by
      cases a <;> simp_all
    exact ⟨allowed_of_mem hd _, operatorCharacters_wordless hd⟩
  · have hequals : '=' ∈ operatorCharacters := by decide
    rcases List.cons_eq_append_iff.1 he with ⟨rfl, hc⟩ | ⟨a', rfl, hc⟩
    · obtain ⟨rfl, rfl⟩ := List.cons.inj hc
      simp only [List.mem_cons, List.not_mem_nil, or_false] at hd
      rcases hd with rfl | rfl | rfl | rfl
      · exact ⟨allowed_of_pair (Or.inl rfl) rfl, by decide⟩
      · exact ⟨allowed_of_pair (Or.inr rfl) rfl, by decide⟩
      · exact ⟨allowed_of_mem (by decide) _, by decide⟩
      · exact ⟨allowed_of_mem (by decide) _, by decide⟩
    · rcases List.cons_eq_append_iff.1 hc with ⟨rfl, hc⟩ | ⟨a', rfl, hc⟩
      · obtain ⟨rfl, rfl⟩ := List.cons.inj hc
        exact ⟨allowed_of_mem hequals _, operatorCharacters_wordless hequals⟩
      · simp at hc

/-- What a rule has covered, and how it ends. -/
inductive Lexed (kind? : Option TokenKind) (lexeme rest : List Char) : Prop where
  /-- Blanks, or a symbol. -/
  | plain (allowed : ∀ a c b, lexeme = a ++ c :: b →
      Allowed c (b ++ rest) ∧ isAsciiWord c = false ∧ c ≠ '#')
  | comment {line : List Char} (hash : lexeme = '#' :: line) (within : ∀ c ∈ line, c ≠ '\n')
      (stop : ∀ c ∈ rest.head?, c = '\n')
  | word (head : ∃ c ∈ lexeme.head?, isLetter c = true) (all : ∀ c ∈ lexeme, isAsciiWord c = true)
      (stop : ∀ c ∈ rest.head?, isAsciiWord c = false)
  | digits (kind : kind? = some .integer) (all : ∀ c ∈ lexeme, c.isDigit = true)
      (stop : ∀ c ∈ rest.head?, c.isDigit = false)

theorem lexed_of_covers (h : firstMatch? (lexeme ++ rest) = some (lexeme.length, kind?)) :
    Lexed kind? lexeme rest := by
  have hne : lexeme ≠ [] := List.ne_nil_of_length_pos (firstMatch?_pos h)
  obtain ⟨r, hr, hl, rfl⟩ := rule_of_firstMatch? h
  simp only [lexicalRules_eq, List.mem_append, List.mem_cons, List.not_mem_nil, or_false] at hr
  rcases hr with ((hr | hr) | hr) | rfl | rfl
  · simp only [blankRules, List.mem_cons, List.not_mem_nil, or_false] at hr
    rcases hr with rfl | rfl
    · have hall := (takeWhile_eq_left (runLength?_eq_some hl).1).1
      exact .plain fun a c b he => blank_allowed (hall c (by simp [he])) _
    · obtain ⟨c, l, rfl⟩ := List.exists_cons_of_ne_nil hne
      obtain ⟨rfl, hlen⟩ : c = '#' ∧ l.length = ((l ++ rest).takeWhile (· != '\n')).length := by
        rw [List.cons_append] at hl
        unfold Pattern.length? at hl
        split at hl <;> simp_all
      obtain ⟨hline, hstop⟩ := takeWhile_eq_left hlen
      exact .comment rfl (fun c hc => by simpa using hline c hc) fun c hc => by
        simpa using hstop c hc
  · obtain ⟨t, ht, rfl⟩ := List.mem_map.1 hr
    have hs : String.ofList lexeme ∈ symbols := lexeme_of_length? (Or.inl rfl) hl ▸ ht
    exact .plain fun a c b he => symbol_allowed hs he
  · obtain ⟨t, ht, rfl⟩ := List.mem_map.1 hr
    obtain rfl := lexeme_of_length? (Or.inr rfl) hl
    have hend : endsWord rest = true := by
      simp only [Pattern.length?] at hl
      split at hl <;> simp_all
    exact .word (by simpa using keywords_heads ht) (by simpa using keywords_all ht)
      (endsWord_stop hend)
  · obtain ⟨hall, hstop⟩ := takeWhile_eq_left (runLength?_eq_some hl).1
    exact .digits rfl hall hstop
  · obtain ⟨hhead, hall, hstop⟩ := name_of_length? hne hl
    exact .word hhead hall hstop

theorem fault?_digits (hne : lexeme ≠ []) (hd : ∀ c ∈ lexeme, c.isDigit = true) :
    fault? (some .integer) lexeme = if FitsWord (Decimal.value lexeme) then none
      else some (.invalidInteger (String.ofList lexeme)) := by
  simp [fault?, Decimal.read?_digits hne hd, word?_eq_none_iff]

/-! What is taken leaves nothing wrong behind. -/

/-- A text is read up to here, and nothing is wrong with what was read. A comment goes on up to
the end of its line, and a word begins here, or it goes on behind digits. -/
structure Clear (pre text : List Char) : Prop where
  line : inComment pre = true → ∀ c ∈ text.head?, c = '\n'
  run : ∀ c ∈ text.head?, isAsciiWord c = true → ∃ front digits, pre = front ++ digits ∧
    (∀ d ∈ digits, d.isDigit = true) ∧ EndsWordless front ∧ (c.isDigit = true → digits = [])
  sound : ∀ front behind fault, front ++ behind = pre ++ text → front.length < pre.length →
    ¬ Violation front behind fault

theorem clear_nil (text : List Char) : Clear [] text where
  line h := by cases h
  run c _ _ := ⟨[], [], rfl, by simp, fun a c h => by simp at h, fun _ => rfl⟩
  sound front behind fault _ h := by simp at h

theorem fits_of_takes (h : Takes (some .integer) lexeme rest) :
    FitsWord (Decimal.value lexeme) := by
  have hall := (takeWhile_eq_left (congrArg List.length (digits_of_covers h.covers))).1
  have hf := h.sound
  rw [fault?_digits h.ne_nil hall] at hf
  split at hf
  · assumption
  · cases hf

theorem Lexed.line (h : Lexed kind? lexeme rest) (hne : lexeme ≠ [])
    (hpre : inComment pre = true → ∀ c ∈ (lexeme ++ rest).head?, c = '\n')
    (hc : inComment (pre ++ lexeme) = true) : ∀ c ∈ rest.head?, c = '\n' := by
  suffices '#' ∈ lexeme by
    cases h with
    | plain allowed =>
      obtain ⟨a, b, he⟩ := List.append_of_mem this
      exact absurd rfl (allowed a '#' b he).2.2
    | comment _ _ stop => exact stop
    | word _ all _ => exact absurd (all '#' this) (by decide)
    | digits _ all _ => exact absurd (all '#' this) (by decide)
  by_contra hn
  obtain ⟨d, l, rfl⟩ := List.exists_cons_of_ne_nil hne
  simp only [List.mem_cons, not_or] at hn
  have hd : inComment (pre ++ [d]) = false := by
    cases hp : inComment pre with
    | false => exact inComment_append_false (by simpa using hn.1) hp
    | true =>
      obtain rfl := hpre hp d rfl
      rw [inComment_concat]
      rfl
  rw [List.append_cons, inComment_append_false hn.2 hd] at hc
  cases hc

theorem Lexed.boundary (h : Lexed kind? lexeme rest) (hne : lexeme ≠ [])
    (hpre : ∀ c ∈ lexeme.head?, c.isDigit = true → EndsWordless pre) :
    ∀ c ∈ rest.head?, isAsciiWord c = true → ∃ front digits, pre ++ lexeme = front ++ digits ∧
      (∀ d ∈ digits, d.isDigit = true) ∧ EndsWordless front ∧ (c.isDigit = true → digits = []) := by
  intro c hc hw
  cases h with
  | plain allowed =>
    refine ⟨pre ++ lexeme, [], (List.append_nil _).symm, by simp, ?_, fun _ => rfl⟩
    refine endsWordless_append hne (fun d hd => ?_) pre
    obtain ⟨a, b, he⟩ := List.append_of_mem hd
    exact (allowed a d b he).2.1
  | comment _ _ stop =>
    obtain rfl := stop c hc
    exact absurd hw (by decide)
  | word _ _ stop => simp [stop c hc] at hw
  | digits _ all stop =>
    obtain ⟨d, l, rfl⟩ := List.exists_cons_of_ne_nil hne
    have hbefore : EndsWordless pre := hpre d rfl (all d List.mem_cons_self)
    exact ⟨pre, d :: l, rfl, all, hbefore, fun hd => by simp [stop c hc] at hd⟩

/-- A run does not begin inside a word: what stands behind its beginning holds the word as well. -/
theorem WordRun.mem_of_append {run digits a : List Char} (h : WordRun front run behind)
    (he : front ++ digits = pre ++ c :: a) (hword : ∀ d ∈ c :: a, isAsciiWord d = true) :
    c ∈ digits := by
  rcases List.append_eq_append_iff.1 he with ⟨x, -, rfl⟩ | ⟨x, rfl, hx⟩
  · simp
  · cases x with
    | nil =>
      rw [List.nil_append] at hx
      exact hx ▸ List.mem_cons_self
    | cons d x =>
      refine absurd h.endsWordless (not_endsWordless (List.cons_ne_nil d x) fun e he => hword e ?_)
      rw [hx]
      exact List.mem_append_left _ he

/-- Inside a word that begins with a letter there is nothing wrong. -/
theorem Violation.not_in_word {a b : List Char} (hl : lexeme = a ++ c :: b)
    (head : ∀ d ∈ lexeme.head?, isLetter d = true) (all : ∀ d ∈ lexeme, isAsciiWord d = true)
    (hf : front = pre ++ a) (hb : behind = c :: (b ++ rest)) : ¬ Violation front behind fault := by
  intro h
  have hletter : ∀ d ∈ (a ++ [c]).head?, isLetter d = true := by
    intro d hd
    refine head d ?_
    rw [hl]
    cases a <;> exact hd
  have hword : ∀ d ∈ a, isAsciiWord d = true := fun d hd => all d (by simp [hl, hd])
  cases h with
  | character _ refused =>
    obtain ⟨rfl, rfl⟩ := List.cons.inj hb
    exact refused (allowed_of_isAsciiWord (all _ (by simp [hl])) _)
  | @literal _ digits word _ run isDigit _ large =>
    cases a with
    | nil =>
      obtain ⟨d, digits, rfl⟩ := List.exists_cons_of_ne_nil (ne_nil_of_large large)
      obtain ⟨rfl, -⟩ := List.cons.inj hb
      simp [not_isDigit_of_isLetter (hletter d rfl)] at isDigit
    | cons d a => exact not_endsWordless (List.cons_ne_nil d a) hword (hf ▸ run.endsWordless)
  | @underscore f digits word _ run isDigit =>
    obtain ⟨rfl, -⟩ := List.cons.inj hb
    cases a with
    | nil => exact absurd (hletter '_' rfl) (by decide)
    | cons d a =>
      have hd : d.isDigit = true := isDigit d (run.mem_of_append hf hword)
      simp [not_isDigit_of_isLetter (hletter d rfl)] at hd

/-- Inside digits that fit a word there is nothing wrong. -/
theorem Violation.not_in_digits {a b : List Char}
    (hl : lexeme = a ++ c :: b) (all : ∀ d ∈ lexeme, d.isDigit = true)
    (stop : ∀ d ∈ rest.head?, d.isDigit = false)
    (fits : FitsWord (Decimal.value lexeme))
    (hf : front = pre ++ a) (hb : behind = c :: (b ++ rest)) : ¬ Violation front behind fault := by
  intro h
  have hc : c.isDigit = true := all c (by simp [hl])
  have hword : ∀ d ∈ a, isAsciiWord d = true :=
    fun d hd => isAsciiWord_of_isDigit (all d (by simp [hl, hd]))
  cases h with
  | character _ refused =>
    obtain ⟨rfl, rfl⟩ := List.cons.inj hb
    exact refused (allowed_of_isAsciiWord (isAsciiWord_of_isDigit hc) _)
  | @literal _ digits word tail run isDigit hstop large =>
    cases a with
    | nil =>
      have he : digits ++ (word ++ tail) = lexeme ++ rest := by simpa [hl] using hb
      have hdigits : digits = lexeme := by
        rw [← takeWhile_append_stop isDigit (run.digits_stop hstop), he,
          takeWhile_append_stop all stop]
      exact large (hdigits ▸ fits)
    | cons d a => exact not_endsWordless (List.cons_ne_nil d a) hword (hf ▸ run.endsWordless)
  | underscore =>
    obtain ⟨rfl, -⟩ := List.cons.inj hb
    exact absurd hc (by decide)

/-- Inside what is taken there is nothing wrong. -/
theorem no_violation_of_takes (h : Takes kind? lexeme rest) {a b : List Char}
    (hl : lexeme = a ++ c :: b) : ¬ Violation (pre ++ a) (c :: (b ++ rest)) fault := by
  intro hv
  obtain ⟨d, tail, hd, uncommented, hword⟩ := hv.head
  obtain ⟨rfl, rfl⟩ := List.cons.inj hd
  cases lexed_of_covers h.covers with
  | plain allowed =>
    obtain ⟨hc, hw, -⟩ := allowed a c b hl
    simp [hword hc] at hw
  | @comment line hash within _ =>
    exact absurd (inComment_of_hash within (hash ▸ hl)) (Bool.eq_false_iff.1 uncommented)
  | word head all _ =>
    obtain ⟨d, hd, hletter⟩ := head
    refine hv.not_in_word hl (fun e he => ?_) all rfl rfl
    rwa [Option.some.inj (he.symm.trans hd)]
  | digits kind all stop =>
    subst kind
    exact hv.not_in_digits hl all stop (fits_of_takes h) rfl rfl

theorem split_of_length_lt
    (he : front ++ behind = pre ++ (lexeme ++ rest)) (hle : pre.length ≤ front.length)
    (hlt : front.length < pre.length + lexeme.length) :
    ∃ a c b, front = pre ++ a ∧ lexeme = a ++ c :: b ∧ behind = c :: (b ++ rest) := by
  obtain ⟨a, rfl⟩ : pre <+: front :=
    List.prefix_of_prefix_length_le ⟨lexeme ++ rest, he.symm⟩ (List.prefix_append front behind) hle
  rw [List.append_assoc, List.append_cancel_left_eq] at he
  rw [List.length_append] at hlt
  obtain ⟨y, rfl⟩ : a <+: lexeme :=
    List.prefix_of_prefix_length_le ⟨behind, he⟩ (List.prefix_append lexeme rest) (by omega)
  obtain ⟨c, b, rfl⟩ : ∃ c b, y = c :: b :=
    List.exists_cons_of_ne_nil fun hn => by simp [hn] at hlt
  rw [List.append_assoc, List.append_cancel_left_eq] at he
  exact ⟨a, c, b, rfl, rfl, he⟩

theorem Clear.step (h : Clear pre (lexeme ++ rest)) (ht : Takes kind? lexeme rest) :
    Clear (pre ++ lexeme) rest where
  line := (lexed_of_covers ht.covers).line ht.ne_nil h.line
  run := by
    refine (lexed_of_covers ht.covers).boundary ht.ne_nil fun c hc hd => ?_
    have hhead : c ∈ (lexeme ++ rest).head? := by
      obtain ⟨d, l, rfl⟩ := List.exists_cons_of_ne_nil ht.ne_nil
      exact hc
    obtain ⟨front, digits, rfl, -, hbefore, hnone⟩ := h.run c hhead (isAsciiWord_of_isDigit hd)
    rwa [hnone hd, List.append_nil]
  sound front behind fault he hlt := by
    rw [List.append_assoc] at he
    rcases Nat.lt_or_ge front.length pre.length with hf | hf
    · exact h.sound front behind fault he hf
    · obtain ⟨a, c, b, rfl, hl, rfl⟩ := split_of_length_lt he hf (by simpa using hlt)
      exact no_violation_of_takes ht hl

theorem Clear.reaches {s s' : Scanner} (h : Reaches s text s' rest) (hc : Clear pre text)
    (hs : s.HasRead pre) :
    ∃ mid, text = mid ++ rest ∧ Clear (pre ++ mid) rest ∧ s'.HasRead (pre ++ mid) := by
  induction h generalizing pre with
  | refl => exact ⟨[], rfl, by rwa [List.append_nil], by rwa [List.append_nil]⟩
  | @step s s' kind? lexeme text rest first _ ih =>
    obtain ⟨mid, rfl, hc, hs⟩ := ih (hc.step first) (hs.accept first)
    refine ⟨lexeme ++ mid, (List.append_assoc ..).symm, ?_, ?_⟩
    · rwa [← List.append_assoc]
    · rwa [← List.append_assoc]

/-! Where nothing more is taken, something is wrong. -/

theorem not_covered {r : LexicalRule} (h : firstMatch? text = none) (hr : r ∈ lexicalRules) :
    r.pattern.length? text = none :=
  Option.map_eq_none_iff.1 (List.findSome?_eq_none_iff.1 h r hr)

/-- Only an underscore may stand somewhere and still be covered by no rule. -/
theorem underscore_of_not_covered (h : firstMatch? (c :: behind) = none) (ha : Allowed c behind) :
    c = '_' := by
  have hsymbol : ∀ t ∈ symbols, ¬ t.toList <+: c :: behind := by
    intro t ht hp
    have := not_covered (r := ⟨.symbol t, some .reserved⟩) h (by simp [lexicalRules, ht])
    simp [Pattern.length?, hp] at this
  rcases ha with hb | ho | hw | ⟨hc, he⟩
  · have := not_covered (r := ⟨.blanks, none⟩) h (by simp [lexicalRules])
    simp [Pattern.length?, runLength?, hb] at this
  · have hop : operatorCharacters.all (fun d => symbols.any (·.toList == [d])) = true := by decide
    obtain ⟨t, ht, htext⟩ : ∃ t ∈ symbols, t.toList = [c] := by
      simpa using List.all_eq_true.1 hop c ho
    exact absurd ⟨behind, by rw [htext]; rfl⟩ (hsymbol t ht)
  · rcases isAsciiWord_iff.1 hw with hl | hd | rfl
    · have := not_covered (r := ⟨.name, some .identifier⟩) h (by simp [lexicalRules])
      simp [Pattern.length?, hl] at this
    · have := not_covered (r := ⟨.digits, some .integer⟩) h (by simp [lexicalRules])
      simp [Pattern.length?, runLength?, hd] at this
    · rfl
  · obtain ⟨d, tail, rfl⟩ : ∃ d tail, behind = d :: tail := by
      cases behind with
      | nil => cases he
      | cons d tail => exact ⟨d, tail, rfl⟩
    cases he
    obtain ⟨t, ht, htext⟩ : ∃ t ∈ symbols, t.toList = [c, '='] := by
      rcases hc with rfl | rfl
      · exact ⟨":=", by decide⟩
      · exact ⟨"!=", by decide⟩
    exact absurd ⟨tail, by rw [htext]; rfl⟩ (hsymbol t ht)

/-- The run of the word character ahead, which may have begun with digits already read. -/
theorem Clear.wordRun {cs : List Char} (h : Clear pre (c :: cs)) (hw : isAsciiWord c = true) :
    ∃ front digits, pre = front ++ digits ∧ (∀ d ∈ digits, d.isDigit = true) ∧
      (c.isDigit = true → digits = []) ∧
      WordRun front (digits ++ c :: cs.takeWhile isAsciiWord) (cs.dropWhile isAsciiWord) := by
  obtain ⟨front, digits, rfl, all, before, none⟩ := h.run c rfl hw
  have hdigits : ∀ d ∈ digits, isAsciiWord d = true := fun d hd => isAsciiWord_of_isDigit (all d hd)
  have hfront : inComment front = false := by
    rw [← inComment_append fun d hd => plain_of_isAsciiWord (hdigits d hd), Bool.eq_false_iff]
    intro hn
    exact (plain_of_isAsciiWord hw).2 (h.line hn c rfl)
  refine ⟨front, digits, rfl, all, none, wordRun_of (by simp) ?_ hfront before ?_⟩
  · intro d hd
    rcases List.mem_append.1 hd with hd | hd
    · exact hdigits d hd
    · rcases List.mem_cons.1 hd with rfl | hd
      · exact hw
      · exact takeWhile_all isAsciiWord cs d hd
  · exact dropWhile_stops isAsciiWord cs

theorem Clear.illegal {cs : List Char} (h : Clear pre (c :: cs))
    (hu : firstMatch? (c :: cs) = none) : Violation pre (c :: cs) (.illegalCharacter c) := by
  by_cases ha : Allowed c cs
  · obtain rfl := underscore_of_not_covered hu ha
    obtain ⟨front, digits, rfl, all, -, run⟩ := h.wordRun (by decide)
    have := Violation.underscore run all
    rwa [List.cons_append, List.takeWhile_append_dropWhile] at this
  · refine .character ?_ ha
    have hhash : c ≠ '#' := by
      rintro rfl
      have := not_covered (r := ⟨.comment, none⟩) hu (by simp [lexicalRules])
      simp [Pattern.length?] at this
    have hpre : inComment pre = false := by
      rw [Bool.eq_false_iff]
      intro hn
      obtain rfl := h.line hn c rfl
      exact ha (Or.inl rfl)
    simp [inComment_concat, hhash, hpre]

theorem Clear.invalid (h : Clear pre (lexeme ++ rest))
    (hc : firstMatch? (lexeme ++ rest) = some (lexeme.length, kind?))
    (hu : fault? kind? lexeme = some fault) : Violation pre (lexeme ++ rest) fault := by
  obtain rfl : kind? = some .integer := by
    simp only [fault?] at hu
    split at hu
    · rename_i hf
      exact hf.1
    · cases hu
  obtain ⟨all, stop⟩ := takeWhile_eq_left (congrArg List.length (digits_of_covers hc))
  obtain ⟨d, l, rfl⟩ := List.exists_cons_of_ne_nil (List.ne_nil_of_length_pos (firstMatch?_pos hc))
  have hd : d.isDigit = true := all d List.mem_cons_self
  have hl : ∀ e ∈ l, isAsciiWord e = true :=
    fun e he => isAsciiWord_of_isDigit (all e (List.mem_cons_of_mem d he))
  rw [fault?_digits (List.cons_ne_nil d l) all] at hu
  split at hu
  · cases hu
  · rename_i hlarge
    cases hu
    obtain ⟨front, digits, rfl, -, hnone, run⟩ := h.wordRun (isAsciiWord_of_isDigit hd)
    obtain rfl := hnone hd
    rw [List.append_eq, List.takeWhile_append_of_pos hl, List.dropWhile_append_of_pos hl] at run
    have hstop : ∀ e ∈ (rest.takeWhile isAsciiWord).head?, e.isDigit = false := by
      intro e he
      rw [List.head?_takeWhile] at he
      exact stop e (Option.filter_eq_some_iff.1 he).1
    have hv : Violation front (d :: l ++ rest.takeWhile isAsciiWord ++
        rest.dropWhile isAsciiWord) _ := .literal run all hstop hlarge
    rwa [List.append_assoc, List.takeWhile_append_dropWhile, ← List.append_nil front] at hv

theorem Clear.violation {s : Scanner} {e : LexicalError} (h : Clear pre rest)
    (hh : Halts s rest (some e)) : Violation pre rest e.fault := by
  cases hh with
  | illegal uncovered => exact h.illegal uncovered
  | invalid covers unsound => exact h.invalid covers unsound

/-- A scan comes to the end of a text with nothing wrong, or halts at the first fault. -/
theorem scan_judged {s : Scanner} {e? : Option LexicalError}
    (h : ({} : Scanner).scan text = (s, e?)) :
    (e? = none → Faultless text) ∧ ∀ e, e? = some e → FirstFault text e := by
  obtain ⟨rest, hr, hh⟩ := scan_eq_iff.1 h
  obtain ⟨pre, rfl, hc, hs⟩ := (clear_nil text).reaches hr hasRead_nothing
  rw [List.nil_append] at hc hs
  refine ⟨?_, ?_⟩
  · rintro rfl front behind fault he hv
    cases hh
    obtain ⟨c, tail, rfl, -⟩ := hv.head
    refine hc.sound front (c :: tail) fault he.symm ?_ hv
    have := congrArg List.length he
    simp at this
    omega
  · rintro e rfl
    refine ⟨pre, rest, rfl, hc.violation hh, hh.standsAt.1.trans hs.place, ?_⟩
    intro front behind fault he hv
    by_contra hn
    exact hc.sound front behind fault he.symm (Nat.lt_of_not_le hn) hv

/-- Exactly those texts are read to the end in which every character outside comments may stand
where it stands and every run of word characters is sound. Otherwise the first fault in the text
is reported, at its place. -/
theorem tokenize_judged (source : String) :
    ((∃ ts, tokenize source = .ok ts) ↔
      (∀ front c behind, source.toList = front ++ c :: behind → inComment (front ++ [c]) = false →
        Allowed c behind) ∧
      ∀ front run behind, source.toList = front ++ run ++ behind → WordRun front run behind →
        RunSound run) ∧
      ∀ e, tokenize source = .error e ↔ FirstFault source.toList e := by
  obtain ⟨s, e?, hscan⟩ : ∃ s e?, ({} : Scanner).scan source.toList = (s, e?) := ⟨_, _, rfl⟩
  obtain ⟨hnone, hsome⟩ := scan_judged hscan
  rw [← faultless_iff]
  cases e? with
  | none =>
    have hok : tokenize source = .ok s.tokens.toList := tokenize_eq_ok.2 ⟨s, hscan, rfl⟩
    refine ⟨iff_of_true ⟨_, hok⟩ (hnone rfl), fun e => iff_of_false (by simp [hok]) ?_⟩
    rintro ⟨front, behind, he, hv, -⟩
    exact hnone rfl front behind _ he hv
  | some e =>
    have herror : tokenize source = .error e := tokenize_eq_error.2 ⟨s, hscan⟩
    have hfirst := hsome e rfl
    refine ⟨iff_of_false (by simp [herror]) fun hf => ?_, fun e' => ⟨fun he => ?_, fun he => ?_⟩⟩
    · obtain ⟨front, behind, he, hv, -⟩ := hfirst
      exact hf front behind _ he hv
    · obtain rfl : e = e' := by simpa [herror] using he
      exact hfirst
    · rw [herror, hfirst.unique he]

end ImpLang
