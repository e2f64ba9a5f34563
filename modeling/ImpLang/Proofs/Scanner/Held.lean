import ImpLang.Proofs.Scanner.Feeds
import ImpLang.Proofs.Scanner.Lexemes
import Mathlib.Data.List.Induction

/-! What the scanner holds, however it was fed. Every token is spelled like its kind, but a keyword
may be held as a name. That takes a character past ASCII with which its word would go on: the
keyword is no keyword then, the name ends there all the same, and as no rule covers the character
the feed fails at once, right behind the token. -/

namespace ImpLang

/-- A keyword, held as a name. -/
def Token.Misread (t : Token) : Prop := t.kind = .identifier ∧ t.lexeme ∈ keywords

/-- The error is in the token's line, right behind it, and names a character past ASCII with which
a word goes on. -/
def Token.CutOff (t : Token) (e : LexicalError) : Prop :=
  ∃ c, e = ⟨.illegalCharacter c, t.location.line, t.location.column + t.lexeme.length⟩ ∧
    isWord c = true ∧ 0x80 ≤ c.toNat

theorem Location.advance_word {lexeme : List Char} (h : ∀ c ∈ lexeme, isAsciiWord c = true)
    (l : Location) : l.advance lexeme = ⟨l.line, l.column + lexeme.length⟩ := by
  induction lexeme generalizing l with
  | nil => rfl
  | cons c cs ih =>
    have hc : c ≠ '\n' := by
      rintro rfl
      exact absurd (h '\n' List.mem_cons_self) (by decide)
    rw [advance_cons, ih fun d hd => h d (List.mem_cons_of_mem c hd), next, if_neg hc,
      List.length_cons, Nat.add_assoc, Nat.add_comm 1]

namespace Scanner

variable {s s' : Scanner} {text rest lexeme : List Char} {e? : Option LexicalError} {t : Token}
  {new : List Token}

/-- What a scan pushes: a keyword among the names is the last token, where the scan failed. -/
structure Pushes (e? : Option LexicalError) (new : List Token) : Prop where
  spelled : ∀ t ∈ new, t.WellSpelled
  cutOff : ∀ before t after, new = before ++ t :: after → t.Misread →
    after = [] ∧ ∃ e, e? = some e ∧ t.CutOff e

theorem pushes_nothing (e? : Option LexicalError) : Pushes e? [] :=
  ⟨by simp, fun before t after h => by simp at h⟩

theorem Pushes.cons (h : Pushes e? new) (ht : t.WellSpelled)
    (hm : t.Misread → new = [] ∧ ∃ e, e? = some e ∧ t.CutOff e) : Pushes e? (t :: new) := by
  refine ⟨List.forall_mem_cons.2 ⟨ht, h.spelled⟩, fun before u after he hu => ?_⟩
  rcases List.cons_eq_append_iff.1 he with ⟨-, hc⟩ | ⟨before, -, hnew⟩
  · obtain ⟨rfl, rfl⟩ := List.cons.inj hc
    exact hm hu
  · exact h.cutOff before u after hnew hu

/-- Where no rule covers anything the run is over. -/
theorem Reaches.stuck (h : Reaches s text s' rest) (hu : firstMatch? text = none) :
    s' = s ∧ rest = text := by
  cases h with
  | refl => exact ⟨rfl, rfl⟩
  | step first _ =>
    rw [first.covers] at hu
    cases hu

theorem Halts.of_uncovered {c : Char} {cs : List Char} (h : Halts s (c :: cs) e?)
    (hu : firstMatch? (c :: cs) = none) : e? = some ⟨.illegalCharacter c, s.location⟩ := by
  have hscan := h.scan.symm.trans (Halts.illegal hu).scan
  exact congrArg Prod.snd hscan

/-- Behind a keyword that was taken for a name, the scan fails. -/
theorem Takes.cutOff (h : Takes (some .identifier) lexeme text)
    (hk : String.ofList lexeme ∈ keywords)
    (hr : Reaches (s.accept (some .identifier) lexeme) text s' rest) (hh : Halts s' rest e?) :
    s' = s.accept (some .identifier) lexeme ∧
      ∃ e, e? = some e ∧ (⟨.identifier, String.ofList lexeme, s.location⟩ : Token).CutOff e := by
  obtain ⟨c, cs, rfl, hword, hc⟩ := h.keyword_goes_on hk
  have hu := firstMatch?_nonAscii hc cs
  obtain ⟨rfl, rfl⟩ := hr.stuck hu
  refine ⟨rfl, _, hh.of_uncovered hu, c, ?_, hword, hc⟩
  have hplace := Location.advance_word h.name.2.1 s.location
  simpa [Scanner.accept] using hplace

theorem Reaches.pushes (h : Reaches s text s' rest) (hh : Halts s' rest e?) :
    ∃ new, s'.tokens.toList = s.tokens.toList ++ new ∧ Pushes e? new := by
  induction h with
  | refl => exact ⟨[], (List.append_nil _).symm, pushes_nothing e?⟩
  | @step s s' kind? lexeme text rest first more ih =>
    obtain ⟨new, hnew, hpushes⟩ := ih hh
    cases kind? with
    | none => exact ⟨new, hnew, hpushes⟩
    | some kind =>
      have htokens : (s.accept (some kind) lexeme).tokens.toList =
          s.tokens.toList ++ [⟨kind, String.ofList lexeme, s.location⟩] := by
        simp [Scanner.accept, push]
      refine ⟨⟨kind, String.ofList lexeme, s.location⟩ :: new, ?_,
        hpushes.cons (first.wellSpelled s.location) ?_⟩
      · rw [hnew, htokens, List.append_assoc, List.singleton_append]
      · rintro ⟨hkind, hk⟩
        obtain rfl : kind = .identifier := hkind
        obtain ⟨rfl, hcut⟩ := first.cutOff hk more hh
        exact ⟨List.self_eq_append_right.1 hnew, hcut⟩

theorem scan_pushes (h : s.scan text = (s', e?)) :
    ∃ new, s'.tokens.toList = s.tokens.toList ++ new ∧ Pushes e? new := by
  obtain ⟨rest, hr, hh⟩ := scan_eq_iff.1 h
  exact hr.pushes hh

/-! Feed after feed. -/

theorem feedAll_concat (s : Scanner) (texts : List String) (text : String) :
    s.feedAll (texts ++ [text]) = ((s.feedAll texts).scan text.toList).1 := by
  induction texts generalizing s with
  | nil => exact feed_fst s text
  | cons first texts ih => exact ih (s.feed first).1

theorem feedAll_spelled (h : ∀ t ∈ s.tokens.toList, t.WellSpelled) (texts : List String) :
    ∀ t ∈ (s.feedAll texts).tokens.toList, t.WellSpelled := by
  induction texts generalizing s with
  | nil => exact h
  | cons text texts ih =>
    obtain ⟨t, e?, hscan⟩ : ∃ t e?, s.scan text.toList = (t, e?) := ⟨_, _, rfl⟩
    obtain ⟨new, hnew, hpushes⟩ := scan_pushes hscan
    rw [feedAll, feed_fst, hscan]
    apply ih
    rw [hnew]
    exact List.forall_mem_append.2 ⟨h, hpushes.spelled⟩

/-- One of the feeds failed right behind the token, which it had pushed on top of those held. -/
def CutOffIn (texts : List String) (held : List Token) (t : Token) : Prop :=
  ∃ front text back s e, texts = front ++ text :: back ∧
    (({} : Scanner).feedAll front).feed text = (s, .failed e) ∧
    (({} : Scanner).feedAll front).tokens.toList <+: held ∧ s.tokens.toList = held ++ [t] ∧
    t.CutOff e

theorem CutOffIn.concat {texts : List String} {held : List Token} (h : CutOffIn texts held t)
    (text : String) : CutOffIn (texts ++ [text]) held t := by
  obtain ⟨front, middle, back, s, e, rfl, hfeed, hheld, htokens, hcut⟩ := h
  exact ⟨front, middle, back ++ [text], s, e, by simp, hfeed, hheld, htokens, hcut⟩

/-- One of two lists put together holds what the whole holds at a place. -/
theorem append_cons_cases {us ws held more : List Token} (h : us ++ ws = held ++ t :: more) :
    (∃ zs, us = held ++ t :: zs) ∨ ∃ before, held = us ++ before ∧ ws = before ++ t :: more := by
  rcases List.append_eq_append_iff.1 h with ⟨before, hheld, hlast⟩ | ⟨zs, hus, hmore⟩
  · exact Or.inr ⟨before, hheld, hlast⟩
  · rcases List.cons_eq_append_iff.1 hmore with ⟨rfl, hlast⟩ | ⟨zs, rfl, -⟩
    · exact Or.inr ⟨[], by rw [hus, List.append_nil, List.append_nil], hlast⟩
    · exact Or.inl ⟨zs, hus⟩

theorem misread_cutOff {texts : List String} {held more : List Token}
    (h : (({} : Scanner).feedAll texts).tokens.toList = held ++ t :: more) (ht : t.Misread) :
    CutOffIn texts held t := by
  induction texts using List.reverseRecOn generalizing more with
  | nil => simp [feedAll] at h
  | append_singleton texts text ih =>
    rcases hscan : (({} : Scanner).feedAll texts).scan text.toList with ⟨s, e?⟩
    obtain ⟨new, hnew, hpushes⟩ := scan_pushes hscan
    rw [feedAll_concat, hscan, hnew] at h
    rcases append_cons_cases h with ⟨zs, hheld⟩ | ⟨before, rfl, hlast⟩
    · exact (ih hheld).concat text
    · -- the token is one of those that this feed pushed
      obtain ⟨rfl, e, rfl, hcut⟩ := hpushes.cutOff before t more hlast ht
      have hfeed : (({} : Scanner).feedAll texts).feed text = (s, .failed e) := by
        rw [feed, hscan]
      have htokens : s.tokens.toList =
          (({} : Scanner).feedAll texts).tokens.toList ++ before ++ [t] := by
        rw [hnew, hlast, List.append_assoc]
      exact ⟨texts, text, [], s, e, rfl, hfeed, List.prefix_append _ _, htokens, hcut⟩

/-- None of the feeds failed. -/
def AllRead (texts : List String) : Prop :=
  ∀ front text back, texts = front ++ text :: back → ∀ e,
    ((({} : Scanner).feedAll front).feed text).2 ≠ .failed e

theorem AllRead.not_misread {texts : List String} (h : AllRead texts) :
    ∀ t ∈ (({} : Scanner).feedAll texts).tokens.toList, ¬ t.Misread := by
  intro t ht hm
  obtain ⟨held, more, hheld⟩ := List.append_of_mem ht
  obtain ⟨front, text, back, s, e, he, hfeed, -⟩ := misread_cutOff hheld hm
  exact h front text back he e (congrArg Prod.snd hfeed)

end Scanner

/-- However texts are fed, failing feeds included, all tokens held are spelled like their kind. A
keyword is held as a name only as the last token that a failing feed pushed, cut off right there by
a character past ASCII. So where no feed fails, and in a text that is scanned as a whole, no keyword
is taken for a name. -/
theorem held_tokens_spelled :
    (∀ texts, ∀ t ∈ (({} : Scanner).feedAll texts).tokens.toList, t.WellSpelled) ∧
      (∀ texts held t more,
        (({} : Scanner).feedAll texts).tokens.toList = held ++ t :: more →
          t.kind = .identifier → t.lexeme ∈ keywords →
            ∃ front text back s e, texts = front ++ text :: back ∧
              (({} : Scanner).feedAll front).feed text = (s, .failed e) ∧
              (({} : Scanner).feedAll front).tokens.toList <+: held ∧
              s.tokens.toList = held ++ [t] ∧ t.CutOff e) ∧
      (∀ texts, Scanner.AllRead texts →
        ∀ t ∈ (({} : Scanner).feedAll texts).tokens.toList,
          t.kind = .identifier → t.lexeme ∉ keywords) ∧
      ∀ source ts, tokenize source = .ok ts → ∀ t ∈ ts, t.kind = .identifier →
        t.lexeme ∉ keywords := by
  refine ⟨Scanner.feedAll_spelled (by simp), ?_, ?_, ?_⟩
  · intro texts held t more h hkind hk
    exact Scanner.misread_cutOff h ⟨hkind, hk⟩
  · intro texts h t ht hkind hk
    exact h.not_misread t ht ⟨hkind, hk⟩
  · intro source ts h t ht hkind hk
    obtain ⟨s, hscan, rfl⟩ := tokenize_eq_ok.1 h
    obtain ⟨new, hnew, hpushes⟩ := Scanner.scan_pushes hscan
    rw [hnew] at ht
    obtain ⟨before, after, hlast⟩ := List.append_of_mem (by simpa using ht : t ∈ new)
    obtain ⟨-, e, he, -⟩ := hpushes.cutOff before t after hlast ⟨hkind, hk⟩
    cases he

-- the letter refuses the feed, but the keyword in front of it is held, and stays held
example : (({} : Scanner).feedAll ["x ifé", "end"]).tokens.toList =
    [⟨.identifier, "x", ⟨1, 1⟩⟩, ⟨.identifier, "if", ⟨1, 3⟩⟩, ⟨.reserved, "end", ⟨1, 5⟩⟩] := by
  decide +kernel

end ImpLang
