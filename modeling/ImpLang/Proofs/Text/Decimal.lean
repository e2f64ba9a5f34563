import ImpLang.Text.Decimal

/-! Numerals and words. Digits alone read as a word that is not negative, if as any; what is
written is written as integers are everywhere, and reads back. -/

namespace ImpLang.Decimal

theorem natural?_digits {ds : List Char} (hne : ds ≠ []) (hd : ∀ c ∈ ds, c.isDigit = true) :
    natural? ds = some (value ds) :=
  natural?_eq_some_iff.2 ⟨hne, hd, rfl⟩

theorem integer?_digits {ds : List Char} (hne : ds ≠ []) (hd : ∀ c ∈ ds, c.isDigit = true) :
    integer? ds = some (value ds : Int) := by
  unfold integer?
  split
  · exact absurd (hd '+' (by simp)) (by decide)
  · exact absurd (hd '-' (by simp)) (by decide)
  · rw [natural?_digits hne hd]
    rfl

theorem read?_digits {ds : List Char} (hne : ds ≠ []) (hd : ∀ c ∈ ds, c.isDigit = true) :
    read? (String.ofList ds) = word? (value ds) := by
  rw [read?, String.toList_ofList, integer?_digits hne hd, Option.bind_some]

/-- Digits without a sign read as no negative word. -/
theorem toInt_nonneg {x : String} {n : Int64} (hne : x.toList ≠ [])
    (hd : ∀ c ∈ x.toList, c.isDigit = true) (h : read? x = some n) : 0 ≤ n.toInt := by
  rw [← @String.ofList_toList x, read?_digits hne hd] at h
  rw [word?_eq_some_iff.1 h]
  exact Int.natCast_nonneg _

theorem value_toDigits (n : Nat) : value (Nat.toDigits 10 n) = n := Nat.ofDigitChars_ten_toDigits

theorem digits_all (n : Nat) : ∀ c ∈ Nat.toDigits 10 n, c.isDigit = true :=
  fun _ => Nat.isDigit_of_mem_toDigits (by decide) (by decide)

theorem write_of_nonneg {n : Int64} (h : 0 ≤ n.toInt) :
    write n = String.ofList (Nat.toDigits 10 n.toInt.natAbs) := by
  rw [write, if_neg (Int.not_lt.2 h), String.empty_append]

theorem write_of_neg {n : Int64} (h : n.toInt < 0) :
    write n = "-" ++ String.ofList (Nat.toDigits 10 n.toInt.natAbs) := by
  rw [write, if_pos h]

theorem read?_write (n : Int64) : read? (write n) = some n := by
  rcases Int.lt_or_le n.toInt 0 with h | h
  · have hdigits := natural?_digits Nat.toDigits_ne_nil (digits_all n.toInt.natAbs)
    rw [value_toDigits] at hdigits
    have hsign : (write n).toList = '-' :: Nat.toDigits 10 n.toInt.natAbs := by
      simp [write_of_neg h]
    have hread : integer? (write n).toList = some (-(n.toInt.natAbs : Int)) := by
      rw [hsign, integer?, hdigits]
      rfl
    rw [read?, hread, Option.bind_some, word?_eq_some_iff]
    omega
  · rw [write_of_nonneg h, read?_digits Nat.toDigits_ne_nil (digits_all _), value_toDigits,
      word?_eq_some_iff, Int.natAbs_of_nonneg h]

theorem write_inj {m n : Int64} (h : write m = write n) : m = n := by
  apply Option.some.inj
  rw [← read?_write m, h, read?_write]

theorem write_eq_toString (n : Int64) : write n = toString n.toInt := by
  cases h : n.toInt with
  | ofNat m =>
    rw [write_of_nonneg (h ▸ Int.natCast_nonneg m), h]
    rfl
  | negSucc m =>
    rw [write_of_neg (h ▸ Int.negSucc_lt_zero m), h]
    rfl

theorem blank_not_mem_write (n : Int64) : ' ' ∉ (write n).toList := by
  intro h
  rw [write, String.toList_append, List.mem_append, String.toList_ofList] at h
  rcases h with h | h
  · split at h <;> simp at h
  · exact absurd (digits_all _ _ h) (by decide)

end ImpLang.Decimal
