/-! The 64-bit signed words that variables hold, and the exact integers that fit one. -/

namespace ImpLang

/-- From -2^63 up to 2^63 - 1. -/
def FitsWord (i : Int) : Prop := -9223372036854775808 ≤ i ∧ i ≤ 9223372036854775807

instance (i : Int) : Decidable (FitsWord i) := inferInstanceAs (Decidable (_ ∧ _))

/-- The word with value `i`, when there is one. -/
def word? (i : Int) : Option Int64 := if FitsWord i then some (Int64.ofInt i) else none

theorem fitsWord_toInt (n : Int64) : FitsWord n.toInt := ⟨n.le_toInt, Int.le_of_lt_add_one n.toInt_lt⟩

theorem toInt_ofInt_of_fits {i : Int} (h : FitsWord i) : (Int64.ofInt i).toInt = i :=
  Int64.toInt_ofInt_of_le h.1 (Int.lt_add_one_of_le h.2)

theorem word?_toInt (n : Int64) : word? n.toInt = some n := by
  simp [word?, fitsWord_toInt]

theorem word?_eq_some_iff {i : Int} {n : Int64} : word? i = some n ↔ n.toInt = i := by
  constructor
  · intro h
    unfold word? at h
    split at h
    · rename_i hf
      rw [← Option.some.inj h, toInt_ofInt_of_fits hf]
    · cases h
  · rintro rfl
    exact word?_toInt n

theorem word?_eq_none_iff {i : Int} : word? i = none ↔ ¬ FitsWord i := by
  simp [word?]

end ImpLang
