import Mathlib.Data.String.Basic

/-! The order of texts by their bytes in UTF-8, which is that by the codes of their characters. The
first byte of a character says how many more there are, and is greater the more there are; these hold
the last digits of the code in base 64. So no two characters are told apart by where their bytes end,
only by a byte that differs. -/

namespace ImpLang.Utf8

/-- The bytes of a text in UTF-8. -/
def bytes (x : String) : List UInt8 := x.toUTF8.data.toList

theorem bytes_eq (x : String) : bytes x = x.toList.flatMap String.utf8EncodeChar := by
  conv => lhs; rw [← String.ofList_toList (s := x)]
  exact List.toList_data_toByteArray

/-- At some place the lists part, and the first goes on with the smaller byte. -/
inductive PartsBelow : List UInt8 → List UInt8 → Prop
  | here {u v : UInt8} {us vs : List UInt8} (h : u < v) : PartsBelow (u :: us) (v :: vs)
  | later {u : UInt8} {us vs : List UInt8} (h : PartsBelow us vs) : PartsBelow (u :: us) (u :: vs)

theorem PartsBelow.append_lt {us vs : List UInt8} (h : PartsBelow us vs) (xs ys : List UInt8) :
    us ++ xs < vs ++ ys := by
  induction h with
  | here h => exact List.cons_lt_cons_iff.2 (Or.inl h)
  | later _ ih => exact List.cons_lt_cons_iff.2 (Or.inr ⟨rfl, ih⟩)

theorem byte_lt {m n : Nat} (h : m < n) (hn : n < 256) : UInt8.ofNat m < UInt8.ofNat n := by
  rw [UInt8.lt_iff_toNat_lt, UInt8.toNat_ofNat', UInt8.toNat_ofNat']
  omega

/-- A way of writing codes: where the values of the first byte begin, how many there are, and how many
bytes follow. -/
structure Form where
  base : Nat
  values : Nat
  more : Nat

namespace Form

/-- The way of writing a code. -/
def ofCode (n : Nat) : Form :=
  if n ≤ 0x7f then ⟨0, 0x80, 0⟩
  else if n ≤ 0x7ff then ⟨0xc0, 0x20, 1⟩
  else if n ≤ 0xffff then ⟨0xe0, 0x10, 2⟩
  else ⟨0xf0, 0x08, 3⟩

/-- The last `k` digits of the code in base 64. -/
def digits (n : Nat) : Nat → List UInt8
  | 0 => []
  | k + 1 => UInt8.ofNat (n / 64 ^ k % 64 + 0x80) :: digits n k

def write (f : Form) (n : Nat) : List UInt8 :=
  UInt8.ofNat (n / 64 ^ f.more % f.values + f.base) :: digits n f.more

theorem encode_eq (c : Char) :
    String.utf8EncodeChar c = (ofCode c.val.toNat).write c.val.toNat := by
  simp only [String.utf8EncodeChar, ofCode]
  split_ifs with h
  · have hmod : c.toNat % 0x80 = c.toNat := Nat.mod_eq_of_lt (Nat.lt_succ_of_le h)
    simp [write, digits, hmod]
  all_goals simp [write, digits]

theorem base_add_values_le (n : Nat) : (ofCode n).base + (ofCode n).values ≤ 256 := by
  unfold ofCode
  split_ifs <;> simp

theorem lead_lt {n : Nat} (h : n < 0x110000) : n / 64 ^ (ofCode n).more < (ofCode n).values := by
  unfold ofCode
  split_ifs <;> simp only <;> omega

/-- The greater of two codes is written the same way, or its first byte comes from higher values. -/
theorem ofCode_of_lt {m n : Nat} (h : m < n) :
    ofCode m = ofCode n ∨ (ofCode m).base + (ofCode m).values ≤ (ofCode n).base := by
  unfold ofCode
  split_ifs <;> first | omega | simp

theorem div_lt_or_eq {m n : Nat} (h : m < n) (k : Nat) : m / k < n / k ∨ m / k = n / k :=
  Nat.lt_or_eq_of_le (Nat.div_le_div_right (Nat.le_of_lt h))

theorem digits_partsBelow {m n k : Nat} (h : m < n) (hk : m / 64 ^ k = n / 64 ^ k) :
    PartsBelow (digits m k) (digits n k) := by
  induction k with
  | zero => omega
  | succ k ih =>
    rw [Nat.pow_succ, ← Nat.div_div_eq_div_mul, ← Nat.div_div_eq_div_mul] at hk
    rcases div_lt_or_eq h (64 ^ k) with hlt | heq
    · exact .here (byte_lt (by omega) (by omega))
    · unfold digits
      rw [heq]
      exact .later (ih heq)

theorem write_partsBelow {m n : Nat} (h : m < n) (hn : n < 0x110000) :
    PartsBelow ((ofCode m).write m) ((ofCode n).write n) := by
  have hm := lead_lt (Nat.lt_trans h hn)
  have hn := lead_lt hn
  have hbound := base_add_values_le n
  unfold write
  rw [Nat.mod_eq_of_lt hm, Nat.mod_eq_of_lt hn]
  rcases ofCode_of_lt h with hform | hform
  · rw [hform] at hm ⊢
    rcases div_lt_or_eq h (64 ^ (ofCode n).more) with hlead | hlead
    · exact .here (byte_lt (by omega) (by omega))
    · rw [hlead]
      exact .later (digits_partsBelow h hlead)
  · refine .here (byte_lt ?_ (by omega))
    calc m / 64 ^ (ofCode m).more + (ofCode m).base
      _ < (ofCode m).values + (ofCode m).base := Nat.add_lt_add_right hm _
      _ ≤ (ofCode n).base := by omega
      _ ≤ n / 64 ^ (ofCode n).more + (ofCode n).base := Nat.le_add_left _ _

end Form

theorem code_lt (c : Char) : c.val.toNat < 0x110000 := by
  have h := c.valid
  simp only [UInt32.isValidChar, Nat.isValidChar] at h
  omega

theorem encode_partsBelow {c d : Char} (h : c < d) :
    PartsBelow (String.utf8EncodeChar c) (String.utf8EncodeChar d) := by
  rw [Form.encode_eq, Form.encode_eq]
  exact Form.write_partsBelow h (code_lt d)

theorem flatMap_encode_lt {cs ds : List Char} (h : cs < ds) :
    cs.flatMap String.utf8EncodeChar < ds.flatMap String.utf8EncodeChar := by
  induction h with
  | @nil d ds =>
    obtain ⟨u, us, hu⟩ := List.exists_cons_of_ne_nil (String.utf8EncodeChar_ne_nil (c := d))
    rw [List.flatMap_nil, List.flatMap_cons, hu]
    exact List.nil_lt_cons _ _
  | rel h =>
    rw [List.flatMap_cons, List.flatMap_cons]
    exact (encode_partsBelow h).append_lt _ _
  | cons _ ih =>
    rw [List.flatMap_cons, List.flatMap_cons]
    exact List.append_left_lt ih

/-- Texts are in the same order by their bytes and by the codes of their characters. -/
theorem bytes_lt_iff {x y : String} : bytes x < bytes y ↔ x < y := by
  have hmono {x y : String} (h : x < y) : bytes x < bytes y := by
    rw [bytes_eq, bytes_eq]
    exact flatMap_encode_lt (String.lt_iff_toList_lt.1 h)
  refine ⟨fun h => ?_, hmono⟩
  rcases lt_trichotomy x y with hxy | rfl | hxy
  · exact hxy
  · exact absurd h (List.lt_irrefl _)
  · exact absurd h (List.lt_asymm (hmono hxy))

end ImpLang.Utf8
