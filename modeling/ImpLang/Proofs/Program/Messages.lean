import ImpLang.Program.Run
import ImpLang.Proofs.Text.Decimal

/-! Messages. No two errors have the same one: errors of different kinds begin with different letters,
and the parts of a message can be told apart at the blanks between them. -/

namespace ImpLang

section Blanks

variable {w x y s t x' y' s' : String}

theorem eq_nil_of_first_blank {as ss ts : List Char} (ha : ' ' ∉ as)
    (h : ' ' :: ss = as ++ ' ' :: ts) : as = [] ∧ ss = ts := by
  cases as with
  | nil => exact ⟨rfl, (List.cons.inj h).2⟩
  | cons c as => exact absurd ((List.cons.inj h).1 ▸ List.mem_cons_self) ha

theorem first_blank_inj {xs ys ss ts : List Char} (hx : ' ' ∉ xs) (hy : ' ' ∉ ys)
    (h : xs ++ ' ' :: ss = ys ++ ' ' :: ts) : xs = ys ∧ ss = ts := by
  rcases List.append_eq_append_iff.1 h with ⟨as, rfl, has⟩ | ⟨as, rfl, has⟩
  · obtain ⟨rfl, hst⟩ := eq_nil_of_first_blank (fun ha => hy (List.mem_append_right xs ha)) has
    exact ⟨(List.append_nil xs).symm, hst⟩
  · obtain ⟨rfl, hst⟩ := eq_nil_of_first_blank (fun ha => hx (List.mem_append_right ys ha)) has
    exact ⟨List.append_nil ys, hst.symm⟩

theorem before_blank_inj (hx : ' ' ∉ x.toList) (hy : ' ' ∉ y.toList)
    (h : x ++ (" " ++ s) = y ++ (" " ++ t)) : x = y ∧ s = t := by
  rw [← String.toList_inj] at h
  simp only [String.toList_append] at h
  obtain ⟨hxy, hst⟩ := first_blank_inj hx hy h
  exact ⟨String.toList_inj.1 hxy, String.toList_inj.1 hst⟩

theorem behind_blank_inj (hs : ' ' ∉ s.toList) (ht : ' ' ∉ t.toList)
    (h : x ++ (" " ++ s) = y ++ (" " ++ t)) : x = y ∧ s = t := by
  -- the last blank is the first one of the text read backwards
  have hback : s.toList.reverse ++ ' ' :: x.toList.reverse =
      t.toList.reverse ++ ' ' :: y.toList.reverse := by
    simpa using congrArg (List.reverse ∘ String.toList) h
  obtain ⟨hst, hxy⟩ := first_blank_inj (by simpa using hs) (by simpa using ht) hback
  exact ⟨String.toList_inj.1 (List.reverse_inj.1 hxy), String.toList_inj.1 (List.reverse_inj.1 hst)⟩

theorem between_blanks_inj (hx : ' ' ∉ x.toList) (hx' : ' ' ∉ x'.toList) (hs : ' ' ∉ s.toList)
    (hs' : ' ' ∉ s'.toList) (h : w ++ x ++ " " ++ y ++ " " ++ s = w ++ x' ++ " " ++ y' ++ " " ++ s') :
    x = x' ∧ y = y' ∧ s = s' := by
  simp only [String.append_assoc, String.append_right_inj] at h
  obtain ⟨hxx', h⟩ := before_blank_inj hx hx' h
  exact ⟨hxx', behind_blank_inj hs hs' h⟩

end Blanks

theorem blank_not_mem_toString (n : Nat) : ' ' ∉ (toString n).toList := by
  intro h
  exact absurd (Decimal.digits_all n ' ' (by simpa using h)) (by decide)

theorem toString_inj {m n : Nat} (h : toString m = toString n) : m = n := by
  have hdigits : Nat.toDigits 10 m = Nat.toDigits 10 n := by
    simpa using congrArg String.toList h
  rw [← Decimal.value_toDigits m, hdigits, Decimal.value_toDigits]

theorem Location.append_describe_inj {x y : String} {l m : Location}
    (h : x ++ l.describe = y ++ m.describe) : x = y ∧ l = m := by
  have hparts (x : String) (l : Location) : x ++ l.describe =
      x ++ "line" ++ (" " ++ toString l.line) ++ ", column" ++ (" " ++ toString l.column) := by
    have hline : "line " = "line" ++ " " := by decide
    have hcolumn : ", column " = ", column" ++ " " := by decide
    rw [describe, hline, hcolumn]
    simp only [String.append_assoc]
  rw [hparts, hparts] at h
  obtain ⟨h, hcolumn⟩ := behind_blank_inj (blank_not_mem_toString _) (blank_not_mem_toString _) h
  obtain ⟨h, hline⟩ := behind_blank_inj (blank_not_mem_toString _) (blank_not_mem_toString _)
    ((String.append_left_inj _).1 h)
  refine ⟨(String.append_left_inj _).1 h, ?_⟩
  obtain ⟨i, j⟩ := l
  obtain ⟨i', j'⟩ := m
  obtain rfl := toString_inj hline
  obtain rfl := toString_inj hcolumn
  rfl

/-! The kind of an error can be read off the first letters of its message. -/

def LexicalFault.opening : LexicalFault → List Char
  | illegalCharacter _ => ['I', 'l', 'l']
  | invalidInteger _ => ['I', 'n', 'v']

def Fault.opening : Fault → List Char
  | unknownOperator _ => ['U', 'n', 'k']
  | divisionByZero => ['D', 'i', 'v']
  | overflow .. => ['I', 'n', 't']

def ProgramError.opening : ProgramError → List Char
  | lexical e => e.fault.opening
  | notAProgram => ['P', 'a', 'r']
  | fault f => f.opening

theorem prefix_append {w : String} {ks : List Char} (h : ks <+: w.toList) (x : String) :
    ks <+: (w ++ x).toList := by
  rw [String.toList_append]
  exact h.trans (List.prefix_append _ _)

namespace ProgramError

theorem opening_prefix (e : ProgramError) : e.opening <+: e.message.toList := by
  rcases e with ⟨c | x, l⟩ | _ | (x | _ | ⟨o, l, r⟩)
  · iterate 4 apply prefix_append
    change ['I', 'l', 'l'] <+: _
    decide +kernel
  · iterate 4 apply prefix_append
    change ['I', 'n', 'v'] <+: _
    decide +kernel
  · decide +kernel
  · apply prefix_append
    change ['U', 'n', 'k'] <+: _
    decide +kernel
  · decide +kernel
  · iterate 5 apply prefix_append
    change ['I', 'n', 't'] <+: _
    decide +kernel

theorem length_opening (e : ProgramError) : e.opening.length = 3 := by
  rcases e with ⟨c | x, l⟩ | _ | (x | _ | ⟨o, l, r⟩) <;> rfl

theorem opening_eq {e f : ProgramError} (h : e.message = f.message) : e.opening = f.opening := by
  have hlength : e.opening.length = f.opening.length := by rw [length_opening, length_opening]
  have he : e.opening <+: f.message.toList := h ▸ e.opening_prefix
  have hprefix := List.prefix_of_prefix_length_le he f.opening_prefix (Nat.le_of_eq hlength)
  exact hprefix.eq_of_length hlength

end ProgramError

theorem LexicalError.message_inj {e f : LexicalError} (h : e.message = f.message) : e = f := by
  have hopening : e.fault.opening = f.fault.opening :=
    @ProgramError.opening_eq (.lexical e) (.lexical f) h
  obtain ⟨fault, l⟩ := e
  obtain ⟨fault', m⟩ := f
  obtain ⟨h, rfl⟩ := Location.append_describe_inj h
  rw [String.append_left_inj] at h
  cases fault with
  | illegalCharacter c =>
    cases fault' with
    | illegalCharacter d =>
      rw [String.append_left_inj, String.append_right_inj] at h
      have hcd : [c] = [d] := by simpa using congrArg String.toList h
      cases hcd
      rfl
    | invalidInteger => cases hopening
  | invalidInteger x =>
    cases fault' with
    | illegalCharacter => cases hopening
    | invalidInteger y =>
      rw [String.append_left_inj, String.append_right_inj] at h
      rw [h]

theorem Fault.message_inj {f g : Fault} (h : f.message = g.message) : f = g := by
  have hopening : f.opening = g.opening := @ProgramError.opening_eq (.fault f) (.fault g) h
  cases f with
  | unknownOperator x =>
    cases g with
    | unknownOperator y => rw [(String.append_right_inj _).1 h]
    | divisionByZero | overflow => cases hopening
  | divisionByZero =>
    cases g with
    | divisionByZero => rfl
    | unknownOperator | overflow => cases hopening
  | overflow o l r =>
    cases g with
    | overflow o' l' r' =>
      obtain ⟨hl, ho, hr⟩ := between_blanks_inj (Decimal.blank_not_mem_write l)
        (Decimal.blank_not_mem_write l') (Decimal.blank_not_mem_write r)
        (Decimal.blank_not_mem_write r') h
      rw [Decimal.write_inj hl, ho, Decimal.write_inj hr]
    | unknownOperator | divisionByZero => cases hopening

theorem ProgramError.message_inj {e f : ProgramError} (h : e.message = f.message) : e = f := by
  have hopening := opening_eq h
  cases e with
  | lexical e =>
    cases f with
    | lexical f => rw [LexicalError.message_inj h]
    | notAProgram => rcases e with ⟨_ | _, _⟩ <;> cases hopening
    | fault f => rcases e with ⟨_ | _, _⟩ <;> cases f <;> cases hopening
  | notAProgram =>
    cases f with
    | lexical f => rcases f with ⟨_ | _, _⟩ <;> cases hopening
    | notAProgram => rfl
    | fault f => cases f <;> cases hopening
  | fault e =>
    cases f with
    | lexical f => rcases f with ⟨_ | _, _⟩ <;> cases e <;> cases hopening
    | notAProgram => cases e <;> cases hopening
    | fault f => rw [Fault.message_inj h]

end ImpLang
