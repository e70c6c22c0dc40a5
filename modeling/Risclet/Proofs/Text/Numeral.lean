import Mathlib.Data.List.TakeWhile
import Risclet.Text.Numeral

/-! # Reading runs of digits

A run of decimal digits is read as its decimal value if it is not too long, and with a minus sign
before it as the negative of that value.  Nothing is passed over in it: no digit is blank, and none
is a sign or an underscore.  In print an integer has no other characters than digits and a minus
sign.
-/
namespace Risclet
namespace Text

theorem exists_zero_of_digitFrom {zs : List Nat} {n d : Nat} (h : digitFrom zs n = some d) :
    ∃ z ∈ zs, z ≤ n ∧ n < z + 10 := by
  induction zs with
  | nil => cases h
  | cons z rest ih =>
    rw [digitFrom] at h
    split at h
    · cases h
    · split at h
      · exact ⟨z, List.mem_cons_self, by omega, by omega⟩
      · obtain ⟨y, hy, hlo, hhi⟩ := ih h
        exact ⟨y, List.mem_cons_of_mem _ hy, hlo, hhi⟩

/-- No digit is blank. -/
theorem isBlank_of_isDigit {c : Char} (h : isDigit c = true) : isBlank c = false := by
  have hapart : ∀ z ∈ zeros, ∀ r ∈ blankRanges, r.2 < z ∨ z + 10 ≤ r.1 := by decide
  obtain ⟨d, hd⟩ := Option.isSome_iff_exists.mp h
  obtain ⟨z, hz, hlo, hhi⟩ := exists_zero_of_digitFrom hd
  rw [← Bool.not_eq_true]
  intro hb
  obtain ⟨r, hr, hr1, hr2⟩ := Ranges.exists_of_covers hb
  rcases hapart z hz r hr with h | h <;> omega

theorem ne_of_isDigit {c x : Char} (hc : isDigit c = true) (hx : isDigit x = false) : c ≠ x := by
  rintro rfl
  rw [hc] at hx
  cases hx

/-- An integer is printed with digits of ASCII and a minus sign only. -/
theorem mem_toString_int {v : Int} {c : Char} (h : c ∈ (toString v).toList) :
    c.isDigit = true ∨ c = '-' := by
  have hnat : ∀ n : Nat, c ∈ (Nat.repr n).toList → c.isDigit = true := by
    intro n hn
    rw [Nat.toList_repr] at hn
    exact Nat.isDigit_of_mem_toDigits (by decide) (by decide) hn
  cases v with
  | ofNat n => exact .inl (hnat n h)
  | negSucc n =>
    have htext : toString (Int.negSucc n) = "-" ++ Nat.repr (n + 1) := rfl
    rw [htext, String.toList_append, List.mem_append] at h
    rcases h with h | h
    · exact .inr (by simpa using h)
    · exact .inl (hnat _ h)

namespace Numeral

/-- A run of digits that is not too long to be read. -/
structure IsNumeral (s : String) : Prop where
  nonempty : s.toList ≠ []
  digits : ∀ c ∈ s.toList, isDigit c = true
  short : s.length ≤ maxDigits

section Digits
variable {cs : List Char} (h : ∀ c ∈ cs, isDigit c = true)
include h

theorem wellSeparated_of_digits (hne : cs ≠ []) : wellSeparated cs = true := by
  have hc : ∀ c ∈ cs, c ≠ '_' := fun c hc => ne_of_isDigit (h c hc) (by decide)
  clear h
  fun_induction wellSeparated cs with
  | case1 => exact absurd rfl hne
  | case2 c => simpa using hc c List.mem_cons_self
  | case3 d rest => exact absurd rfl (hc _ List.mem_cons_self)
  | case4 c rest _ _ => exact absurd rfl (hc _ (List.mem_cons_of_mem _ List.mem_cons_self))
  | case5 c d rest _ _ ih =>
    exact ih (List.cons_ne_nil _ _) fun x hx => hc x (List.mem_cons_of_mem _ hx)

/-- All of a run of digits is read. -/
theorem readUnsigned_of_digits (hne : cs ≠ []) (hshort : cs.length ≤ maxDigits) :
    readUnsigned cs = .ok (decimalValue cs) := by
  have hchar : ∀ c ∈ cs, isNumeralChar c = true := fun c hc => by simp [isNumeralChar, h c hc]
  have htake : cs.takeWhile isNumeralChar = cs := List.takeWhile_eq_self_iff.mpr hchar
  have hdrop : cs.dropWhile isNumeralChar = [] := List.dropWhile_eq_nil_iff.mpr hchar
  have hfilter : cs.filter isDigit = cs := List.filter_eq_self.mpr h
  have hlong : ¬ maxDigits < cs.length := by omega
  simp [readUnsigned, htake, hdrop, hfilter, wellSeparated_of_digits h hne, hlong]

/-- A run of digits that is too long is refused, and its length is told. -/
theorem readUnsigned_of_long (hne : cs ≠ []) (hlong : maxDigits < cs.length) :
    readUnsigned cs = .error (.tooLong cs.length) := by
  have hchar : ∀ c ∈ cs, isNumeralChar c = true := fun c hc => by simp [isNumeralChar, h c hc]
  have htake : cs.takeWhile isNumeralChar = cs := List.takeWhile_eq_self_iff.mpr hchar
  have hfilter : cs.filter isDigit = cs := List.filter_eq_self.mpr h
  simp [readUnsigned, htake, hfilter, wellSeparated_of_digits h hne, hlong]

end Digits

/-- A digit is no sign, so a run of digits is read from its first character on. -/
theorem read_of_digits {s : String} (hne : s.toList ≠ []) (h : ∀ c ∈ s.toList, isDigit c = true) :
    read s = (readUnsigned s.toList).map (fun n : Nat => (n : Int)) := by
  obtain ⟨c, cs, hcs⟩ := List.exists_cons_of_ne_nil hne
  have hc : isDigit c = true := h c (by simp [hcs])
  have hdrop : s.toList.dropWhile isPadding = c :: cs := by
    simp [hcs, isPadding, isBlank_of_isDigit hc]
  rw [read, hdrop]
  split
  · next he => exact absurd (List.cons.inj he).1 (ne_of_isDigit hc (by decide))
  · next he => exact absurd (List.cons.inj he).1 (ne_of_isDigit hc (by decide))
  · rw [hcs]
    cases readUnsigned (c :: cs) <;> rfl

/-- What follows a minus sign is read without sign. -/
theorem read_minus (s : String) :
    read ("-" ++ s) = (readUnsigned s.toList).map (fun n : Nat => -(n : Int)) := by
  have hpad : isPadding '-' = false := by decide
  have hdrop : ("-" ++ s).toList.dropWhile isPadding = '-' :: s.toList := by simp [hpad]
  simp only [read, hdrop]
  cases readUnsigned s.toList <;> rfl

section Read
variable {s : String} (h : IsNumeral s)
include h

theorem readUnsigned_isNumeral : readUnsigned s.toList = .ok (decimalValue s.toList) :=
  readUnsigned_of_digits h.digits h.nonempty (String.length_toList ▸ h.short)

theorem read_isNumeral : read s = .ok (decimalValue s.toList : Int) := by
  rw [read_of_digits h.nonempty h.digits, readUnsigned_isNumeral h]
  rfl

theorem read_minus_isNumeral : read ("-" ++ s) = .ok (-(decimalValue s.toList : Int)) := by
  rw [read_minus, readUnsigned_isNumeral h]
  rfl

end Read
end Numeral
end Text
end Risclet
