/-! # Ranges of code points

A class of characters is given by its code points, written as closed ranges in ascending order.
Looking a code point up walks the ranges and stops at the first one that begins beyond it, so that
the common small code points are settled at once.
-/
namespace Risclet
namespace Text

/-- Closed ranges of code points, in ascending order. -/
abbrev Ranges := List (Nat × Nat)

namespace Ranges

/-- Whether `n` lies in one of the ranges. -/
def covers : Ranges → Nat → Bool
  | [], _ => false
  | (lo, hi) :: rest, n => if n < lo then false else if n ≤ hi then true else covers rest n

@[simp] theorem covers_nil (n : Nat) : covers [] n = false := rfl

/-- A covered code point lies in some range. -/
theorem exists_of_covers {r : Ranges} {n : Nat} (h : covers r n = true) :
    ∃ p ∈ r, p.1 ≤ n ∧ n ≤ p.2 := by
  induction r with
  | nil => simp at h
  | cons p rest ih =>
    obtain ⟨lo, hi⟩ := p
    rw [covers] at h
    by_cases hlo : n < lo
    · simp [hlo] at h
    · by_cases hhi : n ≤ hi
      · exact ⟨(lo, hi), by simp, by omega, hhi⟩
      · rw [if_neg hlo, if_neg hhi] at h
        obtain ⟨q, hq, hn⟩ := ih h
        exact ⟨q, by simp [hq], hn⟩

end Ranges
end Text
end Risclet
