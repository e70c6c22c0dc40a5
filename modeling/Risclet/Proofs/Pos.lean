import Mathlib.Data.List.DropRight
import Risclet.Pos

/-! # Positions behind a text

Characters move a position one by one: a line feed goes to the first column of the next line, any
other character to the next column (`Pos.advance`).  Where a text is passed over at once, its line
feeds are counted and the column is counted from the last of them; that comes to the same
(`Pos.skip_eq_advance`), and on one line so does the length of the text (`Pos.advance_eq_right`).

From the beginning of a source the position behind a text has a form that does not mention steps:
the line is one more than the line feeds in the text, and the column one more than the characters
since the last of them (`Pos.behind`, `Pos.advance_behind`).
-/
namespace Risclet
namespace Pos

/-- The position after the character `c`: only a line feed ends a line. -/
def next (p : Pos) (c : Char) : Pos :=
  if c = '\n' then ⟨p.line + 1, 1⟩ else ⟨p.line, p.column + 1⟩

/-- The position after the characters `cs`. -/
def advance (p : Pos) (cs : List Char) : Pos :=
  cs.foldl next p

@[simp] theorem advance_nil (p : Pos) : p.advance [] = p := rfl

@[simp] theorem advance_cons (p : Pos) (c : Char) (cs : List Char) :
    p.advance (c :: cs) = (p.next c).advance cs := rfl

theorem advance_append (p : Pos) (cs ds : List Char) :
    p.advance (cs ++ ds) = (p.advance cs).advance ds :=
  List.foldl_append

/-- On one line the column grows by the number of characters. -/
theorem advance_eq_right (p : Pos) {cs : List Char} (h : ∀ c ∈ cs, c ≠ '\n') :
    p.advance cs = p.right cs.length := by
  induction cs generalizing p with
  | nil => simp [right]
  | cons c cs ih =>
    obtain ⟨hc, hcs⟩ := List.forall_mem_cons.mp h
    rw [advance_cons, ih _ hcs]
    simp only [next, hc, right, if_false, List.length_cons, Pos.mk.injEq, true_and]
    omega

/-! ## Texts that are passed over -/

theorem lastLineFeed_concat (cs : List Char) (c : Char) :
    lastLineFeed (cs ++ [c]) = if c = '\n' then (cs.length : Int) else lastLineFeed cs := by
  unfold lastLineFeed
  rw [List.reverse_concat, List.idxOf_cons, List.length_append, List.length_singleton]
  by_cases hc : c = '\n'
  · simp [hc]
  · have hbeq : (c == '\n') = false := by simpa using hc
    simp only [hbeq, hc, cond_false, if_false]
    omega

/-- One character more: a line feed begins a line, any other one makes the column grow. -/
theorem skip_concat (p : Pos) (cs : List Char) (c : Char) :
    p.skip (cs ++ [c]) = (p.skip cs).next c := by
  simp only [skip, next, lastLineFeed_concat, List.count_append, List.length_append,
    List.length_singleton]
  by_cases hc : c = '\n'
  · subst hc
    simp only [List.count_singleton_self, Nat.add_eq_zero_iff, Nat.one_ne_zero, and_false, if_false,
      if_true]
    split
    · simp only [right, Pos.mk.injEq]
      omega
    · simp only [Pos.mk.injEq]
      omega
  · have hcount : [c].count '\n' = 0 := List.count_eq_zero.mpr (by simpa [eq_comm] using hc)
    simp only [hcount, hc, Nat.add_zero, if_false]
    split
    · simp only [right, Pos.mk.injEq, true_and]
      omega
    · simp only [Pos.mk.injEq, true_and]
      omega

/-- **Passing over a text at once comes to the same as going through it.** -/
theorem skip_eq_advance (p : Pos) (cs : List Char) : p.skip cs = p.advance cs := by
  induction cs using List.reverseRecOn with
  | nil => simp [skip, right]
  | append_singleton cs c ih => rw [skip_concat, ih, advance_append, advance_cons, advance_nil]

/-! ## Positions in a source -/

/-- The position behind a text: the line is one more than the line feeds in it, the column one more
than the characters since the last of them. -/
def behind (before : List Char) : Pos :=
  ⟨1 + before.count '\n', 1 + (before.rtakeWhile (· != '\n')).length⟩

@[simp] theorem behind_nil : behind [] = start := rfl

theorem behind_concat (before : List Char) (c : Char) :
    behind (before ++ [c]) = (behind before).next c := by
  by_cases hc : c = '\n'
  · subst hc
    rw [behind, List.rtakeWhile_concat_neg _ _ _ (by decide)]
    simp [behind, next, Int.add_assoc]
  · rw [behind, List.rtakeWhile_concat_pos _ _ _ (by simpa using hc)]
    simp [behind, next, hc, Int.add_assoc]

/-- **Positions kept step by step are exact.** -/
theorem advance_behind (before cs : List Char) :
    (behind before).advance cs = behind (before ++ cs) := by
  induction cs generalizing before with
  | nil => simp
  | cons c cs ih => rw [advance_cons, ← behind_concat, ih, List.append_assoc, List.singleton_append]

end Pos
end Risclet
