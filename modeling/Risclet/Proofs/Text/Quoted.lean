import Risclet.Proofs.Outcome
import Risclet.Text.Quoted

/-! # What stands between quotes

A string literal has a *body*: characters that stand for themselves, and pairs of a backslash and
another character (`IsBody`).  Neither a quote nor a line feed stands in it by itself, and no
backslash is left over at its end.  Four of the pairs are escapes, and a body without any other
pair stands for a text (`Decodes`).

Main statement: `decodeFrom` reads a body as the text that it stands for, or finds the first pair
that is no escape and gives the place of its backslash (`IsBody.decodeFrom_cases`).
-/
namespace Risclet
namespace Text
namespace Quoted

/-- The escapes: the character behind the backslash, and what the two stand for. -/
def escapes : List (Char × Char) :=
  [(doubleQuote, doubleQuote), ('\\', '\\'), ('n', '\n'), ('t', '\t')]

/-- The texts that can stand between the quotes of a string. -/
inductive IsBody : List Char → Prop where
  | nil : IsBody []
  | plain {c : Char} {rest : List Char} :
      c ≠ doubleQuote → c ≠ '\\' → c ≠ '\n' → IsBody rest → IsBody (c :: rest)
  | pair {c : Char} {rest : List Char} : c ≠ '\n' → IsBody rest → IsBody ('\\' :: c :: rest)

/-- The text that characters between quotes stand for. -/
inductive Decodes : List Char → List Char → Prop where
  | nil : Decodes [] []
  | plain {c : Char} {rest value : List Char} :
      c ≠ '\\' → Decodes rest value → Decodes (c :: rest) (c :: value)
  | escape {c d : Char} {rest value : List Char} :
      (c, d) ∈ escapes → Decodes rest value → Decodes ('\\' :: c :: rest) (d :: value)

theorem escape?_eq_some {c d : Char} : escape? c = some d ↔ (c, d) ∈ escapes := by
  unfold escape?
  split
  · next h => subst h; simp [escapes, doubleQuote, eq_comm]
  split
  · next h => subst h; simp [escapes, doubleQuote, eq_comm]
  split
  · next h => subst h; simp [escapes, doubleQuote, eq_comm]
  split
  · next h => subst h; simp [escapes, doubleQuote, eq_comm]
  · next hq hb hn ht => simp [escapes, hq, hb, hn, ht]

theorem escape?_eq_none {c : Char} : escape? c = none ↔ ∀ d, (c, d) ∉ escapes := by
  simp only [Option.eq_none_iff_forall_not_mem, Option.mem_def, escape?_eq_some]

/-- A body holds no line feed, neither alone nor behind a backslash. -/
theorem IsBody.ne_newline {body : List Char} (h : IsBody body) : ∀ c ∈ body, c ≠ '\n' := by
  induction h with
  | nil => simp
  | plain _ _ hn _ ih => exact List.forall_mem_cons.mpr ⟨hn, ih⟩
  | pair hn _ ih =>
    refine List.forall_mem_cons.mpr ⟨by decide, List.forall_mem_cons.mpr ⟨hn, ih⟩⟩

/-! ## Writing a text -/

/-- A character is written as itself, or as the escape that stands for it. -/
theorem encodeChar_cases (c : Char) :
    (c ≠ doubleQuote ∧ c ≠ '\\' ∧ c ≠ '\n' ∧ c ≠ '\t' ∧ encodeChar c = [c]) ∨
      ∃ d, (d, c) ∈ escapes ∧ encodeChar c = ['\\', d] := by
  unfold encodeChar
  split
  · next h => subst h; exact .inr ⟨_, by decide, rfl⟩
  split
  · next h => subst h; exact .inr ⟨_, by decide, rfl⟩
  split
  · next h => subst h; exact .inr ⟨_, by decide, rfl⟩
  split
  · next h => subst h; exact .inr ⟨_, by decide, rfl⟩
  · next hb hq hn ht => exact .inl ⟨hq, hb, hn, ht, rfl⟩

theorem drop_dropLast_quote (s : String) :
    ((quote s).toList.drop 1).dropLast = encode s.toList := by
  simp [quote]

/-! ## Reading a body -/

theorem decodeFrom_plain {c : Char} (hc : c ≠ '\\') (offset : Nat) (rest : List Char) :
    decodeFrom offset (c :: rest) = (decodeFrom (offset + 1) rest).map (c :: ·) := by
  rw [decodeFrom.eq_def]
  split
  · next h => cases h
  · next h => exact absurd (List.cons.inj h).1 hc
  · next h => exact absurd (List.cons.inj h).1 hc
  · next h => obtain ⟨rfl, rfl⟩ := List.cons.inj h; rfl

/-- **A body is read, or its first unknown pair is found.**  What stands before that pair is read
without fault, so that its backslash is no second half of an earlier pair. -/
theorem IsBody.decodeFrom_cases {body : List Char} (h : IsBody body) (offset : Nat) :
    (∃ value, decodeFrom offset body = .ok value ∧ Decodes body value) ∨
      ∃ good c bad value, body = good ++ '\\' :: c :: bad ∧ Decodes good value ∧
        (∀ d, (c, d) ∉ escapes) ∧
        decodeFrom offset body = .error (.unknownEscape (offset + good.length) c) := by
  induction h generalizing offset with
  | nil => exact .inl ⟨[], rfl, .nil⟩
  | @plain c rest _ hb _ _ ih =>
    rw [decodeFrom_plain hb]
    rcases ih (offset + 1) with ⟨value, hv, hd⟩ | ⟨good, x, bad, value, rfl, hd, hx, he⟩
    · exact .inl ⟨c :: value, by simp [hv], .plain hb hd⟩
    · refine .inr ⟨c :: good, x, bad, c :: value, rfl, .plain hb hd, hx, ?_⟩
      rw [he, Outcome.map_error, List.length_cons, Nat.add_right_comm, Nat.add_assoc]
  | @pair c rest _ _ ih =>
    rw [decodeFrom]
    cases hc : escape? c with
    | none =>
      exact .inr ⟨[], c, rest, [], rfl, .nil, escape?_eq_none.mp hc, rfl⟩
    | some d =>
      have hcd : (c, d) ∈ escapes := escape?_eq_some.mp hc
      rcases ih (offset + 2) with ⟨value, hv, hd⟩ | ⟨good, x, bad, value, rfl, hd, hx, he⟩
      · exact .inl ⟨d :: value, by simp [hv], .escape hcd hd⟩
      · refine .inr ⟨'\\' :: c :: good, x, bad, d :: value, rfl, .escape hcd hd, hx, ?_⟩
        have hlen : offset + 2 + good.length = offset + ('\\' :: c :: good).length := by
          simp only [List.length_cons]
          omega
        simp only [he, Outcome.map_error, hlen]

end Quoted
end Text
end Risclet
