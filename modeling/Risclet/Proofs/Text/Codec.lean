import Risclet.Proofs.Text.Quoted

/-! # Escapes as a code

Writing a text between quotes and reading what stands there are inverse to each other.  Writing can
be thought of as four passes over the text, each of which replaces one character everywhere; it is
essential that the backslash comes first, so that no pass touches a backslash that an earlier one
has put in (`encode_eq_passes`).  Reading is one pass from left to right in steps of one or two
characters.

What is written is a body, and it is read as the text that was written (`isBody_encode`,
`decodes_encode`).  In the other direction a body is read unless it holds a pair that is no escape
(`IsBody.decode_cases`), and what is read is written as that body again, but for tabs: a body
may hold tabs as they are, while a text is written with an escape in the place of each
(`IsBody.encode_eq`).
-/
namespace Risclet
namespace Text
namespace Quoted

/-! ## Writing in four passes -/

/-- A text with every occurrence of one character replaced. -/
def replaceChar (old : Char) (new : List Char) (cs : List Char) : List Char :=
  cs.flatMap (fun c => if c = old then new else [c])

@[simp] theorem replaceChar_nil (old : Char) (new : List Char) : replaceChar old new [] = [] := rfl

theorem replaceChar_append (old : Char) (new cs ds : List Char) :
    replaceChar old new (cs ++ ds) = replaceChar old new cs ++ replaceChar old new ds :=
  List.flatMap_append

@[simp] theorem replaceChar_cons (old : Char) (new : List Char) (c : Char) (cs : List Char) :
    replaceChar old new (c :: cs) = (if c = old then new else [c]) ++ replaceChar old new cs :=
  List.flatMap_cons

/-- A text with an escape in the place of every backslash, then of every quote, line feed and
tab. -/
def passes (cs : List Char) : List Char :=
  replaceChar '\t' ['\\', 't'] (replaceChar '\n' ['\\', 'n']
    (replaceChar doubleQuote ['\\', doubleQuote] (replaceChar '\\' ['\\', '\\'] cs)))

theorem passes_append (cs ds : List Char) : passes (cs ++ ds) = passes cs ++ passes ds := by
  simp only [passes, replaceChar_append]

/-- No pass touches what another has written for a character. -/
theorem passes_singleton (c : Char) : passes [c] = encodeChar c := by
  unfold encodeChar
  split
  · next h => subst h; decide
  split
  · next h => subst h; decide
  split
  · next h => subst h; decide
  split
  · next h => subst h; decide
  · next hb hq hn ht => simp [passes, hb, hq, hn, ht]

/-- **Writing is four passes over the text.** -/
theorem encode_eq_passes (cs : List Char) : encode cs = passes cs := by
  induction cs with
  | nil => rfl
  | cons c cs ih =>
    rw [encode_cons, ih, ← passes_singleton, ← passes_append, List.singleton_append]

/-! ## Reading what is written -/

/-- No escape has a line feed or a tab behind its backslash. -/
theorem ne_of_mem_escapes {c d : Char} (h : (c, d) ∈ escapes) : c ≠ '\n' ∧ c ≠ '\t' := by
  have hall : ∀ p ∈ escapes, p.1 ≠ '\n' ∧ p.1 ≠ '\t' := by decide
  exact hall (c, d) h

/-- What is written for a text can stand between quotes. -/
theorem isBody_encode (cs : List Char) : IsBody (encode cs) := by
  induction cs with
  | nil => exact .nil
  | cons c cs ih =>
    rw [encode_cons]
    rcases encodeChar_cases c with ⟨hq, hb, hn, -, he⟩ | ⟨d, hmem, he⟩
    · rw [he]
      exact .plain hq hb hn ih
    · rw [he]
      exact .pair (ne_of_mem_escapes hmem).1 ih

/-- **What is written for a text stands for that text.** -/
theorem decodes_encode (cs : List Char) : Decodes (encode cs) cs := by
  induction cs with
  | nil => exact .nil
  | cons c cs ih =>
    rw [encode_cons]
    rcases encodeChar_cases c with ⟨-, hb, -, -, he⟩ | ⟨d, hmem, he⟩
    · rw [he]
      exact .plain hb ih
    · rw [he]
      exact .escape hmem ih

theorem decodeFrom_of_decodes {body value : List Char} (h : Decodes body value) (offset : Nat) :
    decodeFrom offset body = .ok value := by
  induction h generalizing offset with
  | nil => rfl
  | plain hc _ ih => rw [decodeFrom_plain hc, ih, Outcome.map_ok]
  | escape hmem _ ih => simp only [decodeFrom, escape?_eq_some.mpr hmem, ih, Outcome.map_ok]

/-! ## Writing what is read -/

/-- The pair that stands for a character is what is written for it. -/
theorem encodeChar_of_mem {c d : Char} (h : (c, d) ∈ escapes) : encodeChar d = ['\\', c] := by
  have hall : ∀ p ∈ escapes, encodeChar p.2 = ['\\', p.1] := by decide
  exact hall (c, d) h

/-- A body that begins with another character than a backslash. -/
theorem IsBody.of_cons {c : Char} {rest : List Char} (h : IsBody (c :: rest)) (hc : c ≠ '\\') :
    c ≠ doubleQuote ∧ c ≠ '\n' ∧ IsBody rest := by
  cases h with
  | plain hq _ hn hrest => exact ⟨hq, hn, hrest⟩
  | pair => exact absurd rfl hc

/-- A body that begins with a pair. -/
theorem IsBody.of_pair {c : Char} {rest : List Char} (h : IsBody ('\\' :: c :: rest)) :
    c ≠ '\n' ∧ IsBody rest := by
  cases h with
  | plain _ hb _ _ => exact absurd rfl hb
  | pair hn hrest => exact ⟨hn, hrest⟩

/-- **What a body stands for is written as that body**, with an escape for every tab. -/
theorem IsBody.encode_eq {body value : List Char} (hbody : IsBody body) (h : Decodes body value) :
    encode value = replaceChar '\t' ['\\', 't'] body := by
  induction h with
  | nil => rfl
  | plain hc _ ih =>
    obtain ⟨hq, hn, hrest⟩ := hbody.of_cons hc
    rw [encode_cons, replaceChar_cons, ih hrest, encodeChar, if_neg hc, if_neg hq, if_neg hn]
  | escape hmem _ ih =>
    rw [encode_cons, encodeChar_of_mem hmem, ih hbody.of_pair.2]
    simp [(ne_of_mem_escapes hmem).2]

/-! ## Pairs that are no escapes -/

/-- A body with a pair that is no escape.  What stands before the pair is a body itself, so that its
backslash is not the second half of another pair. -/
def HasUnknownPair (body : List Char) : Prop :=
  ∃ good c bad, body = good ++ '\\' :: c :: bad ∧ IsBody good ∧ ∀ d, (c, d) ∉ escapes

/-- The beginning of a body that stands for something is a body. -/
theorem IsBody.of_append {good value rest : List Char} (h : Decodes good value)
    (hbody : IsBody (good ++ rest)) : IsBody good := by
  induction h with
  | nil => exact .nil
  | plain hc _ ih =>
    obtain ⟨hq, hn, hrest⟩ := hbody.of_cons hc
    exact .plain hq hc hn (ih hrest)
  | escape _ _ ih =>
    obtain ⟨hn, hrest⟩ := hbody.of_pair
    exact .pair hn (ih hrest)

theorem Decodes.of_cons {c : Char} {rest value : List Char} (h : Decodes (c :: rest) value)
    (hc : c ≠ '\\') : ∃ tail, Decodes rest tail := by
  cases h with
  | plain _ hrest => exact ⟨_, hrest⟩
  | escape _ _ => exact absurd rfl hc

theorem Decodes.of_pair {c : Char} {rest value : List Char}
    (h : Decodes ('\\' :: c :: rest) value) :
    (∃ d, (c, d) ∈ escapes) ∧ ∃ tail, Decodes rest tail := by
  cases h with
  | plain hb _ => exact absurd rfl hb
  | escape hmem hrest => exact ⟨⟨_, hmem⟩, _, hrest⟩

/-- What stands for something holds escapes only. -/
theorem Decodes.not_hasUnknownPair {body value : List Char} (h : Decodes body value) :
    ¬ HasUnknownPair body := by
  rintro ⟨good, c, bad, rfl, hgood, hc⟩
  induction hgood generalizing value with
  | nil =>
    obtain ⟨⟨d, hmem⟩, -⟩ := h.of_pair
    exact hc d hmem
  | plain _ hb _ _ ih =>
    obtain ⟨tail, hrest⟩ := h.of_cons hb
    exact ih hrest
  | pair _ _ ih =>
    obtain ⟨-, tail, hrest⟩ := h.of_pair
    exact ih hrest

/-- **A body is read, or it holds a pair that is no escape.**  If so, the first such pair is
found. -/
theorem IsBody.decode_cases {body : List Char} (h : IsBody body) :
    (∃ value, decode body = .ok value ∧ Decodes body value ∧ ¬ HasUnknownPair body) ∨
      ∃ offset c, decode body = .error (.unknownEscape offset c) ∧ HasUnknownPair body := by
  rcases h.decodeFrom_cases 0 with ⟨value, hv, hd⟩ | ⟨good, c, bad, value, rfl, hd, hc, he⟩
  · exact .inl ⟨value, hv, hd, hd.not_hasUnknownPair⟩
  · exact .inr ⟨_, c, he, good, c, bad, rfl, h.of_append hd, hc⟩

end Quoted
end Text
end Risclet
