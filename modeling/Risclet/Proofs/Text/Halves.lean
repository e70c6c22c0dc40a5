import Risclet.Proofs.Text.Quoted
import Risclet.Text.Halves

/-! # Encoding texts with halves

A text is encoded unless some character stands for a half; the report names the first of them
(`fault?_eq_none`, `fault?_eq_some`).

The size of a literal is counted by putting a mark for every escape and encoding the rest.  That is
what `byteCount` counts in one go (`measure_eq`).  Marks and escapes are characters of ASCII, so the
first half in what was quoted is the first half in the text itself (`measure_quote`).
-/
namespace Risclet
namespace Text

namespace Quoted

theorem collapse_plain {c : Char} (hc : c ≠ '\\') (rest : List Char) :
    collapse (c :: rest) = c :: collapse rest := by
  rw [collapse.eq_def]
  split
  · next h => cases h
  · next h => exact absurd (List.cons.inj h).1 hc
  · next h => exact absurd (List.cons.inj h).1 hc
  · next h => obtain ⟨rfl, rfl⟩ := List.cons.inj h; rfl

/-- **Counting in one go is encoding with a mark for every escape.** -/
theorem length_flatMap_collapse (cs : List Char) :
    ((collapse cs).flatMap String.utf8EncodeChar).length = bodyByteCount cs := by
  fun_induction bodyByteCount cs with
  | case1 => rfl
  | case2 => rfl
  | case3 rest ih =>
    rw [collapse, if_pos rfl, List.flatMap_cons, List.flatMap_cons, List.length_append,
      List.length_append, ih, String.length_utf8EncodeChar, String.length_utf8EncodeChar,
      ← Nat.add_assoc]
    rfl
  | case4 c rest hc ih =>
    rw [collapse, if_neg hc, List.flatMap_cons, List.length_append, ih,
      String.length_utf8EncodeChar]
    rfl
  | case5 c rest hlone hpair ih =>
    have hplain : collapse (c :: rest) = c :: collapse rest := by
      refine collapse_plain ?_ rest
      rintro rfl
      cases rest with
      | nil => exact hlone rfl rfl
      | cons d rest => exact hpair d rest rfl rfl
    rw [hplain, List.flatMap_cons, List.length_append, ih, String.length_utf8EncodeChar]

/-- The mark for a character that is written as an escape, and any other character itself. -/
def mark (c : Char) : Char :=
  if encodeChar c = [c] then c else '_'

/-- **What was quoted is collapsed to the text with marks.** -/
theorem collapse_encode (cs : List Char) : collapse (encode cs) = cs.map mark := by
  induction cs with
  | nil => rfl
  | cons c cs ih =>
    rw [encode_cons, List.map_cons, mark]
    rcases encodeChar_cases c with ⟨-, hc, -, -, he⟩ | ⟨d, hmem, he⟩
    · rw [he, if_pos rfl, List.singleton_append, collapse_plain hc, ih]
    · have hd : d ≠ '\n' := by
        rintro rfl
        simp [escapes, doubleQuote] at hmem
      have hlong : ['\\', d] ≠ [c] := by simp
      rw [he, if_neg hlong, List.cons_append, List.singleton_append, collapse, if_neg hd, ih]

end Quoted

namespace Halves
variable (h : Halves)

/-- No character of ASCII stands for a half. -/
theorem half?_of_ascii {c : Char} (hc : c.toNat < 0x80) : h.half? c = Option.none := by
  cases hn : h.half? c with
  | none => rfl
  | some n =>
    have hinert := h.inert c n hn
    simp only [isInert, Bool.and_eq_true, decide_eq_true_eq] at hinert
    omega

/-! ## The report -/

theorem faultFrom_eq_none {offset : Nat} {cs : List Char} :
    h.faultFrom offset cs = Option.none ↔ ∀ c ∈ cs, h.half? c = Option.none := by
  induction cs generalizing offset with
  | nil => simp [faultFrom]
  | cons c cs ih =>
    rw [faultFrom, List.forall_mem_cons]
    cases h.half? c with
    | none => simp [ih]
    | some n => simp

/-- **A text without halves is encoded.** -/
theorem fault?_eq_none {cs : List Char} :
    h.fault? cs = Option.none ↔ ∀ c ∈ cs, h.half? c = Option.none :=
  h.faultFrom_eq_none

theorem faultFrom_eq_some {offset : Nat} {cs : List Char} {f : EncodeFault}
    (hf : h.faultFrom offset cs = some f) :
    ∃ front c rest, cs = front ++ c :: rest ∧ (∀ d ∈ front, h.half? d = Option.none) ∧
      h.half? c = some f.half ∧ f.start = offset + front.length ∧
      f.stop = f.start + 1 + (rest.takeWhile (fun d => (h.half? d).isSome)).length := by
  induction cs generalizing offset with
  | nil => cases hf
  | cons c cs ih =>
    rw [faultFrom] at hf
    split at hf
    · next hc =>
      obtain ⟨front, d, rest, rfl, hfront, hd, hstart, hstop⟩ := ih hf
      refine ⟨c :: front, d, rest, rfl, List.forall_mem_cons.mpr ⟨hc, hfront⟩, hd, ?_, hstop⟩
      rw [hstart, List.length_cons]
      omega
    · next n hc =>
      cases hf
      exact ⟨[], c, cs, rfl, by simp, hc, rfl, rfl⟩

/-- **The report names the first half**, its place, and how many stand there. -/
theorem fault?_eq_some {cs : List Char} {f : EncodeFault} (hf : h.fault? cs = some f) :
    ∃ front c rest, cs = front ++ c :: rest ∧ (∀ d ∈ front, h.half? d = Option.none) ∧
      h.half? c = some f.half ∧ f.start = front.length ∧
      f.stop = f.start + 1 + (rest.takeWhile (fun d => (h.half? d).isSome)).length := by
  simpa using h.faultFrom_eq_some hf

theorem faultFrom_map {g : Char → Char} (hg : ∀ c, h.half? (g c) = h.half? c) (offset : Nat)
    (cs : List Char) : h.faultFrom offset (cs.map g) = h.faultFrom offset cs := by
  induction cs generalizing offset with
  | nil => rfl
  | cons c cs ih =>
    have hwhile : ((cs.map g).takeWhile (fun d => (h.half? d).isSome)).length =
        (cs.takeWhile (fun d => (h.half? d).isSome)).length := by
      rw [List.takeWhile_map, List.length_map]
      simp only [Function.comp_def, hg]
    rw [List.map_cons, faultFrom, faultFrom, hg, ih, hwhile]

/-! ## Sizes of literals -/

/-- **A literal has the size that is counted in one go**, unless a half is left in it. -/
theorem measure_eq (literal : String) :
    h.measure literal =
      match h.fault? (Quoted.collapse (literal.toList.drop 1).dropLast) with
      | some f => .error f
      | Option.none => .ok (Quoted.byteCount literal) := by
  rw [measure, encode]
  cases h.fault? (Quoted.collapse (literal.toList.drop 1).dropLast) with
  | some f => rfl
  | none => rw [Outcome.map_ok, Quoted.length_flatMap_collapse, Quoted.byteCount]

theorem half?_mark (c : Char) : h.half? (Quoted.mark c) = h.half? c := by
  unfold Quoted.mark
  split
  · rfl
  · next hne =>
    rcases Quoted.encodeChar_cases c with ⟨-, -, -, -, he⟩ | ⟨d, hmem, -⟩
    · exact absurd he hne
    · have hascii : ∀ p ∈ Quoted.escapes, p.2.toNat < 0x80 := by decide
      rw [h.half?_of_ascii (hascii _ hmem), h.half?_of_ascii (by decide)]

/-- **A quoted text is measured unless it holds a half**, and then the first is reported at its own
place in the text. -/
theorem measure_quote (s : String) :
    h.measure (Quoted.quote s) =
      match h.fault? s.toList with
      | some f => .error f
      | Option.none => .ok (Quoted.byteCount (Quoted.quote s)) := by
  rw [measure_eq, Quoted.drop_dropLast_quote, Quoted.collapse_encode, fault?, fault?,
    h.faultFrom_map h.half?_mark]

/-- A character of private use stands for the first of all halves. -/
def firstOfAll : Halves where
  half? c := if c = '\uE000' then some 0xD800 else Option.none
  inert := by
    intro c n hc
    split at hc
    · next he =>
      subst he
      decide +kernel
    · cases hc
  isHalf := by
    intro c n hc
    split at hc
    · cases hc
      decide
    · cases hc

example : firstOfAll.fault? ['a', '\uE000', '\uE000'] = some ⟨1, 3, 0xD800⟩ := by decide

end Halves
end Text
end Risclet
