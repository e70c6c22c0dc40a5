import Mathlib.Data.List.TakeWhile
import Risclet.Proofs.Text.Numeral
import Risclet.Proofs.Text.Quoted
import Risclet.Token.Scan

/-! # The rules for pieces

What a piece is, told by its characters and by what stands behind it, without regard to how it is
found (`Cut`): a run of blanks, of digits or of the characters of a name does not go on behind the
piece, a comment goes on to the end of its line, and a slash is a symbol only if no second one
follows.

No character begins pieces of two kinds: blanks, digits, letters, the quote and the symbols are
different characters.  So a text begins with one piece at most, and `nextPiece?` finds it
(`nextPiece?_eq_some`).
-/
namespace Risclet

open Text

/-- What is left does not go on with characters of the class `p`. -/
def Ends (p : Char → Bool) (rest : List Char) : Prop :=
  ∀ c ∈ rest.head?, p c = false

/-- The piece that a text begins with, and what is left of the text behind it. -/
inductive Cut : Piece → List Char → Prop where
  | blank {text rest : List Char} :
      text ≠ [] → (∀ c ∈ text, isBlank c = true) → Ends isBlank rest → Cut (.blank text) rest
  | comment {body rest : List Char} :
      (∀ c ∈ body, c ≠ '\n') → Ends (· != '\n') rest → Cut (.comment ('/' :: '/' :: body)) rest
  | string {body rest : List Char} : Quoted.IsBody body → Cut (.string body) rest
  | number {text rest : List Char} :
      text ≠ [] → (∀ c ∈ text, isDigit c = true) → Ends isDigit rest → Cut (.number text) rest
  | name {c : Char} {text rest : List Char} :
      isNameStart c = true → (∀ d ∈ text, isWordChar d = true) → Ends isWordChar rest →
      Cut (.name (c :: text)) rest
  | symbol {kind : TokenKind} {c : Char} {rest : List Char} :
      TokenKind.ofSymbol? c = some kind → (c = '/' → rest.head? ≠ some '/') →
      Cut (.symbol kind c) rest

/-- No piece is empty. -/
theorem Cut.text_ne_nil {piece : Piece} {rest : List Char} (h : Cut piece rest) :
    piece.text ≠ [] := by
  cases h with
  | blank hne _ _ => exact hne
  | number hne _ _ => exact hne
  | _ => simp [Piece.text]

/-- **Nothing but a run of blanks goes beyond its line.** -/
theorem Cut.blank_or_ne_newline {piece : Piece} {rest : List Char} (h : Cut piece rest) :
    (∃ text, piece = .blank text) ∨ ∀ c ∈ piece.text, c ≠ '\n' := by
  cases h with
  | @blank text _ _ _ _ => exact .inl ⟨text, rfl⟩
  | comment hbody _ =>
    refine .inr (List.forall_mem_cons.mpr ⟨by decide, ?_⟩)
    exact List.forall_mem_cons.mpr ⟨by decide, hbody⟩
  | string hbody =>
    refine .inr fun c hc => ?_
    simp only [Piece.text, List.mem_cons, List.mem_append, List.not_mem_nil, or_false] at hc
    rcases hc with rfl | hc | rfl
    · decide
    · exact hbody.ne_newline c hc
    · decide
  | number _ hall _ => exact .inr fun c hc => ne_of_isDigit (hall c hc) (by decide)
  | name hfirst hall _ =>
    have hword : isWordChar '\n' = false := by decide
    have hstart : isNameStart '\n' = false := by decide
    refine .inr ?_
    rintro c hc rfl
    rcases List.mem_cons.mp hc with rfl | hc
    · rw [hstart] at hfirst
      cases hfirst
    · have := hall _ hc
      rw [hword] at this
      cases this
  | symbol hk _ =>
    refine .inr fun d hd => ?_
    obtain rfl := List.mem_singleton.mp hd
    rintro rfl
    cases hk

/-! ## Runs -/

theorem ends_dropWhile (p : Char → Bool) (cs : List Char) : Ends p (cs.dropWhile p) := by
  intro c hc
  have hnot := List.head?_dropWhile_not p cs
  rw [Option.mem_def.mp hc] at hnot
  simpa using hnot

/-- A run is taken whole, and no more than the run. -/
theorem takeWhile_run {p : Char → Bool} {run rest : List Char} (h : ∀ c ∈ run, p c = true)
    (hrest : Ends p rest) :
    (run ++ rest).takeWhile p = run ∧ (run ++ rest).dropWhile p = rest := by
  rw [List.takeWhile_append_of_pos h, List.dropWhile_append_of_pos h]
  cases rest with
  | nil => simp
  | cons c rest =>
    have hc : p c = false := hrest c rfl
    simp [hc]

/-! ## The first character -/

theorem isNameStart_apart {c : Char} (h : isNameStart c = true) :
    isBlank c = false ∧ isDigit c = false ∧ c ≠ '/' ∧ c ≠ doubleQuote := by
  have hascii : ∀ n < 128, isNameStart (Char.ofNat n) = true →
      isBlank (Char.ofNat n) = false ∧ isDigit (Char.ofNat n) = false ∧ Char.ofNat n ≠ '/' ∧
        Char.ofNat n ≠ doubleQuote := by decide
  have hlt : c.toNat < 128 := by
    simp only [isNameStart, Bool.or_eq_true, Bool.and_eq_true, decide_eq_true_eq, beq_iff_eq] at h
    rcases h with (⟨-, hz⟩ | ⟨-, hz⟩) | rfl
    · exact Nat.lt_of_le_of_lt (show c.toNat ≤ 'Z'.toNat from hz) (by decide)
    · exact Nat.lt_of_le_of_lt (show c.toNat ≤ 'z'.toNat from hz) (by decide)
    · decide
  have hc := hascii c.toNat hlt
  rw [Char.ofNat_toNat] at hc
  exact hc h

theorem ofSymbol?_apart {c : Char} {kind : TokenKind} (h : TokenKind.ofSymbol? c = some kind) :
    isBlank c = false ∧ isDigit c = false ∧ isNameStart c = false ∧ c ≠ doubleQuote := by
  unfold TokenKind.ofSymbol? at h
  split at h <;> first | decide | cases h

theorem isDigit_apart {c : Char} (h : isDigit c = true) :
    isBlank c = false ∧ c ≠ '/' ∧ c ≠ doubleQuote :=
  ⟨isBlank_of_isDigit h, ne_of_isDigit h (by decide), ne_of_isDigit h (by decide)⟩

/-! ## Strings -/

theorem stringBody?_quote (rest : List Char) :
    stringBody? (doubleQuote :: rest) = some ([], rest) := by
  simp [stringBody?, doubleQuote]

theorem stringBody?_plain {c : Char} (hq : c ≠ doubleQuote) (hb : c ≠ '\\') (hn : c ≠ '\n')
    (cs : List Char) :
    stringBody? (c :: cs) = (stringBody? cs).map (fun p => (c :: p.1, p.2)) := by
  rw [stringBody?.eq_def]
  split
  · next h => cases h
  · next h => exact absurd (List.cons.inj h).1 hb
  · next h => exact absurd (List.cons.inj h).1 hb
  · next h =>
    obtain ⟨rfl, rfl⟩ := List.cons.inj h
    rw [if_neg hq, if_neg hn]

theorem isBody_of_stringBody? {cs body rest : List Char} (h : stringBody? cs = some (body, rest)) :
    Quoted.IsBody body := by
  fun_induction stringBody? cs generalizing body with
  | case1 | case2 | case3 => cases h
  | case4 c tail hc ih =>
    obtain ⟨⟨b, r⟩, hb, hp⟩ := Option.map_eq_some_iff.mp h
    obtain ⟨rfl, rfl⟩ := Prod.mk.inj hp
    exact .pair hc (ih hb)
  | case5 tail => cases h; exact .nil
  | case6 => cases h
  | case7 c tail hlast hpair hq hn ih =>
    obtain ⟨⟨b, r⟩, hr, hp⟩ := Option.map_eq_some_iff.mp h
    obtain ⟨rfl, rfl⟩ := Prod.mk.inj hp
    have hb : c ≠ '\\' := by
      intro hc
      cases tail with
      | nil => exact hlast hc rfl
      | cons d tail => exact hpair d tail hc rfl
    exact .plain hq hb hn (ih hr)

/-- The body of a string is what stands before the first quote that belongs to no pair. -/
theorem stringBody?_eq_some {cs body rest : List Char} :
    stringBody? cs = some (body, rest) ↔
      Quoted.IsBody body ∧ body ++ doubleQuote :: rest = cs := by
  constructor
  · intro h
    exact ⟨isBody_of_stringBody? h, stringBody?_append h⟩
  · rintro ⟨hbody, rfl⟩
    induction hbody with
    | nil => exact stringBody?_quote rest
    | plain hq hb hn _ ih =>
      rw [List.cons_append, stringBody?_plain hq hb hn, ih]
      rfl
    | pair hn _ ih => simp [stringBody?, hn, ih]

/-! ## Pieces -/

theorem cut_of_nextPiece? {cs rest : List Char} {piece : Piece}
    (h : nextPiece? cs = some (piece, rest)) : Cut piece rest := by
  cases cs with
  | nil => cases h
  | cons c cs =>
    rw [nextPiece?] at h
    split at h
    · next hc =>
      cases h
      refine .blank (List.cons_ne_nil _ _) ?_ (ends_dropWhile _ _)
      exact List.forall_mem_cons.mpr ⟨hc, fun d hd => List.mem_takeWhile_imp hd⟩
    split at h
    · next hc =>
      obtain ⟨rfl, hslash⟩ := hc
      obtain ⟨tail, rfl⟩ := List.head?_eq_some_iff.mp hslash
      cases h
      have hends := ends_dropWhile (· != '\n') ('/' :: tail)
      rw [List.takeWhile_cons_of_pos (by decide)]
      exact .comment (fun d hd => by simpa using List.mem_takeWhile_imp hd) hends
    split at h
    · obtain ⟨⟨body, tail⟩, hb, hp⟩ := Option.map_eq_some_iff.mp h
      cases hp
      exact .string (isBody_of_stringBody? hb)
    split at h
    · next hc =>
      cases h
      refine .number (List.cons_ne_nil _ _) ?_ (ends_dropWhile _ _)
      exact List.forall_mem_cons.mpr ⟨hc, fun d hd => List.mem_takeWhile_imp hd⟩
    split at h
    · next hc =>
      cases h
      exact .name hc (fun d hd => List.mem_takeWhile_imp hd) (ends_dropWhile _ _)
    · next hcomment _ _ _ =>
      obtain ⟨kind, hk, hp⟩ := Option.map_eq_some_iff.mp h
      cases hp
      exact .symbol hk fun hc hs => hcomment ⟨hc, hs⟩

/-- The piece that the rules give is the piece that is found: its first character begins no piece of
another kind, and its run ends where the rules say. -/
theorem nextPiece?_of_cut {piece : Piece} {rest : List Char} (h : Cut piece rest) :
    nextPiece? (piece.text ++ rest) = some (piece, rest) := by
  cases h with
  | @blank text _ hne hall hrest =>
    obtain ⟨c, text, rfl⟩ := List.exists_cons_of_ne_nil hne
    obtain ⟨hc, hall⟩ := List.forall_mem_cons.mp hall
    obtain ⟨htake, hdrop⟩ := takeWhile_run hall hrest
    simp [Piece.text, nextPiece?, hc, htake, hdrop]
  | @comment body _ hall hrest =>
    have hslash : isBlank '/' = false := by decide
    have hbody : ∀ c ∈ '/' :: body, (c != '\n') = true := by simpa using hall
    obtain ⟨htake, hdrop⟩ := takeWhile_run hbody hrest
    rw [List.cons_append] at htake hdrop
    simp [Piece.text, nextPiece?, hslash, htake, hdrop]
  | @string body _ hbody =>
    have hquote : isBlank doubleQuote = false := by decide
    have hslash : doubleQuote ≠ '/' := by decide
    have hfound : stringBody? (body ++ doubleQuote :: rest) = some (body, rest) :=
      stringBody?_eq_some.mpr ⟨hbody, rfl⟩
    simp [Piece.text, nextPiece?, hquote, hslash, hfound]
  | @number text _ hne hall hrest =>
    obtain ⟨c, text, rfl⟩ := List.exists_cons_of_ne_nil hne
    obtain ⟨hc, hall⟩ := List.forall_mem_cons.mp hall
    obtain ⟨hblank, hslash, hquote⟩ := isDigit_apart hc
    obtain ⟨htake, hdrop⟩ := takeWhile_run hall hrest
    simp [Piece.text, nextPiece?, hc, hblank, hslash, hquote, htake, hdrop]
  | @name c text _ hc hall hrest =>
    obtain ⟨hblank, hdigit, hslash, hquote⟩ := isNameStart_apart hc
    obtain ⟨htake, hdrop⟩ := takeWhile_run hall hrest
    simp [Piece.text, nextPiece?, hc, hblank, hdigit, hslash, hquote, htake, hdrop]
  | @symbol kind c _ hk hslash =>
    obtain ⟨hblank, hdigit, hname, hquote⟩ := ofSymbol?_apart hk
    have hcomment : ¬ (c = '/' ∧ rest.head? = some '/') := by
      rintro ⟨hc, hs⟩
      exact hslash hc hs
    simp [Piece.text, nextPiece?, hblank, hdigit, hname, hquote, hcomment, hk]

/-- **A text begins with one piece at most, and it is found.** -/
theorem nextPiece?_eq_some {cs rest : List Char} {piece : Piece} :
    nextPiece? cs = some (piece, rest) ↔ Cut piece rest ∧ piece.text ++ rest = cs := by
  constructor
  · intro h
    exact ⟨cut_of_nextPiece? h, nextPiece?_append h⟩
  · rintro ⟨h, rfl⟩
    exact nextPiece?_of_cut h

end Risclet
