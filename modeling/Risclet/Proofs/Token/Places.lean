import Risclet.Proofs.Token.Partition

/-! # Places in the source

A place in a text is told by what stands before it.  Its position lies in the text: the line is one
of the text's lines, and the column is at most one behind the end of that line
(`Pos.Reached.inText`).

Every token that scanning gives begins at a place of the source.  So does the text behind it, if it
is measured by the lexeme: no token goes beyond its line, and no lexeme is longer than what is
written, though that of a string may be shorter (`tokenize_sited`).  Where scanning fails, it is at
a place of the source too (`tokenize_rejected`).
-/
namespace Risclet

open Text

namespace Pos

/-- A position of the text: in one of its lines, or right behind the end of one. -/
structure InText (p : Pos) (cs : List Char) : Prop where
  line_pos : 1 ≤ p.line
  line_le : p.line ≤ 1 + cs.count '\n'
  column_pos : 1 ≤ p.column
  column_le : ∃ line, (cs.splitOn '\n')[p.line.toNat - 1]? = some line ∧
    p.column ≤ line.length + 1

/-- The position of a place in the text. -/
def Reached (cs : List Char) (p : Pos) : Prop :=
  ∃ before, before <+: cs ∧ p = behind before

/-- The lines of a text: those that end in its first part, the one in which its second part begins,
and those behind. -/
theorem splitOn_append (before : List Char) {after line : List Char} {lines : List (List Char)}
    (h : after.splitOn '\n' = line :: lines) :
    ∃ front, front.length = before.count '\n' ∧ (before ++ after).splitOn '\n' =
      front ++ (before.rtakeWhile (· != '\n') ++ line) :: lines := by
  induction before using List.reverseRecOn generalizing after line lines with
  | nil => exact ⟨[], rfl, h⟩
  | append_singleton before c ih =>
    rw [List.append_assoc, List.singleton_append]
    have hcons := List.splitOn_cons_eq_if_modifyHead (a := '\n') c after
    by_cases hc : c = '\n'
    · subst hc
      rw [h] at hcons
      obtain ⟨front, hlen, hfront⟩ := ih hcons
      refine ⟨front ++ [before.rtakeWhile (· != '\n')], by simp [hlen], ?_⟩
      rw [hfront, List.rtakeWhile_concat_neg _ _ _ (by decide)]
      simp
    · rw [h] at hcons
      simp only [beq_iff_eq, hc, if_false, List.modifyHead_cons] at hcons
      obtain ⟨front, hlen, hfront⟩ := ih hcons
      refine ⟨front, by simp [hlen, hc], ?_⟩
      rw [hfront, List.rtakeWhile_concat_pos _ _ _ (by simpa using hc)]
      simp

/-- **The position of a place lies in the text.** -/
theorem Reached.inText {cs : List Char} {p : Pos} (h : Reached cs p) : p.InText cs := by
  obtain ⟨before, ⟨after, rfl⟩, rfl⟩ := h
  obtain ⟨line, lines, hafter⟩ := List.exists_cons_of_ne_nil (List.splitOn_ne_nil '\n' after)
  obtain ⟨front, hlen, hlines⟩ := splitOn_append before hafter
  refine ⟨?_, ?_, ?_, before.rtakeWhile (· != '\n') ++ line, ?_, ?_⟩
  · simp only [behind]
    omega
  · simp only [behind, List.count_append]
    omega
  · simp only [behind]
    omega
  · have hindex : (behind before).line.toNat - 1 = front.length := by
      simp only [behind, hlen]
      omega
    rw [hlines, hindex]
    simp
  · simp only [behind, List.length_append]
    omega

end Pos

/-! ## Tokens -/

/-- A token at positions with the property `P`, where it begins and where its lexeme would end; if
it is a numeral, it is a run of digits. -/
structure Token.Sited (P : Pos → Prop) (t : Token) : Prop where
  start : P t.pos
  stop : P (t.pos.right t.lexeme.length)
  digits : t.kind = .intLiteral →
    t.lexeme.toList ≠ [] ∧ ∀ c ∈ t.lexeme.toList, isDigit c = true

/-- What an escaped text stands for is not longer. -/
theorem Text.Quoted.Decodes.length_le {body value : List Char} (h : Quoted.Decodes body value) :
    value.length ≤ body.length := by
  induction h with
  | nil => exact Nat.le_refl 0
  | plain _ _ ih =>
    simp only [List.length_cons]
    omega
  | escape _ _ ih =>
    simp only [List.length_cons]
    omega

section Pieces
variable {piece : Piece} {rest before source : List Char} {kind : TokenKind} {lexeme : String}

/-- A token is on one line. -/
theorem Cut.ne_newline (h : Cut piece rest) (hd : piece.Denotes kind lexeme) :
    ∀ c ∈ piece.text, c ≠ '\n' := by
  rcases h.blank_or_ne_newline with ⟨text, rfl⟩ | hline
  · cases hd
  · exact hline

/-- The lexeme of a token is not longer than what is written. -/
theorem Piece.Denotes.length_le (hd : piece.Denotes kind lexeme) :
    lexeme.length ≤ piece.text.length := by
  cases hd with
  | string hdec =>
    have := hdec.length_le
    simp only [Piece.text, String.length_ofList, List.length_cons, List.length_append,
      List.length_nil]
    omega
  | number => simp [Piece.text]
  | name => simp [Piece.text]
  | symbol => simp [Piece.text]

theorem Cut.digits (h : Cut piece rest) (hd : piece.Denotes .intLiteral lexeme) :
    lexeme.toList ≠ [] ∧ ∀ c ∈ lexeme.toList, isDigit c = true := by
  cases hd with
  | number text =>
    cases h with
    | number hne hall _ => simpa using ⟨hne, hall⟩
  | symbol kind c =>
    cases h with
    | symbol hk _ =>
      unfold TokenKind.ofSymbol? at hk
      split at hk <;> cases hk

/-- **A piece is a token at a place of the source.** -/
theorem Cut.sited (h : Cut piece rest) (hd : piece.Denotes kind lexeme)
    (hsource : before ++ piece.text <+: source) :
    Token.Sited (Pos.Reached source) ⟨kind, lexeme, .behind before⟩ := by
  refine ⟨⟨before, (List.prefix_append _ _).trans hsource, rfl⟩, ?_, ?_⟩
  · -- The lexeme is measured along the line on which the token stands.
    have hline : ∀ c ∈ piece.text.take lexeme.length, c ≠ '\n' :=
      fun c hc => h.ne_newline hd c (List.mem_of_mem_take hc)
    have hpos := Pos.advance_eq_right (.behind before) hline
    rw [Pos.advance_behind, List.length_take, Nat.min_eq_left hd.length_le] at hpos
    refine ⟨before ++ piece.text.take lexeme.length, ?_, hpos.symm⟩
    exact ((List.prefix_append_right_inj _).mpr (List.take_prefix _ _)).trans hsource
  · rintro rfl
    exact h.digits hd

end Pieces

theorem Reads.sited {before rest source : List Char} {pieces : List Piece} {tokens : List Token}
    (h : Reads before pieces tokens) (hcuts : Cuts pieces rest)
    (hsource : before ++ Piece.texts pieces <+: source) :
    ∀ t ∈ tokens, t.Sited (Pos.Reached source) := by
  induction h with
  | nil => simp
  | skip _ _ ih =>
    cases hcuts with
    | cons _ hcuts =>
      rw [Piece.texts_cons, ← List.append_assoc] at hsource
      exact ih hcuts hsource
  | token hd _ ih =>
    cases hcuts with
    | cons hcut hcuts =>
      rw [Piece.texts_cons, ← List.append_assoc] at hsource
      refine List.forall_mem_cons.mpr ⟨?_, ih hcuts hsource⟩
      exact hcut.sited hd ((List.prefix_append _ _).trans hsource)

/-- Every token is that of a piece, and it has the position of this piece. -/
theorem Reads.exists_piece {before : List Char} {pieces : List Piece} {tokens : List Token}
    (h : Reads before pieces tokens) {t : Token} (ht : t ∈ tokens) :
    ∃ front piece back, pieces = front ++ piece :: back ∧ piece.Denotes t.kind t.lexeme ∧
      t.pos = .behind (before ++ Piece.texts front) := by
  induction h with
  | nil => cases ht
  | @skip before first pieces tokens _ _ ih =>
    obtain ⟨front, piece, back, rfl, hd, hpos⟩ := ih ht
    exact ⟨first :: front, piece, back, rfl, hd, by simpa using hpos⟩
  | @token before first pieces tokens kind lexeme hd _ ih =>
    rcases List.mem_cons.mp ht with rfl | ht
    · exact ⟨[], first, pieces, rfl, hd, by simp⟩
    · obtain ⟨front, piece, back, rfl, hd, hpos⟩ := ih ht
      exact ⟨first :: front, piece, back, rfl, hd, by simpa using hpos⟩

theorem Cuts.cut {front back : List Piece} {piece : Piece} {rest : List Char}
    (h : Cuts (front ++ piece :: back) rest) : Cut piece (Piece.texts back ++ rest) := by
  induction front with
  | nil =>
    cases h with
    | cons hcut _ => exact hcut
  | cons first front ih =>
    cases h with
    | cons _ hcuts => exact ih hcuts

theorem Stuck.isPrefix {rest gap : List Char} {fault : Fault} (h : Stuck rest fault gap) :
    gap <+: rest := by
  cases h with
  | noPiece _ => exact List.nil_prefix
  | unknownEscape _ _ _ =>
    simp [Piece.text]

/-! ## The whole source -/

/-- No symbol is a name or a string. -/
theorem TokenKind.ne_of_ofSymbol? {c : Char} {kind : TokenKind} (h : ofSymbol? c = some kind) :
    .identifier ≠ kind ∧ .stringLiteral ≠ kind := by
  unfold ofSymbol? at h
  split at h <;> cases h <;> decide

/-- **A token of a source is one of the pieces that the source is made of.** -/
theorem exists_piece_of_tokenize {source : String} {tokens : List Token}
    (h : tokenize source = .ok tokens) {t : Token} (ht : t ∈ tokens) (hk : t.kind ≠ .endOfText) :
    ∃ front piece back, source.toList = Piece.texts (front ++ piece :: back) ∧
      Cuts (front ++ piece :: back) [] ∧ piece.Denotes t.kind t.lexeme ∧
      t.pos = .behind (Piece.texts front) := by
  have hscan := scan_scanned [] source.toList
  rw [Pos.behind_nil] at hscan
  rw [tokenize] at h
  rw [h] at hscan
  cases hscan with
  | @tokens pieces tokens hs hcuts hr =>
    rcases List.mem_append.mp ht with ht | ht
    · obtain ⟨front, piece, back, rfl, hd, hpos⟩ := hr.exists_piece ht
      exact ⟨front, piece, back, hs, hcuts, hd, by simpa using hpos⟩
    · obtain rfl := List.mem_singleton.mp ht
      exact absurd rfl hk

/-- **The tokens of a source stand in it.** -/
theorem tokenize_sited {source : String} {tokens : List Token} (h : tokenize source = .ok tokens) :
    ∀ t ∈ tokens, t.Sited (Pos.Reached source.toList) := by
  have hscan := scan_scanned [] source.toList
  rw [Pos.behind_nil] at hscan
  rw [tokenize] at h
  rw [h] at hscan
  cases hscan with
  | @tokens pieces tokens hs hcuts hr =>
    have hend : Pos.Reached source.toList (.behind source.toList) := ⟨_, List.prefix_rfl, rfl⟩
    have hsource : [] ++ Piece.texts pieces <+: source.toList := by
      simp [hs]
    intro t ht
    rcases List.mem_append.mp ht with ht | ht
    · exact hr.sited hcuts hsource t ht
    · obtain rfl := List.mem_singleton.mp ht
      refine ⟨hend, ?_, by rintro ⟨⟩⟩
      simpa [Pos.right] using hend

/-- **A source that cannot be scanned is at fault in one of its places.** -/
theorem tokenize_rejected {source : String} {f : Failure} (h : tokenize source = .error f) :
    ∃ e, f = .rejected e ∧ e.fault.kind = .lexical ∧ Pos.Reached source.toList e.pos := by
  have hscan := scan_scanned [] source.toList
  rw [Pos.behind_nil] at hscan
  rw [tokenize] at h
  rw [h] at hscan
  cases hscan with
  | @fault pieces tokens rest gap fault hs hcuts hr hstuck =>
    refine ⟨_, rfl, hstuck.lexical, _, ?_, rfl⟩
    rw [List.nil_append, hs]
    exact (List.prefix_append_right_inj _).mpr hstuck.isPrefix

end Risclet
