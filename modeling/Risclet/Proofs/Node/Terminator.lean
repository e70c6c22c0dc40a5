import Risclet.Proofs.Node.Origin
import Risclet.Proofs.Node.Parse

/-! # Where a semicolon is missed

If the last statement of a source is not ended, this is reported behind its last token.  No other
part of the parser makes this complaint (`parseStatement_quiet`), so it is about the last token
before the end of the text (`parseFrom_missingSemicolon`), and that is the last piece of the source
that is not dropped (`Reads.getLast?_piece`).

The parser knows a token by its lexeme, and counts its characters to find the place behind it.  For
a string this is the wrong number: the lexeme has neither the quotes nor the backslashes of the
escapes (`Piece.hidden`).  So behind a string the place is given too far to the left, by two columns
and one more for every escape, and behind every other token it is exact (`missing_semicolon_place`).
-/
namespace Risclet

open Text

namespace Text
namespace Quoted

/-- The number of escapes between quotes. -/
def escapeCount : List Char → Nat
  | [] => 0
  | '\\' :: _ :: rest => 1 + escapeCount rest
  | _ :: rest => escapeCount rest

/-- Two characters are written for one with each escape. -/
theorem Decodes.length_eq {body value : List Char} (h : Decodes body value) :
    body.length = value.length + escapeCount body := by
  induction h with
  | nil => rfl
  | @plain c rest value hc _ ih =>
    have hcount : escapeCount (c :: rest) = escapeCount rest := by
      rw [escapeCount]
      rintro d tail rfl
      exact fun _ => hc rfl
    rw [hcount, List.length_cons, List.length_cons, ih]
    omega
  | escape _ _ ih =>
    simp only [List.length_cons, escapeCount, ih]
    omega

end Quoted
end Text

theorem Pos.eq_right_iff {p : Pos} {n : Nat} : p = p.right n ↔ n = 0 := by
  obtain ⟨line, column⟩ := p
  simp only [right, mk.injEq, true_and]
  omega

/-! ## The complaint -/

/-- An outcome that is no complaint about a missing semicolon. -/
def Quiet {α : Type} (x : Except Failure α) : Prop :=
  ∀ pos, x ≠ .error (.fault .missingSemicolon pos)

section Quiet
variable {α β : Type} {x : Except Failure α}

theorem Quiet.ok (a : α) : Quiet (.ok a) := by
  rintro pos ⟨⟩

theorem Quiet.fault {fault : Fault} (h : fault ≠ .missingSemicolon) (pos : Pos) :
    Quiet (.error (.fault fault pos) : Except Failure α) := by
  rintro place he
  exact h (congrArg Error.fault (Failure.rejected.inj (Except.error.inj he)))

theorem Quiet.bind {f : α → Except Failure β} (h : Quiet x) (hf : ∀ a, Quiet (f a)) :
    Quiet (x >>= f) := by
  cases x with
  | error failure =>
    intro pos he
    exact h pos (congrArg Except.error (Except.error.inj he))
  | ok a => exact hf a

theorem Quiet.map {f : α → β} (h : Quiet x) : Quiet (x.map f) := by
  intro pos he
  exact h pos (Outcome.map_eq_error.mp he)

end Quiet

namespace Node

theorem intValue_quiet (written : String) (pos : Pos) : Quiet (intValue written pos) := by
  unfold intValue
  split
  · rintro place ⟨⟩
  · rintro place ⟨⟩
  · split
    · exact .ok _
    · exact .fault (by simp) pos

theorem parseAtom_quiet (first : Token) (rest : List Token) : Quiet (parseAtom first rest) := by
  unfold parseAtom
  split
  · exact .ok _
  · exact .ok _
  · exact (intValue_quiet _ _).map
  · exact (intValue_quiet _ _).map
  · exact .fault (by simp) _

theorem parseExpr_quiet (first : Token) (rest : List Token) : Quiet (parseExpr first rest) := by
  unfold parseExpr
  refine (parseAtom_quiet first rest).bind ?_
  rintro ⟨left, tail⟩
  cases tail with
  | nil => exact .ok _
  | cons sign tail =>
    simp only
    split
    · exact .fault (by simp) _
    · exact .fault (by simp) _
    · refine (parseAtom_quiet _ _).bind ?_
      rintro ⟨right, extra⟩
      cases extra with
      | nil => exact .ok _
      | cons t extra => exact .fault (by simp) _

theorem parseArgs_quiet (current tokens : List Token) : Quiet (parseArgs current tokens) := by
  fun_induction parseArgs current tokens with
  | case1 => exact .ok _
  | case2 first rest => exact (parseExpr_quiet first rest).map
  | case3 token rest _ => exact .fault (by simp) _
  | case4 token tokens _ first rest ih =>
    refine (parseExpr_quiet first rest).bind fun arg => ?_
    split
    · exact .fault (by simp) _
    · exact ih.bind fun args => .ok _
  | case5 current token tokens _ ih => exact ih

theorem parseExprStatement_quiet (first : Token) (rest : List Token) :
    Quiet (parseExprStatement first rest) := by
  unfold parseExprStatement
  split
  · exact .ok _
  · exact .fault (by simp) _
  · rintro pos ⟨⟩

theorem parseDeclaration_quiet (name typeName : String) (pos : Pos) (tokens : List Token) :
    Quiet (parseDeclaration name typeName pos tokens) := by
  fun_cases parseDeclaration name typeName pos tokens with
  | case1 => exact .ok _
  | case2 => exact .fault (by simp) _
  | case3 => exact .fault (by simp) _
  | case4 equals _ first rest => exact (parseExpr_quiet first rest).map

theorem parseAssignment_quiet (name : String) (pos equals : Pos) (tokens : List Token) :
    Quiet (parseAssignment name pos equals tokens) := by
  cases tokens with
  | nil => exact .fault (by simp) _
  | cons first rest => exact (parseExpr_quiet first rest).map

/-- **Nothing inside a statement is called a missing semicolon.** -/
theorem parseStatement_quiet (first : Token) (rest : List Token) :
    Quiet (parseStatement first rest) := by
  unfold parseStatement
  split
  · exact parseDeclaration_quiet _ _ _ _
  · exact parseAssignment_quiet _ _ _ _
  · split
    · exact (parseArgs_quiet _ _).map
    · exact parseExprStatement_quiet _ _
  · exact parseExprStatement_quiet _ _

theorem parseEnd_missingSemicolon {current : List Token} {pos : Pos}
    (h : parseEnd current = .error (.fault .missingSemicolon pos)) :
    ∃ last, current.getLast? = some last ∧ pos = last.pos.right last.lexeme.length := by
  unfold parseEnd at h
  split at h
  · cases h
  · next last hlast =>
    cases h
    exact ⟨last, hlast, rfl⟩

/-- **A missing semicolon is missed behind the last token before the end of the text.** -/
theorem parseFrom_missingSemicolon {current tokens : List Token} {pos : Pos}
    (h : parseFrom current tokens = .error (.fault .missingSemicolon pos)) :
    ∃ last, (current ++ Grammar.body tokens).getLast? = some last ∧
      pos = last.pos.right last.lexeme.length := by
  fun_induction parseFrom current tokens with
  | case1 current => simpa [Grammar.body] using parseEnd_missingSemicolon h
  | case2 current token tokens hk => simpa [Grammar.body, hk] using parseEnd_missingSemicolon h
  | case3 token tokens hk => cases h
  | case4 token tokens hk first rest ih =>
    -- The statement before this semicolon is not to blame, so what follows it is.
    rcases Outcome.bind_eq_error.mp h with hs | ⟨statement, -, h⟩
    · exact absurd hs (parseStatement_quiet first rest pos)
    rcases Outcome.bind_eq_error.mp h with ht | ⟨statements, -, h⟩
    · obtain ⟨last, hlast, hpos⟩ := ih ht
      rw [List.nil_append] at hlast
      refine ⟨last, ?_, hpos⟩
      have hbody : Grammar.body (token :: tokens) = [token] ++ Grammar.body tokens := by
        simp [Grammar.body, hk]
      rw [hbody, ← List.append_assoc, List.getLast?_append, hlast]
      rfl
    · cases h
  | case5 current token tokens hend hsemi ih =>
    have hbody : Grammar.body (token :: tokens) = token :: Grammar.body tokens :=
      List.takeWhile_cons_of_pos (by simpa using hend)
    rw [hbody]
    simpa using ih h

end Node

/-! ## The last piece -/

/-- The characters of a piece that its lexeme lacks: the quotes of a string, and the backslash of
each escape in it. -/
def Piece.hidden : Piece → Nat
  | .string body => 2 + Quoted.escapeCount body
  | _ => 0

section Pieces
variable {before : List Char} {pieces : List Piece} {tokens : List Token} {piece : Piece}
  {rest : List Char} {kind : TokenKind} {lexeme : String}

/-- What is written is the lexeme and what it lacks. -/
theorem Piece.Denotes.length_eq (h : piece.Denotes kind lexeme) :
    piece.text.length = lexeme.length + piece.hidden := by
  cases h with
  | string hd =>
    simp only [text, hidden, hd.length_eq, String.length_ofList, List.length_cons,
      List.length_append, List.length_nil]
    omega
  | _ => simp [text, hidden]

/-- Strings, and no other tokens, have hidden characters. -/
theorem Cut.hidden_eq_zero_iff (h : Cut piece rest) (hd : piece.Denotes kind lexeme) :
    piece.hidden = 0 ↔ kind ≠ .stringLiteral := by
  cases hd with
  | symbol kind c =>
    cases h with
    | symbol hk _ => simpa [Piece.hidden] using (TokenKind.ne_of_ofSymbol? hk).2.symm
  | _ => simp [Piece.hidden]

theorem Cut.kind_ne_endOfText (h : Cut piece rest) (hd : piece.Denotes kind lexeme) :
    kind ≠ .endOfText := by
  cases hd with
  | symbol kind c =>
    cases h with
    | symbol hk _ =>
      unfold TokenKind.ofSymbol? at hk
      split at hk <;> cases hk <;> decide
  | _ => decide

/-- Pieces without tokens are dropped. -/
theorem Reads.skipped (h : Reads before pieces []) : ∀ piece ∈ pieces, piece.Skipped := by
  generalize ht : ([] : List Token) = tokens at h
  induction h with
  | nil => simp
  | skip hs _ ih => exact List.forall_mem_cons.mpr ⟨hs, ih ht⟩
  | token => cases ht

/-- **The last token is the last piece that is not dropped.** -/
theorem Reads.getLast?_piece (h : Reads before pieces tokens) {last : Token}
    (hlast : tokens.getLast? = some last) :
    ∃ front piece back, pieces = front ++ piece :: back ∧ (∀ p ∈ back, p.Skipped) ∧
      piece.Denotes last.kind last.lexeme ∧ last.pos = .behind (before ++ Piece.texts front) := by
  induction h with
  | nil => cases hlast
  | @skip before first pieces tokens _ _ ih =>
    obtain ⟨front, piece, back, rfl, hback, hd, hpos⟩ := ih hlast
    exact ⟨first :: front, piece, back, rfl, hback, hd, by simpa using hpos⟩
  | @token before first pieces tokens kind lexeme hd hr ih =>
    cases tokens with
    | nil =>
      cases hlast
      exact ⟨[], first, pieces, rfl, hr.skipped, hd, by simp⟩
    | cons t tokens =>
      rw [List.getLast?_cons_cons] at hlast
      obtain ⟨front, piece, back, rfl, hback, hd, hpos⟩ := ih hlast
      exact ⟨first :: front, piece, back, rfl, hback, hd, by simpa using hpos⟩

/-- The tokens before the end of the text are those of the pieces. -/
theorem Reads.body_eq (h : Reads before pieces tokens) (hcuts : Cuts pieces rest) (stop : Pos) :
    Grammar.body (tokens ++ [⟨.endOfText, "", stop⟩]) = tokens := by
  have hkind : ∀ t ∈ tokens, (t.kind != .endOfText) = true := by
    intro t ht
    obtain ⟨front, piece, back, rfl, hd, -⟩ := h.exists_piece ht
    simpa using hcuts.cut.kind_ne_endOfText hd
  rw [Grammar.body, List.takeWhile_append_of_pos hkind]
  simp

end Pieces

/-! ## The place -/

/-- **Where a missing semicolon is reported.**  If a source is not ended, the complaint is about its
last token, behind which there is nothing but blanks and comments.  The place that is given is as
many columns behind the beginning of this token as its lexeme has characters.  The place behind the
last character of the token is further to the right by the characters that the lexeme lacks; so the
place is right if and only if the token is not a string. -/
theorem missing_semicolon_place {source : String} {tokens : List Token} {pos : Pos}
    (hs : tokenize source = .ok tokens)
    (hp : Node.parse tokens = .error (.fault .missingSemicolon pos)) :
    ∃ last front piece back, (Grammar.body tokens).getLast? = some last ∧
      source.toList = Piece.texts front ++ piece.text ++ Piece.texts back ∧
      Cut piece (Piece.texts back) ∧ (∀ p ∈ back, p.Skipped) ∧
      piece.Denotes last.kind last.lexeme ∧ last.pos = .behind (Piece.texts front) ∧
      pos = last.pos.right last.lexeme.length ∧
      Pos.behind (Piece.texts front ++ piece.text) = pos.right piece.hidden ∧
      (pos = .behind (Piece.texts front ++ piece.text) ↔ last.kind ≠ .stringLiteral) := by
  have hscan := scan_scanned [] source.toList
  rw [Pos.behind_nil, ← tokenize, hs] at hscan
  cases hscan with
  | @tokens pieces tokens htext hcuts hr =>
    obtain ⟨last, hlast, hpos⟩ := Node.parseFrom_missingSemicolon hp
    rw [List.nil_append] at hlast
    have hown := hlast
    rw [hr.body_eq hcuts] at hown
    obtain ⟨front, piece, back, rfl, hback, hd, hplace⟩ := hr.getLast?_piece hown
    have hcut := hcuts.cut
    rw [List.append_nil] at hcut
    rw [List.nil_append] at hplace
    -- A token is on one line, so the place behind it is as far to the right as it has characters.
    have hbehind : Pos.behind (Piece.texts front ++ piece.text) = pos.right piece.hidden := by
      rw [← Pos.advance_behind, Pos.advance_eq_right _ (hcut.ne_newline hd), hd.length_eq, hpos,
        hplace]
      simp [Pos.right, Int.add_assoc]
    refine ⟨last, front, piece, back, hlast, ?_, hcut, hback, hd, hplace, hpos, hbehind, ?_⟩
    · rw [htext]
      simp [Piece.texts]
    · rw [hbehind, ← hcut.hidden_eq_zero_iff hd, Pos.eq_right_iff]

/-- A source whose last statement is not ended, with a comment behind it. -/
def endless : String := "s = \"a\";\nOutput(n) // ;"

/-- Its tokens. -/
def endlessTokens : List Token :=
  [⟨.identifier, "s", ⟨1, 1⟩⟩, ⟨.assign, "=", ⟨1, 3⟩⟩, ⟨.stringLiteral, "a", ⟨1, 5⟩⟩,
    ⟨.semicolon, ";", ⟨1, 8⟩⟩, ⟨.identifier, "Output", ⟨2, 1⟩⟩, ⟨.leftParen, "(", ⟨2, 7⟩⟩,
    ⟨.identifier, "n", ⟨2, 8⟩⟩, ⟨.rightParen, ")", ⟨2, 9⟩⟩, ⟨.endOfText, "", ⟨2, 15⟩⟩]

/-- The semicolon is missed right behind the parenthesis. -/
theorem missing_semicolon_place_call :
    tokenize endless = .ok endlessTokens ∧
      Node.parse endlessTokens = .error (.fault .missingSemicolon ⟨2, 10⟩) ∧
      ∃ (front : List Piece) (piece : Piece) (back : List Piece),
        endless.toList = Piece.texts front ++ piece.text ++ Piece.texts back ∧
        (∀ p ∈ back, p.Skipped) ∧ Pos.behind (Piece.texts front ++ piece.text) = ⟨2, 10⟩ := by
  have hs : tokenize endless = .ok endlessTokens := by decide +kernel
  have hp : Node.parse endlessTokens = .error (.fault .missingSemicolon ⟨2, 10⟩) := rfl
  obtain ⟨last, front, piece, back, hlast, htext, -, hback, -, -, -, -, hiff⟩ :=
    missing_semicolon_place hs hp
  cases hlast
  exact ⟨hs, hp, front, piece, back, htext, hback, (hiff.mpr (by decide)).symm⟩

/-- **Behind a string the place is wrong.**  The text ends with the string, in column ten; but the
semicolon is missed in column seven, inside of it. -/
theorem missing_semicolon_inside_string :
    ∃ tokens, tokenize "s = \"a\\n\"" = .ok tokens ∧
      (Grammar.body tokens).getLast? = some ⟨.stringLiteral, "a\n", ⟨1, 5⟩⟩ ∧
      Node.parse tokens = .error (.fault .missingSemicolon ⟨1, 7⟩) ∧
      Pos.behind "s = \"a\\n\"".toList = ⟨1, 10⟩ := by
  have hs : tokenize "s = \"a\\n\"" = .ok
      [⟨.identifier, "s", ⟨1, 1⟩⟩, ⟨.assign, "=", ⟨1, 3⟩⟩, ⟨.stringLiteral, "a\n", ⟨1, 5⟩⟩,
        ⟨.endOfText, "", ⟨1, 10⟩⟩] := by
    decide +kernel
  exact ⟨_, hs, rfl, rfl, by decide⟩

end Risclet
