import Risclet.Proofs.Outcome
import Risclet.Proofs.Pos
import Risclet.Proofs.Token.Pieces

/-! # Scanning partitions the source

Scanning keeps a position while it cuts pieces off, and never looks back at what it has passed.
What it reports is nevertheless what a count over the source gives: the line is one more than the
line feeds before a place, the column one more than the characters since the last of them
(`Pos.behind`).  For what is dropped the position is computed from the line feeds in it, for a token
from its length; both move it as the characters of the piece do, because nothing but a run of blanks
goes beyond its line (`Cut.after_eq_advance`).  For the same reason a column inside a string may be
computed from an offset.

A source is read from left to right as pieces (`Cuts`), of which some are dropped and the others
are tokens (`Reads`).  It is read to its end, or to where it is at fault (`Stuck`): no piece begins
there, or a string holds a backslash that makes no escape.  The strings before that place hold
none, since each of them is a token.

Main statement: `tokenize_partitions`.
-/
namespace Risclet

open Text

/-! ## Pieces in order -/

namespace Piece

/-- The characters of pieces, in order. -/
def texts (pieces : List Piece) : List Char :=
  pieces.flatMap text

@[simp] theorem texts_nil : texts [] = [] := rfl

@[simp] theorem texts_cons (piece : Piece) (pieces : List Piece) :
    texts (piece :: pieces) = piece.text ++ texts pieces := rfl

/-- A piece that is dropped. -/
def Skipped : Piece → Prop
  | blank _ | comment _ => True
  | _ => False

/-- The kind and the lexeme of the token that a piece is. -/
inductive Denotes : Piece → TokenKind → String → Prop where
  | string {body value : List Char} :
      Quoted.Decodes body value → Denotes (.string body) .stringLiteral (String.ofList value)
  | number (text : List Char) : Denotes (.number text) .intLiteral (String.ofList text)
  | name (text : List Char) : Denotes (.name text) .identifier (String.ofList text)
  | symbol (kind : TokenKind) (c : Char) : Denotes (.symbol kind c) kind (String.singleton c)

end Piece

/-- Pieces that a text begins with, one after the other, and what is left of the text. -/
inductive Cuts : List Piece → List Char → Prop where
  | nil {rest : List Char} : Cuts [] rest
  | cons {piece : Piece} {pieces : List Piece} {rest : List Char} :
      Cut piece (Piece.texts pieces ++ rest) → Cuts pieces rest → Cuts (piece :: pieces) rest

/-- The tokens of pieces in order, each at its place; `before` is the source up to the first. -/
inductive Reads : List Char → List Piece → List Token → Prop where
  | nil {before : List Char} : Reads before [] []
  | skip {before : List Char} {piece : Piece} {pieces : List Piece} {tokens : List Token} :
      piece.Skipped → Reads (before ++ piece.text) pieces tokens →
      Reads before (piece :: pieces) tokens
  | token {before : List Char} {piece : Piece} {pieces : List Piece} {tokens : List Token}
      {kind : TokenKind} {lexeme : String} :
      piece.Denotes kind lexeme → Reads (before ++ piece.text) pieces tokens →
      Reads before (piece :: pieces) (⟨kind, lexeme, Pos.behind before⟩ :: tokens)

/-- Why a text gives no further token, and what stands before the place that is to blame. -/
inductive Stuck : List Char → Fault → List Char → Prop where
  /-- No piece begins here. -/
  | noPiece {c : Char} {tail : List Char} :
      (∀ piece rest, Cut piece rest → piece.text ++ rest ≠ c :: tail) →
      Stuck (c :: tail) (noPieceFault c) []
  /-- A string begins here, and `c` makes the first of its pairs that is no escape. -/
  | unknownEscape {good bad rest value : List Char} {c : Char} :
      Cut (.string (good ++ '\\' :: c :: bad)) rest → Quoted.Decodes good value →
      (∀ d, (c, d) ∉ Quoted.escapes) →
      Stuck ((Piece.string (good ++ '\\' :: c :: bad)).text ++ rest) (.unknownEscape c)
        (doubleQuote :: good)

/-- What scanning may make of a text that stands behind `before`. -/
inductive Scanned (before cs : List Char) : Except Failure (List Token) → Prop where
  /-- The whole text is cut into pieces, and the end has a token of its own. -/
  | tokens {pieces : List Piece} {tokens : List Token} :
      cs = Piece.texts pieces → Cuts pieces [] → Reads before pieces tokens →
      Scanned before cs (.ok (tokens ++ [⟨.endOfText, "", Pos.behind (before ++ cs)⟩]))
  /-- Behind some pieces the text goes on with something that is at fault. -/
  | fault {pieces : List Piece} {tokens : List Token} {rest gap : List Char} {fault : Fault} :
      cs = Piece.texts pieces ++ rest → Cuts pieces rest → Reads before pieces tokens →
      Stuck rest fault gap →
      Scanned before cs (.error (.fault fault (Pos.behind (before ++ Piece.texts pieces ++ gap))))

/-! ## One piece -/

/-- A piece is dropped, or it is a token, or it is a string with a backslash that makes no
escape. -/
theorem token?_cases {piece : Piece} {rest : List Char} (h : Cut piece rest) (before : List Char) :
    (piece.Skipped ∧ piece.token? (.behind before) = .ok none) ∨
      (∃ kind lexeme, piece.Denotes kind lexeme ∧
        piece.token? (.behind before) = .ok (some ⟨kind, lexeme, .behind before⟩)) ∨
      ∃ fault gap, Stuck (piece.text ++ rest) fault gap ∧
        piece.token? (.behind before) = .error (.fault fault (.behind (before ++ gap))) := by
  cases h with
  | blank _ _ _ => exact .inl ⟨trivial, rfl⟩
  | comment _ _ => exact .inl ⟨trivial, rfl⟩
  | number _ _ _ => exact .inr (.inl ⟨_, _, .number _, rfl⟩)
  | name _ _ _ => exact .inr (.inl ⟨_, _, .name _, rfl⟩)
  | symbol _ _ => exact .inr (.inl ⟨_, _, .symbol _ _, rfl⟩)
  | @string body _ hbody =>
    rcases hbody.decodeFrom_cases 0 with ⟨value, hv, hd⟩ | ⟨good, c, bad, value, rfl, hd, hc, he⟩
    · refine .inr (.inl ⟨_, _, .string hd, ?_⟩)
      simp [Piece.token?, unescape, Quoted.decode, hv]
    · refine .inr (.inr ⟨_, _, .unknownEscape (.string hbody) hd hc, ?_⟩)
      -- Nothing before the backslash ends the line, so the column says how far it is.
      have hline : ∀ d ∈ doubleQuote :: good, d ≠ '\n' := by
        refine List.forall_mem_cons.mpr ⟨by decide, fun d hd => ?_⟩
        exact hbody.ne_newline d (List.mem_append_left _ hd)
      have hpos := Pos.advance_eq_right (.behind before) hline
      rw [Pos.advance_behind] at hpos
      simp [Piece.token?, unescape, Quoted.decode, he, hpos, Nat.add_comm]

/-! ## Scanning -/

/-- **The position behind a piece is where its characters lead.** -/
theorem Cut.after_eq_advance {piece : Piece} {rest : List Char} (h : Cut piece rest) (pos : Pos) :
    piece.after pos = pos.advance piece.text := by
  cases piece with
  | blank text | comment text => exact Pos.skip_eq_advance pos text
  | _ =>
    rcases h.blank_or_ne_newline with ⟨text, hblank⟩ | hline
    · cases hblank
    · exact (Pos.advance_eq_right pos hline).symm

/-- A piece in front of what is scanned. -/
theorem Scanned.cons {before cs : List Char} {piece : Piece} {token? : Option Token}
    {result : Except Failure (List Token)} (hcut : Cut piece cs)
    (h : Scanned (before ++ piece.text) cs result)
    (ht : (piece.Skipped ∧ token? = none) ∨
      ∃ kind lexeme, piece.Denotes kind lexeme ∧ token? = some ⟨kind, lexeme, .behind before⟩) :
    Scanned before (piece.text ++ cs) (do
      let tokens ← result
      return token?.toList ++ tokens) := by
  have hreads : ∀ {pieces tokens}, Reads (before ++ piece.text) pieces tokens →
      Reads before (piece :: pieces) (token?.toList ++ tokens) := by
    intro pieces tokens hr
    rcases ht with ⟨hs, rfl⟩ | ⟨kind, lexeme, hd, rfl⟩
    · exact .skip hs hr
    · exact .token hd hr
  cases h with
  | @tokens pieces tokens hcs hcuts hr =>
    rw [Outcome.bind_ok, Outcome.pure_eq_ok, ← List.append_assoc, List.append_assoc before]
    refine .tokens (by simp [hcs]) (.cons ?_ hcuts) (hreads hr)
    rwa [List.append_nil, ← hcs]
  | @fault pieces tokens rest gap fault hcs hcuts hr hstuck =>
    rw [Outcome.bind_error, List.append_assoc before, ← Piece.texts_cons]
    exact .fault (by simp [hcs]) (.cons (hcs ▸ hcut) hcuts) (hreads hr) hstuck

/-- **Scanning follows the rules for pieces.** -/
theorem scan_scanned (before cs : List Char) :
    Scanned before cs (scan (.behind before) cs) := by
  induction hn : cs.length using Nat.strongRecOn generalizing before cs with
  | ind n ih =>
    rw [scan.eq_def]
    split
    · have hend : Scanned before [] (.ok ([] ++ [⟨.endOfText, "", Pos.behind (before ++ [])⟩])) :=
        .tokens rfl .nil .nil
      simpa using hend
    · next c tail =>
      split
      · next hnone =>
        have hstuck : Stuck (c :: tail) (noPieceFault c) [] := by
          refine .noPiece fun piece rest hcut he => ?_
          rw [nextPiece?_eq_some.mpr ⟨hcut, he⟩] at hnone
          cases hnone
        simpa using Scanned.fault rfl .nil .nil hstuck
      · next piece rest hsome =>
        obtain ⟨hcut, htext⟩ := nextPiece?_eq_some.mp hsome
        have hlen : rest.length < n := hn ▸ nextPiece?_length hsome
        have hrest := ih rest.length hlen (before ++ piece.text) rest rfl
        rw [← htext, hcut.after_eq_advance, Pos.advance_behind]
        rcases token?_cases hcut before with
          ⟨hskip, ht⟩ | ⟨kind, lexeme, hd, ht⟩ | ⟨fault, gap, hstuck, ht⟩
        · rw [ht, Outcome.bind_ok]
          exact hrest.cons hcut (.inl ⟨hskip, rfl⟩)
        · rw [ht, Outcome.bind_ok]
          exact hrest.cons hcut (.inr ⟨kind, lexeme, hd, rfl⟩)
        · simpa [ht] using Scanned.fault rfl .nil .nil hstuck

/-- What scanning makes of a piece and the text behind it. -/
theorem scan_of_cut {piece : Piece} {rest : List Char} (h : Cut piece rest) (pos : Pos) :
    scan pos (piece.text ++ rest) = (do
      let token? ← piece.token? pos
      let tokens ← scan (pos.advance piece.text) rest
      return token?.toList ++ tokens) := by
  have hnext := nextPiece?_of_cut h
  obtain ⟨c, tail, htail⟩ := List.exists_cons_of_ne_nil
    (List.append_ne_nil_of_left_ne_nil h.text_ne_nil rest)
  rw [htail] at hnext ⊢
  rw [scan]
  split
  · next hnone =>
    rw [hnext] at hnone
    cases hnone
  · next found left hsome =>
    rw [hnext] at hsome
    obtain ⟨rfl, rfl⟩ := Prod.mk.inj (Option.some.inj hsome)
    rw [h.after_eq_advance]

/-- Nothing is left of a piece that is dropped but the room that it takes. -/
theorem scan_skip {piece : Piece} {rest : List Char} (h : Cut piece rest) (hs : piece.Skipped)
    (pos : Pos) : scan pos (piece.text ++ rest) = scan (pos.advance piece.text) rest := by
  rw [scan_of_cut h]
  cases piece with
  | blank | comment =>
    cases scan (pos.advance _) rest <;> rfl
  | _ => cases hs

/-! ## The whole source -/

theorem Stuck.lexical {rest gap : List Char} {fault : Fault} (h : Stuck rest fault gap) :
    fault.kind = .lexical := by
  cases h with
  | @noPiece c tail _ =>
    unfold noPieceFault
    split <;> rfl
  | unknownEscape _ _ _ => rfl

theorem Cuts.text_ne_nil {pieces : List Piece} {rest : List Char} (h : Cuts pieces rest) :
    ∀ piece ∈ pieces, piece.text ≠ [] := by
  induction h with
  | nil => simp
  | cons hcut _ ih => exact List.forall_mem_cons.mpr ⟨hcut.text_ne_nil, ih⟩

/-- **Scanning partitions the source, and its positions are exact.**  The source is made of pieces,
none of them empty, and the tokens are those of the pieces that are not dropped, in order, with the
end behind them; each has the position behind the text before it.  Or the source goes on, behind
some pieces, with a text that no piece begins, or with a string in which a pair is no escape.  Then
the fault is lexical, and its position is the one behind what stands before the place that is to
blame. -/
theorem tokenize_partitions (source : String) :
    (∃ pieces tokens, tokenize source =
          .ok (tokens ++ [⟨.endOfText, "", Pos.behind source.toList⟩]) ∧
        source.toList = Piece.texts pieces ∧ (∀ piece ∈ pieces, piece.text ≠ []) ∧
        Cuts pieces [] ∧ Reads [] pieces tokens) ∨
      ∃ pieces tokens rest fault gap,
        tokenize source = .error (.fault fault (Pos.behind (Piece.texts pieces ++ gap))) ∧
        fault.kind = .lexical ∧ source.toList = Piece.texts pieces ++ rest ∧
        (∀ piece ∈ pieces, piece.text ≠ []) ∧ Cuts pieces rest ∧ Reads [] pieces tokens ∧
        Stuck rest fault gap := by
  have h := scan_scanned [] source.toList
  rw [Pos.behind_nil] at h
  unfold tokenize
  generalize scan .start source.toList = result at h
  cases h with
  | @tokens pieces tokens hs hc hr =>
    exact .inl ⟨pieces, tokens, rfl, hs, hc.text_ne_nil, hc, hr⟩
  | @fault pieces tokens rest gap fault hs hc hr hstuck =>
    exact .inr ⟨pieces, tokens, rest, fault, gap, rfl, hstuck.lexical, hs, hc.text_ne_nil, hc, hr,
      hstuck⟩

end Risclet
