import Risclet.Proofs.Text.Codec
import Risclet.Proofs.Token.Places

/-! # Scanning undoes printing

A token is written as its lexeme, a string as its literal (`Token.Written`).  Tokens are printed one
after the other with fillers between them: blanks, and comments that stand behind a blank and end
with their line (`Filler`).  Before the first token and behind the last one there may be a filler or
nothing (`Printed`).

A filler begins with a blank, and no blank goes on with a name or a numeral or makes a comment of a
slash.  So every token is a piece of its own (`Token.Written.exists_piece`).  A filler need not be
made of pieces: the line feed at the end of a comment and the blanks behind it are one piece.  But
scanning passes over blanks one by one as it does over the whole run (`scan_blank`), so it passes
over a filler part by part (`Filler.scan_append`).

Main statement: `tokenize_printed`.
-/
namespace Risclet

open Text

/-! ## What is printed -/

namespace Text

/-- A name: a letter of ASCII or an underscore, and word characters behind it. -/
def IsName (cs : List Char) : Prop :=
  ∃ c rest, cs = c :: rest ∧ isNameStart c = true ∧ ∀ d ∈ rest, isWordChar d = true

end Text

/-- How a token is written: a name or a numeral as it is, a string as its literal, and any other
token as its symbol. -/
inductive Token.Written : Token → List Char → Prop where
  | name {text : List Char} (pos : Pos) :
      IsName text → Written ⟨.identifier, String.ofList text, pos⟩ text
  | number {text : List Char} (pos : Pos) :
      text ≠ [] → (∀ c ∈ text, isDigit c = true) →
      Written ⟨.intLiteral, String.ofList text, pos⟩ text
  | string (value : String) (pos : Pos) :
      Written ⟨.stringLiteral, value, pos⟩ (Quoted.quote value).toList
  | symbol {kind : TokenKind} {c : Char} (pos : Pos) :
      TokenKind.ofSymbol? c = some kind → Written ⟨kind, String.singleton c, pos⟩ [c]

/-- What may stand between tokens: blanks, and comments behind them that a line feed ends. -/
inductive Filler : List Char → Prop where
  | blanks {run : List Char} : run ≠ [] → (∀ c ∈ run, isBlank c = true) → Filler run
  | comment {before body : List Char} : Filler before → (∀ c ∈ body, c ≠ '\n') →
      Filler (before ++ '/' :: '/' :: (body ++ ['\n']))
  | append {cs ds : List Char} : Filler cs → Filler ds → Filler (cs ++ ds)

/-- What may stand at the ends of a text: a filler or nothing. -/
def Margin (cs : List Char) : Prop :=
  cs = [] ∨ Filler cs

/-- Tokens that are written one after the other, with fillers between them. -/
inductive Printed : List Token → List Char → Prop where
  | nil : Printed [] []
  | last {t : Token} {text margin : List Char} :
      t.Written text → Margin margin → Printed [t] (text ++ margin)
  | cons {t : Token} {tokens : List Token} {text filler rest : List Char} :
      t.Written text → Filler filler → Printed tokens rest →
      Printed (t :: tokens) (text ++ (filler ++ rest))

/-! ## Blanks end tokens -/

/-- What is left begins with a blank, if it is anything. -/
def BlankNext (rest : List Char) : Prop :=
  ∀ c ∈ rest.head?, isBlank c = true

theorem isWordChar_of_isBlank {c : Char} (h : isBlank c = true) : isWordChar c = false := by
  have hapart : ∀ r ∈ blankRanges, ∀ w ∈ wordRanges, r.2 < w.1 ∨ w.2 < r.1 := by decide +kernel
  rw [← Bool.not_eq_true]
  intro hw
  obtain ⟨r, hr, hr1, hr2⟩ := Ranges.exists_of_covers h
  obtain ⟨w, hw, hw1, hw2⟩ := Ranges.exists_of_covers hw
  rcases hapart r hr w hw with h | h <;> omega

theorem isDigit_of_isBlank {c : Char} (h : isBlank c = true) : isDigit c = false := by
  rw [← Bool.not_eq_true]
  intro hd
  rw [isBlank_of_isDigit hd] at h
  cases h

theorem BlankNext.ends {p : Char → Bool} {rest : List Char} (h : BlankNext rest)
    (hp : ∀ c, isBlank c = true → p c = false) : Ends p rest :=
  fun c hc => hp c (h c hc)

theorem Filler.blankNext {filler : List Char} (h : Filler filler) (rest : List Char) :
    filler ≠ [] ∧ BlankNext (filler ++ rest) := by
  induction h generalizing rest with
  | blanks hne hall =>
    obtain ⟨d, run, rfl⟩ := List.exists_cons_of_ne_nil hne
    refine ⟨hne, fun c hc => ?_⟩
    obtain rfl : d = c := by simpa using hc
    exact hall d List.mem_cons_self
  | comment _ _ ih | append _ _ ih _ =>
    refine ⟨List.append_ne_nil_of_left_ne_nil (ih []).1 _, ?_⟩
    rw [List.append_assoc]
    exact (ih _).2

/-- **A token in front of a blank or at the end is a piece of its own.** -/
theorem Token.Written.exists_piece {t : Token} {text : List Char} (h : t.Written text) :
    ∃ piece, piece.text = text ∧ piece.Denotes t.kind t.lexeme ∧
      ∀ rest, BlankNext rest → Cut piece rest := by
  cases h with
  | name pos hname =>
    obtain ⟨c, word, rfl, hc, hword⟩ := hname
    exact ⟨.name (c :: word), rfl, .name _,
      fun rest hrest => .name hc hword (hrest.ends fun _ => isWordChar_of_isBlank)⟩
  | number pos hne hall =>
    exact ⟨.number text, rfl, .number _,
      fun rest hrest => .number hne hall (hrest.ends fun _ => isDigit_of_isBlank)⟩
  | string value pos =>
    refine ⟨.string (Quoted.encode value.toList), by simp [Piece.text, Quoted.quote], ?_,
      fun rest _ => .string (Quoted.isBody_encode _)⟩
    have hd := Piece.Denotes.string (Quoted.decodes_encode value.toList)
    rwa [String.ofList_toList] at hd
  | @symbol kind c pos hc =>
    refine ⟨.symbol kind c, rfl, .symbol kind c, fun rest hrest => .symbol hc fun _ hslash => ?_⟩
    have hblank : isBlank '/' = true := hrest '/' hslash
    exact absurd hblank (by decide)

/-! ## Scanning -/

/-- The body of a string is read as what it stands for. -/
theorem unescape_of_decodes {body value : List Char} (h : Quoted.Decodes body value) (pos : Pos) :
    unescape body pos = .ok (String.ofList value) := by
  rw [unescape, Quoted.decode, Quoted.decodeFrom_of_decodes h]

/-- The token of a piece stands in front of those of the text behind it. -/
theorem scan_token {piece : Piece} {rest : List Char} {kind : TokenKind} {lexeme : String}
    (h : Cut piece rest) (hd : piece.Denotes kind lexeme) (pos : Pos) :
    scan pos (piece.text ++ rest) =
      (scan (pos.advance piece.text) rest).map (⟨kind, lexeme, pos⟩ :: ·) := by
  have htoken : piece.token? pos = .ok (some ⟨kind, lexeme, pos⟩) := by
    cases hd with
    | string hdec => rw [Piece.token?, unescape_of_decodes hdec, Outcome.map_ok]
    | _ => rfl
  rw [scan_of_cut h, htoken]
  cases scan (pos.advance piece.text) rest <;> rfl

/-- **Blanks are passed over one by one.** -/
theorem scan_blank {c : Char} (h : isBlank c = true) (cs : List Char) (pos : Pos) :
    scan pos (c :: cs) = scan (pos.next c) cs := by
  -- The run of blanks that `c` begins goes on with the run that `cs` begins, if there is one.
  have hall : ∀ d ∈ cs.takeWhile isBlank, isBlank d = true := fun d hd => List.mem_takeWhile_imp hd
  have hends := ends_dropWhile isBlank cs
  have hrun : Cut (.blank (c :: cs.takeWhile isBlank)) (cs.dropWhile isBlank) :=
    .blank (List.cons_ne_nil _ _) (List.forall_mem_cons.mpr ⟨h, hall⟩) hends
  have hwhole := scan_skip hrun trivial pos
  rw [Piece.text, List.cons_append, List.takeWhile_append_dropWhile, Pos.advance_cons] at hwhole
  rw [hwhole]
  by_cases hnil : cs.takeWhile isBlank = []
  · have hcs := List.takeWhile_append_dropWhile (p := isBlank) (l := cs)
    rw [hnil, List.nil_append] at hcs
    rw [hnil, hcs, Pos.advance_nil]
  · have hrest := scan_skip (.blank hnil hall hends) trivial (pos.next c)
    rw [Piece.text, List.takeWhile_append_dropWhile] at hrest
    exact hrest.symm

theorem scan_blanks {run : List Char} (h : ∀ c ∈ run, isBlank c = true) (cs : List Char)
    (pos : Pos) : scan pos (run ++ cs) = scan (pos.advance run) cs := by
  induction run generalizing pos with
  | nil => rfl
  | cons c run ih =>
    obtain ⟨hc, hrun⟩ := List.forall_mem_cons.mp h
    rw [List.cons_append, scan_blank hc, ih hrun, Pos.advance_cons]

/-- **A filler is passed over.** -/
theorem Filler.scan_append {filler : List Char} (h : Filler filler) (cs : List Char) (pos : Pos) :
    scan pos (filler ++ cs) = scan (pos.advance filler) cs := by
  induction h generalizing cs pos with
  | blanks _ hall => exact scan_blanks hall cs pos
  | @comment before body _ hbody ih =>
    have hcut : Cut (.comment ('/' :: '/' :: body)) ('\n' :: cs) :=
      .comment hbody (by rintro c ⟨⟩; decide)
    have hcomment := scan_skip hcut trivial (pos.advance before)
    have hblank : isBlank '\n' = true := by decide
    rw [scan_blank hblank] at hcomment
    rw [List.append_assoc, ih]
    simpa [Piece.text, Pos.advance_append] using hcomment
  | append _ _ ihc ihd => rw [List.append_assoc, ihc, ihd, Pos.advance_append]

theorem Margin.scan_append {margin : List Char} (h : Margin margin) (cs : List Char) (pos : Pos) :
    scan pos (margin ++ cs) = scan (pos.advance margin) cs := by
  rcases h with rfl | h
  · rfl
  · exact h.scan_append cs pos

/-- The kind and the lexeme of a token, wherever it stands. -/
def Token.word (t : Token) : TokenKind × String :=
  (t.kind, t.lexeme)

/-- Tokens with these kinds and lexemes, and the end of the text behind them. -/
def Spells (words : List (TokenKind × String)) (result : Except Failure (List Token)) : Prop :=
  ∃ tokens, result = .ok tokens ∧ tokens.map Token.word = words ++ [(.endOfText, "")]

theorem Token.Written.spells {t : Token} {text rest : List Char}
    {words : List (TokenKind × String)} (h : t.Written text) (hrest : BlankNext rest)
    (hwords : ∀ pos, Spells words (scan pos rest)) (pos : Pos) :
    Spells (t.word :: words) (scan pos (text ++ rest)) := by
  obtain ⟨piece, rfl, hd, hcut⟩ := h.exists_piece
  obtain ⟨tokens, htokens, hmap⟩ := hwords (pos.advance piece.text)
  refine ⟨⟨t.kind, t.lexeme, pos⟩ :: tokens, ?_, congrArg (t.word :: ·) hmap⟩
  rw [scan_token (hcut rest hrest) hd, htokens, Outcome.map_ok]

/-- **Printed tokens are scanned**, wherever the text begins. -/
theorem Printed.spells {tokens : List Token} {cs : List Char} (h : Printed tokens cs) (pos : Pos) :
    Spells (tokens.map Token.word) (scan pos cs) := by
  have hend : ∀ pos, Spells [] (scan pos []) := fun pos => ⟨_, scan.eq_1 pos, rfl⟩
  induction h generalizing pos with
  | nil => exact hend pos
  | @last t text margin ht hm =>
    refine ht.spells ?_ (fun pos => ?_) pos
    · rcases hm with rfl | hm
      · simp [BlankNext]
      · simpa using (hm.blankNext []).2
    · have hscan := hm.scan_append [] pos
      rw [List.append_nil] at hscan
      rw [hscan]
      exact hend _
  | @cons t tokens text filler rest ht hf _ ih =>
    refine ht.spells (hf.blankNext rest).2 (fun pos => ?_) pos
    rw [hf.scan_append]
    exact ih _

/-- **Scanning undoes printing.**  Tokens are printed, names and numerals as they are, strings as
literals and all others as their symbols, with blanks or comments between them, and possibly before
and behind them.  The text has these tokens, with their kinds and lexemes, and the end behind
them. -/
theorem tokenize_printed {tokens : List Token} {lead text : List Char} (hlead : Margin lead)
    (h : Printed tokens text) :
    ∃ found, tokenize (String.ofList (lead ++ text)) = .ok found ∧
      found.map Token.word = tokens.map Token.word ++ [(.endOfText, "")] := by
  have hscan := hlead.scan_append text Pos.start
  rw [tokenize, String.toList_ofList, hscan]
  exact h.spells _

/-- A division of a name by a string and a numeral. -/
def quotient : List Token :=
  [⟨.identifier, "a1", Pos.unknown⟩, ⟨.divide, "/", Pos.unknown⟩,
    ⟨.stringLiteral, "//\n\"", Pos.unknown⟩, ⟨.intLiteral, "07", Pos.unknown⟩]

/-- The tokens in print, with a comment behind the slash that looks like more of them. -/
def quotientText : List Char :=
  "a1 /\t// \"b\" 2\n\"//\\n\\\"\" 07 ".toList

/-- Behind an empty line they are scanned again. -/
theorem tokenize_printed_quotient :
    Margin ['\n'] ∧ Printed quotient quotientText ∧
      ∃ found, tokenize (String.ofList (['\n'] ++ quotientText)) = .ok found ∧
        found.map Token.word = [(.identifier, "a1"), (.divide, "/"), (.stringLiteral, "//\n\""),
          (.intLiteral, "07"), (.endOfText, "")] := by
  have hblank : ∀ c, isBlank c = true → Filler [c] :=
    fun c hc => .blanks (List.cons_ne_nil _ _) (List.forall_mem_singleton.mpr hc)
  have hlead : Margin ['\n'] := .inr (hblank '\n' rfl)
  have hspace : Filler [' '] := hblank ' ' rfl
  have hcomment : Filler (['\t'] ++ '/' :: '/' :: (" \"b\" 2".toList ++ ['\n'])) :=
    .comment (hblank '\t' rfl) (by simp)
  have hname : (⟨.identifier, "a1", Pos.unknown⟩ : Token).Written "a1".toList :=
    .name Pos.unknown ⟨'a', ['1'], rfl, rfl, List.forall_mem_singleton.mpr rfl⟩
  have hslash : (⟨.divide, "/", Pos.unknown⟩ : Token).Written ['/'] := by
    rw [show "/" = String.singleton '/' by decide]
    exact .symbol Pos.unknown rfl
  have hnumber : (⟨.intLiteral, "07", Pos.unknown⟩ : Token).Written "07".toList :=
    .number Pos.unknown (by simp)
      (List.forall_mem_cons.mpr ⟨rfl, List.forall_mem_singleton.mpr rfl⟩)
  have hparts := Printed.cons hname hspace (.cons hslash hcomment
    (.cons (.string "//\n\"" Pos.unknown) hspace (.last hnumber (.inr hspace))))
  have htext : quotientText = "a1".toList ++ ([' '] ++ (['/'] ++
      (['\t'] ++ '/' :: '/' :: (" \"b\" 2".toList ++ ['\n']) ++
        ((Quoted.quote "//\n\"").toList ++ ([' '] ++ ("07".toList ++ [' '])))))) := by
    decide
  have hprinted : Printed quotient quotientText := by
    rw [htext]
    exact hparts
  exact ⟨hlead, hprinted, tokenize_printed hlead hprinted⟩

end Risclet
