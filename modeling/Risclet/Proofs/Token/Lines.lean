import Risclet.Proofs.Token.Printing

/-! # Scanning line by line

A text is put behind one that ends in a line feed, and the whole is scanned.  Where the first text
has been scanned, scanning goes on as if the second stood alone, but further down; and where the
first is at fault, it stays so.

The only piece that can go beyond the seam is a run of blanks.  Every other piece is on one line, so
it ends before the line feed, and whether it ends there is decided by the character behind it
(`nextPiece?_wholeLines`).  A run of blanks may as well be passed over one by one, and then nothing
goes beyond the seam (`scan_append`).  What is left is that scanning from a place further down gives
the same tokens or the same fault further down (`scan_down`), and that the second text begins in the
first column.

Main statement: `tokenize_wholeLines`.
-/
namespace Risclet

open Text

/-- A text of whole lines: it is empty, or it ends in a line feed. -/
def WholeLines (cs : List Char) : Prop :=
  ∀ c ∈ cs.getLast?, c = '\n'

/-! ## Further down -/

/-- The position `n` lines further down. -/
def Pos.down (n : Nat) (p : Pos) : Pos :=
  ⟨p.line + n, p.column⟩

/-- The token `n` lines further down. -/
def Token.down (n : Nat) (t : Token) : Token :=
  { t with pos := t.pos.down n }

/-- The failure `n` lines further down, if it has a position. -/
def Failure.down (n : Nat) : Failure → Failure
  | rejected e => rejected { e with pos := e.pos.down n }
  | defect d => defect d

/-- What scanning gives, `n` lines further down. -/
def scannedDown (n : Nat) (result : Except Failure (List Token)) : Except Failure (List Token) :=
  (result.map (List.map (Token.down n))).mapError (Failure.down n)

namespace Pos

theorem next_down (n : Nat) (p : Pos) (c : Char) : (p.down n).next c = (p.next c).down n := by
  unfold next down
  split
  · simp only [Pos.mk.injEq, and_true]
    omega
  · rfl

theorem advance_down (n : Nat) (p : Pos) (cs : List Char) :
    (p.down n).advance cs = (p.advance cs).down n := by
  induction cs generalizing p with
  | nil => rfl
  | cons c cs ih => rw [advance_cons, advance_cons, next_down, ih]

/-- Behind whole lines a text begins in the first column. -/
theorem behind_wholeLines {cs : List Char} (h : WholeLines cs) :
    behind cs = start.down (cs.count '\n') := by
  rcases cs.eq_nil_or_concat' with rfl | ⟨front, c, rfl⟩
  · rfl
  · obtain rfl : c = '\n' := h c (by simp)
    rw [behind, List.rtakeWhile_concat_neg _ _ _ (by decide)]
    rfl

end Pos

theorem token?_down (n : Nat) (piece : Piece) (pos : Pos) :
    piece.token? (pos.down n) =
      ((piece.token? pos).map (Option.map (Token.down n))).mapError (Failure.down n) := by
  cases piece with
  | string body =>
    simp only [Piece.token?, unescape]
    split <;> rfl
  | _ => rfl

theorem scan_of_none {c : Char} {tail : List Char} (h : nextPiece? (c :: tail) = none) (pos : Pos) :
    scan pos (c :: tail) = .error (.fault (noPieceFault c) pos) := by
  rw [scan]
  split
  · rfl
  · next hsome =>
    rw [h] at hsome
    cases hsome

/-- **Scanning does not depend on the line where it begins.** -/
theorem scan_down (n : Nat) (pos : Pos) (cs : List Char) :
    scan (pos.down n) cs = scannedDown n (scan pos cs) := by
  induction hn : cs.length using Nat.strongRecOn generalizing pos cs with
  | ind _ ih =>
    cases cs with
    | nil =>
      rw [scan, scan]
      rfl
    | cons c tail =>
      cases hp : nextPiece? (c :: tail) with
      | none =>
        rw [scan_of_none hp, scan_of_none hp]
        rfl
      | some found =>
        obtain ⟨piece, rest⟩ := found
        obtain ⟨hcut, htext⟩ := nextPiece?_eq_some.mp hp
        have hrest := ih rest.length (hn ▸ nextPiece?_length hp) (pos.advance piece.text) rest rfl
        rw [← htext, scan_of_cut hcut, scan_of_cut hcut, token?_down, Pos.advance_down, hrest]
        cases piece.token? pos with
        | error f => rfl
        | ok token? =>
          cases scan (pos.advance piece.text) rest with
          | error f => rfl
          | ok tokens => cases token? <;> rfl

/-! ## Pieces do not go beyond the seam -/

/-- Whether a piece ends is decided by the character behind it. -/
theorem Cut.of_head?_eq {piece : Piece} {rest rest' : List Char} (h : Cut piece rest)
    (hhead : rest'.head? = rest.head?) : Cut piece rest' := by
  cases h with
  | blank hne hall hends => exact .blank hne hall (by rwa [Ends, hhead])
  | comment hall hends => exact .comment hall (by rwa [Ends, hhead])
  | string hbody => exact .string hbody
  | number hne hall hends => exact .number hne hall (by rwa [Ends, hhead])
  | name hc hall hends => exact .name hc hall (by rwa [Ends, hhead])
  | symbol hk hslash => exact .symbol hk (by rwa [hhead])

theorem WholeLines.of_append {cs ds : List Char} (h : WholeLines (cs ++ ds)) : WholeLines ds := by
  intro c hc
  apply h c
  rw [List.getLast?_append, Option.mem_def.mp hc]
  rfl

theorem WholeLines.mem_newline {cs : List Char} (h : WholeLines cs) (hne : cs ≠ []) :
    '\n' ∈ cs := by
  obtain ⟨front, c, rfl⟩ := cs.eq_nil_or_concat'.resolve_left hne
  obtain rfl : c = '\n' := h c (by simp)
  simp

/-- A piece that does not begin with a blank is on one line. -/
theorem Cut.ne_newline_of_not_blank {piece : Piece} {rest more : List Char} {c : Char}
    (h : Cut piece rest) (hc : isBlank c = false) (htext : piece.text ++ rest = c :: more) :
    ∀ d ∈ piece.text, d ≠ '\n' := by
  rcases h.blank_or_ne_newline with ⟨text, rfl⟩ | hline
  · cases h with
    | blank hne hall _ =>
      obtain ⟨d, text, rfl⟩ := List.exists_cons_of_ne_nil hne
      obtain rfl : d = c := (List.cons.inj htext).1
      rw [hall d List.mem_cons_self] at hc
      cases hc
  · exact hline

/-- **No piece but a run of blanks goes beyond whole lines.** -/
theorem nextPiece?_wholeLines {c : Char} {tail : List Char} (h : WholeLines (c :: tail))
    (hc : isBlank c = false) (ds : List Char) :
    nextPiece? (c :: tail ++ ds) = (nextPiece? (c :: tail)).map (fun p => (p.1, p.2 ++ ds)) := by
  have hnewline : '\n' ∈ c :: tail := h.mem_newline (List.cons_ne_nil _ _)
  -- What is left of the lines behind such a piece is not empty, and begins the rest.
  have hleft : ∀ {piece : Piece} {left : List Char}, (∀ d ∈ piece.text, d ≠ '\n') →
      piece.text ++ left = c :: tail → (left ++ ds).head? = left.head? := by
    intro piece left hline htext
    have hne : left ≠ [] := by
      rintro rfl
      rw [← htext, List.append_nil] at hnewline
      exact hline _ hnewline rfl
    exact List.head?_append_of_ne_nil _ hne
  cases hp : nextPiece? (c :: tail) with
  | some found =>
    obtain ⟨piece, left⟩ := found
    obtain ⟨hcut, htext⟩ := nextPiece?_eq_some.mp hp
    have hpiece := hcut.ne_newline_of_not_blank hc htext
    refine nextPiece?_eq_some.mpr ⟨hcut.of_head?_eq (hleft hpiece htext), ?_⟩
    rw [← htext, List.append_assoc]
  | none =>
    rw [Option.map_none, Option.eq_none_iff_forall_ne_some]
    rintro ⟨piece, rest⟩ hsome
    obtain ⟨hcut, htext⟩ := nextPiece?_eq_some.mp hsome
    have hpiece := hcut.ne_newline_of_not_blank hc htext
    rcases List.append_eq_append_iff.mp htext with ⟨left, hlines, rfl⟩ | ⟨beyond, htext, -⟩
    · have hown := hcut.of_head?_eq (hleft hpiece hlines.symm).symm
      rw [nextPiece?_eq_some.mpr ⟨hown, hlines.symm⟩] at hp
      cases hp
    · rw [htext] at hpiece
      exact hpiece _ (List.mem_append_left _ hnewline) rfl

/-! ## Scanning -/

/-- The last token is that of the end, behind the text. -/
theorem scan_endOfText {pos : Pos} {cs : List Char} {tokens : List Token}
    (h : scan pos cs = .ok tokens) :
    ∃ front, tokens = front ++ [⟨.endOfText, "", pos.advance cs⟩] := by
  induction hn : cs.length using Nat.strongRecOn generalizing pos cs tokens with
  | ind _ ih =>
    rw [scan.eq_def] at h
    split at h
    · cases h
      exact ⟨[], rfl⟩
    · split at h
      · cases h
      · next piece rest hp =>
        obtain ⟨token?, -, h⟩ := Outcome.bind_eq_ok.mp h
        obtain ⟨more, hmore, h⟩ := Outcome.bind_eq_ok.mp h
        cases h
        obtain ⟨front, rfl⟩ := ih _ (hn ▸ nextPiece?_length hp) hmore rfl
        refine ⟨token?.toList ++ front, ?_⟩
        rw [← nextPiece?_append hp, Pos.advance_append, List.append_assoc,
          (nextPiece?_eq_some.mp hp).1.after_eq_advance]

/-- **Behind whole lines scanning begins afresh.** -/
theorem scan_append {cs : List Char} (h : WholeLines cs) (ds : List Char) (pos : Pos) :
    scan pos (cs ++ ds) = (do
      let tokens ← scan pos cs
      let more ← scan (pos.advance cs) ds
      return tokens.dropLast ++ more) := by
  induction hn : cs.length using Nat.strongRecOn generalizing cs pos with
  | ind _ ih =>
    cases cs with
    | nil =>
      rw [scan.eq_1 pos, List.nil_append, Pos.advance_nil]
      cases scan pos ds <;> rfl
    | cons c tail =>
      by_cases hc : isBlank c = true
      · rw [List.cons_append, scan_blank hc, scan_blank hc, Pos.advance_cons]
        have htail : WholeLines tail := WholeLines.of_append (show WholeLines ([c] ++ tail) from h)
        exact ih tail.length (by simp [← hn]) htail _ rfl
      · have hpiece := nextPiece?_wholeLines h (by simpa using hc) ds
        cases hp : nextPiece? (c :: tail) with
        | none =>
          rw [hp, Option.map_none, List.cons_append] at hpiece
          rw [List.cons_append, scan_of_none hpiece, scan_of_none hp]
          rfl
        | some found =>
          obtain ⟨piece, rest⟩ := found
          rw [hp] at hpiece
          obtain ⟨hcut, htext⟩ := nextPiece?_eq_some.mp hp
          obtain ⟨hcutAll, -⟩ := nextPiece?_eq_some.mp hpiece
          rw [← htext] at h
          have hrest := ih rest.length (hn ▸ nextPiece?_length hp) h.of_append
            (pos.advance piece.text) rfl
          rw [← htext, List.append_assoc, scan_of_cut hcutAll, scan_of_cut hcut, hrest,
            Pos.advance_append]
          cases piece.token? pos with
          | error f => rfl
          | ok token? =>
            cases hscan : scan (pos.advance piece.text) rest with
            | error f => rfl
            | ok tokens =>
              cases scan ((pos.advance piece.text).advance rest) ds with
              | error f => rfl
              | ok more =>
                obtain ⟨front, rfl⟩ := scan_endOfText hscan
                simp [← List.append_assoc]

/-- **Scanning is compositional at line ends.**  A text is put behind whole lines.  If these are at
fault, the whole is at fault in the same way at the same place.  If not, the whole has their tokens
without the end, and behind them those of the text, each as many lines further down as the lines
count; and if the text is at fault, so is the whole, in the same way and as far down. -/
theorem tokenize_wholeLines {lines : String} (h : WholeLines lines.toList) (text : String) :
    (∀ f, tokenize lines = .error f → tokenize (lines ++ text) = .error f) ∧
      ∀ tokens, tokenize lines = .ok tokens → ∃ front,
        tokens = front ++ [⟨.endOfText, "", Pos.behind lines.toList⟩] ∧
        tokenize (lines ++ text) =
          ((tokenize text).map fun more =>
            front ++ more.map (Token.down (lines.toList.count '\n'))).mapError
              (Failure.down (lines.toList.count '\n')) := by
  have hbehind : Pos.start.advance lines.toList = Pos.behind lines.toList :=
    Pos.advance_behind [] lines.toList
  have hscan := scan_append h text.toList Pos.start
  rw [hbehind, Pos.behind_wholeLines h, scan_down] at hscan
  simp only [tokenize, String.toList_append, hscan]
  refine ⟨fun f hf => by rw [hf, Outcome.bind_error], fun tokens htokens => ?_⟩
  obtain ⟨front, rfl⟩ := scan_endOfText htokens
  refine ⟨front, by rw [hbehind], ?_⟩
  rw [htokens, scannedDown]
  cases scan Pos.start text.toList <;> simp

/-- A line with a comment that looks like the beginning of a string, and a line of blanks. -/
def seamLines : String := "n // \"\n\t\n"

/-- Texts whose first blanks go on with these lines: one has a token, the other is at fault. -/
theorem tokenize_wholeLines_seam :
    WholeLines seamLines.toList ∧
      tokenize (seamLines ++ " \n n") = .ok [⟨.identifier, "n", ⟨1, 1⟩⟩,
        ⟨.identifier, "n", ⟨4, 2⟩⟩, ⟨.endOfText, "", ⟨4, 3⟩⟩] ∧
      tokenize (seamLines ++ " \n \"") = .error (.fault .unterminatedString ⟨4, 2⟩) := by
  have hlines : WholeLines seamLines.toList := by
    intro c hc
    simpa [seamLines, eq_comm] using hc
  have hfirst : tokenize seamLines =
      .ok [⟨.identifier, "n", ⟨1, 1⟩⟩, ⟨.endOfText, "", ⟨3, 1⟩⟩] := by
    cbv
  have hsecond : tokenize " \n n" =
      .ok [⟨.identifier, "n", ⟨2, 2⟩⟩, ⟨.endOfText, "", ⟨2, 3⟩⟩] := by
    decide +kernel
  have hfault : tokenize " \n \"" = .error (.fault .unterminatedString ⟨2, 2⟩) := by
    decide +kernel
  refine ⟨hlines, ?_, ?_⟩
  · obtain ⟨front, htokens, hwhole⟩ := (tokenize_wholeLines hlines " \n n").2 _ hfirst
    have hfront := congrArg List.dropLast htokens
    rw [List.dropLast_concat] at hfront
    rw [hwhole, hsecond, ← hfront]
    decide
  · obtain ⟨front, -, hwhole⟩ := (tokenize_wholeLines hlines " \n \"").2 _ hfirst
    rw [hwhole, hfault]
    rfl

end Risclet
