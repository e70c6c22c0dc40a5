import Mathlib.Data.List.Forall2
import Risclet.Proofs.Assembly.Halves
import Risclet.Proofs.Assembly.Reader
import Risclet.Proofs.Text.Quoted

/-! # What the assembler makes of the data section

The assembler goes through the lines from some address on.  For a word it takes four bytes, and for
a string the bytes that it makes of the literal; at a line for alignment it goes on to the next
multiple of four.  Only the number of bytes modulo four is known where the lines are made, and the
size of a string is counted on its literal, in which escapes stand for single bytes.

The count is right for every text (`byteCount_quote`), because the assembler makes of the literal
the bytes of the text (`literalBytes_quote`).  So from an aligned address on every variable has its
own bytes, in the order of the table, integers are aligned, and no line for alignment is missing or
superfluous (`data_placement`).
-/
namespace Risclet

/-! ## The bytes of a literal -/

namespace Text
namespace Quoted

/-- The byte that a backslash and `c` stand for. -/
def escapeByte (c : Char) : UInt8 :=
  ((escape? c).getD c).toNat.toUInt8

/-- The bytes of characters between quotes: one for a backslash and the character behind it, and
those of its encoding for any other character. -/
def bodyBytes : List Char → List UInt8
  | [] => []
  | '\\' :: c :: rest => escapeByte c :: bodyBytes rest
  | c :: rest => String.utf8EncodeChar c ++ bodyBytes rest

/-- The bytes of a literal. -/
def literalBytes (literal : String) : List UInt8 :=
  bodyBytes (literal.toList.drop 1).dropLast

theorem bodyBytes_plain {c : Char} (hc : c ≠ '\\') (rest : List Char) :
    bodyBytes (c :: rest) = String.utf8EncodeChar c ++ bodyBytes rest := by
  rw [bodyBytes.eq_def]
  split
  · next h => cases h
  · next h => exact absurd (List.cons.inj h).1 hc
  · next h => obtain ⟨rfl, rfl⟩ := List.cons.inj h; rfl

theorem bodyByteCount_plain {c : Char} (hc : c ≠ '\\') (rest : List Char) :
    bodyByteCount (c :: rest) = c.utf8Size + bodyByteCount rest := by
  rw [bodyByteCount.eq_def]
  split
  · next h => cases h
  · next h => exact absurd (List.cons.inj h).1 hc
  · next h => exact absurd (List.cons.inj h).1 hc
  · next h => obtain ⟨rfl, rfl⟩ := List.cons.inj h; rfl

/-- An escape stands for one byte, and it holds no line feed. -/
theorem escapeByte_of_mem {c d : Char} (h : (c, d) ∈ escapes) :
    c ≠ '\n' ∧ String.utf8EncodeChar d = [escapeByte c] := by
  have hall : ∀ p ∈ escapes, p.1 ≠ '\n' ∧ String.utf8EncodeChar p.2 = [escapeByte p.1] := by decide
  exact hall (c, d) h

/-- **What is written for a text has the bytes of the text**, and they are counted right. -/
theorem bodyBytes_encode (cs : List Char) :
    bodyBytes (encode cs) = cs.flatMap String.utf8EncodeChar ∧
      bodyByteCount (encode cs) = (cs.flatMap String.utf8EncodeChar).length := by
  induction cs with
  | nil => exact ⟨rfl, rfl⟩
  | cons c cs ih =>
    obtain ⟨hbytes, hcount⟩ := ih
    rw [encode_cons, List.flatMap_cons, List.length_append]
    rcases encodeChar_cases c with ⟨-, hc, -, -, he⟩ | ⟨d, hmem, he⟩
    · rw [he, List.singleton_append, bodyBytes_plain hc, bodyByteCount_plain hc, hbytes, hcount,
        String.length_utf8EncodeChar]
      exact ⟨rfl, rfl⟩
    · obtain ⟨hd, hbyte⟩ := escapeByte_of_mem hmem
      rw [he, hbyte]
      constructor
      · simp [bodyBytes, hbytes]
      · simp [bodyByteCount, hd, hcount]

/-- The assembler makes of a literal the text that was quoted. -/
theorem literalBytes_quote (s : String) : (literalBytes (quote s)).toByteArray = s.toUTF8 := by
  have hchars : literalBytes (quote s) = s.toList.flatMap String.utf8EncodeChar := by
    rw [literalBytes, drop_dropLast_quote, (bodyBytes_encode _).1]
  calc (literalBytes (quote s)).toByteArray
      = s.toList.utf8Encode := by rw [hchars]; rfl
    _ = (String.ofList s.toList).toByteArray := String.toByteArray_ofList.symm
    _ = s.toUTF8 := by rw [String.ofList_toList]; rfl

theorem length_literalBytes_quote (s : String) :
    (literalBytes (quote s)).length = s.utf8ByteSize := by
  rw [← List.size_toByteArray, literalBytes_quote]
  rfl

/-- **Bytes are counted right on a literal.** -/
theorem byteCount_quote (s : String) : byteCount (quote s) = s.utf8ByteSize := by
  rw [← length_literalBytes_quote, byteCount, literalBytes, drop_dropLast_quote,
    (bodyBytes_encode _).1, (bodyBytes_encode _).2]

end Quoted
end Text

namespace Assembly

/-! ## The lines from an address on -/

/-- The address behind a line that is assembled at `address`. -/
def DataLine.next (address : Nat) : DataLine → Nat
  | align => (address + (wordSize - 1)) / wordSize * wordSize
  | word _ _ => address + wordSize
  | ascii _ literal => address + (Text.Quoted.literalBytes literal).length

/-- The address behind lines that are assembled from `address` on. -/
def addressAfter (address : Nat) (lines : List DataLine) : Nat :=
  lines.foldl DataLine.next address

/-- The lines with the addresses of their bytes, where the first is at `address`. -/
def assembledFrom (address : Nat) : List DataLine → List Extent
  | [] => []
  | line :: rest => ⟨line, address, line.next address⟩ :: assembledFrom (line.next address) rest

/-- What the assembler makes of lines of text, where the first is at `address`: the lines as they
are read, with the addresses of their bytes.  There is nothing if some text is no line of data. -/
def assembleText (address : Nat) : List String → Option (List Extent)
  | [] => some []
  | text :: texts => do
    let line ← DataLine.read text
    let others ← assembleText (line.next address) texts
    return ⟨line, address, line.next address⟩ :: others

/-- Lines without the line for alignment at their end, if there is one. -/
def withoutPadding (lines : List DataLine) : List DataLine :=
  if lines.getLast? = some .align then lines.dropLast else lines

/-- Lines end in a line for alignment exactly if the address would not be a multiple of `wordSize`
without it. -/
def PaddedAtNeed (address : Nat) (lines : List DataLine) : Prop :=
  lines.getLast? = some .align ↔ addressAfter address (withoutPadding lines) % wordSize ≠ 0

/-- The bytes that belong to a variable: an aligned word for an integer, and for a string as many as
its text has. -/
structure Owns (entry : String × Lower.Slot) (e : Extent) : Prop where
  label : e.line.label? = some entry.1
  word : entry.2.type = .int32 → e.start % wordSize = 0 ∧ e.stop = e.start + wordSize
  string : ∀ s, entry.2 = ⟨.string, Text.Quoted.quote s⟩ → e.stop = e.start + s.utf8ByteSize

section Lines
variable {address : Nat} {lines rest : List DataLine} {line : DataLine}

@[simp] theorem addressAfter_nil (address : Nat) : addressAfter address [] = address := rfl

theorem addressAfter_append (address : Nat) (first rest : List DataLine) :
    addressAfter address (first ++ rest) = addressAfter (addressAfter address first) rest :=
  List.foldl_append

/-- Where the sizes of literals are counted right, lines are assembled as they are laid out. -/
theorem assembledFrom_eq_layoutFrom
    (h : ∀ line ∈ lines, ∀ address, line.next address = line.stop address) (address : Nat) :
    assembledFrom address lines = layoutFrom address lines := by
  induction lines generalizing address with
  | nil => rfl
  | cons line rest ih =>
    obtain ⟨hline, hrest⟩ := List.forall_mem_cons.mp h
    rw [assembledFrom, layoutFrom, hline, ih hrest]

/-- **The texts of lines are assembled as the lines are**, if each is read back. -/
theorem assembleText_map (h : ∀ line ∈ lines, DataLine.read line.text = some line)
    (address : Nat) :
    assembleText address (lines.map DataLine.text) = some (assembledFrom address lines) := by
  induction lines generalizing address with
  | nil => rfl
  | cons line rest ih =>
    obtain ⟨hline, hrest⟩ := List.forall_mem_cons.mp h
    rw [List.map_cons, assembleText, hline, Option.bind_eq_bind, Option.bind_some, ih hrest]
    rfl

/-- Only the lines behind a line that is not for alignment matter for the padding at the end. -/
theorem PaddedAtNeed.append (first : List DataLine) (hfirst : first.getLast? = some line)
    (hline : line ≠ .align) (h : PaddedAtNeed (addressAfter address first) rest) :
    PaddedAtNeed address (first ++ rest) := by
  by_cases hrest : rest = []
  · subst hrest
    simpa [PaddedAtNeed, withoutPadding, hfirst, hline] using h
  · have hlast : (first ++ rest).getLast? = rest.getLast? := by
      rw [List.getLast?_append, List.getLast?_eq_getLast_of_ne_nil hrest, Option.some_or]
    have hwithout : withoutPadding (first ++ rest) = first ++ withoutPadding rest := by
      unfold withoutPadding
      rw [hlast]
      split
      · exact List.dropLast_append_of_ne_nil hrest
      · rfl
    rw [PaddedAtNeed, hlast, hwithout, addressAfter_append]
    exact h

end Lines

/-! ## The lines of slots -/

section Slots
variable {offset address : Nat} {entries : List (String × Lower.Slot)} {lines : List DataLine}

/-- The size of a string is counted as the assembler sees it. -/
theorem Placeable.length_eq {literal : String} (h : Placeable ⟨.string, literal⟩) :
    (Text.Quoted.literalBytes literal).length = Text.Quoted.byteCount literal := by
  rcases h with ⟨⟨⟩⟩ | ⟨s, ⟨⟩⟩
  rw [Text.Quoted.length_literalBytes_quote, Text.Quoted.byteCount_quote]

/-! What is known of the address is right behind each line. -/

theorem next_align_mod (address : Nat) : DataLine.next address .align % wordSize = 0 := by
  simp only [DataLine.next, wordSize]
  omega

theorem next_word_mod (ha : address % wordSize = 0) (name value : String) :
    DataLine.next address (.word name value) % wordSize = 0 := by
  simp only [DataLine.next, wordSize] at ha ⊢
  omega

theorem Placeable.next_mod {literal : String} (h : Placeable ⟨.string, literal⟩)
    (ha : address % wordSize = offset) (name : String) :
    DataLine.next address (.ascii name literal) % wordSize =
      (offset + Text.Quoted.byteCount literal) % wordSize := by
  simp only [DataLine.next, h.length_eq, wordSize] at ha ⊢
  omega

theorem Laid.next_eq_stop (h : Laid offset entries lines) (hp : ∀ e ∈ entries, Placeable e.2) :
    ∀ line ∈ lines, ∀ address, line.next address = line.stop address := by
  induction h with
  | nil => simp
  | word _ ih | padded _ _ ih =>
    have hrest := ih (List.forall_mem_cons.mp hp).2
    simpa [DataLine.next, DataLine.stop] using hrest
  | ascii _ ih =>
    obtain ⟨hfirst, hrest⟩ := List.forall_mem_cons.mp hp
    refine List.forall_mem_cons.mpr ⟨fun address => ?_, ih hrest⟩
    rw [DataLine.next, DataLine.stop, hfirst.length_eq]

/-- **Every slot owns the bytes at its label**, if what is known of the address is right. -/
theorem Laid.owns (h : Laid offset entries lines) (hp : ∀ e ∈ entries, Placeable e.2)
    (ha : address % wordSize = offset) :
    List.Forall₂ Owns entries
      ((assembledFrom address lines).filter (fun e => e.line.label?.isSome)) := by
  induction h generalizing address with
  | nil => exact .nil
  | @word name value rest lines _ ih =>
    have hrest := ih (List.forall_mem_cons.mp hp).2 (next_word_mod ha name value)
    exact .cons ⟨rfl, fun _ => ⟨ha, rfl⟩, by simp⟩ hrest
  | @padded offset name value rest lines _ _ ih =>
    -- The line for alignment has no label.
    have halign := next_align_mod address
    have hrest := ih (List.forall_mem_cons.mp hp).2 (next_word_mod halign name value)
    exact .cons ⟨rfl, fun _ => ⟨halign, rfl⟩, by simp⟩ hrest
  | @ascii offset name literal rest lines _ ih =>
    obtain ⟨hfirst, hothers⟩ := List.forall_mem_cons.mp hp
    refine .cons ⟨rfl, by simp, ?_⟩ (ih hothers (hfirst.next_mod ha name))
    rintro s ⟨⟩
    simp only [DataLine.next, Text.Quoted.length_literalBytes_quote]

/-- **A line for alignment stands before a word exactly if it has to.** -/
theorem Laid.paddedAtNeed (h : Laid offset entries lines) (hp : ∀ e ∈ entries, Placeable e.2)
    (ha : address % wordSize = offset) {before behind : List DataLine} {name value : String}
    (he : lines = before ++ .word name value :: behind) : PaddedAtNeed address before := by
  induction h generalizing address before with
  | nil => simp at he
  | @word key text rest lines _ ih =>
    rcases List.cons_eq_append_iff.mp he with ⟨rfl, -⟩ | ⟨before, rfl, rfl⟩
    · simp [PaddedAtNeed, withoutPadding, ha]
    · refine PaddedAtNeed.append [.word key text] rfl (by simp) ?_
      exact ih (List.forall_mem_cons.mp hp).2 (next_word_mod ha key text) rfl
  | @padded offset key text rest lines hne _ ih =>
    rcases List.cons_eq_append_iff.mp he with ⟨-, htail⟩ | ⟨before, rfl, htail⟩
    · simp at htail
    rcases List.cons_eq_append_iff.mp htail with ⟨rfl, -⟩ | ⟨before, rfl, rfl⟩
    · -- The address in front of the padding is the one that is not a multiple.
      simpa [PaddedAtNeed, withoutPadding, ha] using hne
    · refine PaddedAtNeed.append [.align, .word key text] rfl (by simp) ?_
      exact ih (List.forall_mem_cons.mp hp).2 (next_word_mod (next_align_mod address) key text) rfl
  | @ascii offset key literal rest lines _ ih =>
    obtain ⟨hfirst, hothers⟩ := List.forall_mem_cons.mp hp
    rcases List.cons_eq_append_iff.mp he with ⟨-, he⟩ | ⟨before, rfl, rfl⟩
    · simp at he
    · refine PaddedAtNeed.append [.ascii key literal] rfl (by simp) ?_
      exact ih hothers (hfirst.next_mod ha key) rfl

/-- A line for alignment stands before words only. -/
theorem Laid.word_behind_align (h : Laid offset entries lines) {before behind : List DataLine}
    (he : lines = before ++ .align :: behind) :
    ∃ name value rest, behind = .word name value :: rest := by
  induction h generalizing before with
  | nil => simp at he
  | word _ ih | ascii _ ih =>
    rcases List.cons_eq_append_iff.mp he with ⟨-, he⟩ | ⟨before, -, he⟩
    · simp at he
    · exact ih he
  | padded _ _ ih =>
    rcases List.cons_eq_append_iff.mp he with ⟨-, he⟩ | ⟨before, -, he⟩
    · exact ⟨_, _, _, (List.cons.inj he).2⟩
    rcases List.cons_eq_append_iff.mp he with ⟨-, he⟩ | ⟨before, -, he⟩
    · simp at he
    · exact ih he

end Slots

/-- **The data section is aligned, exact and minimal.**  Slots of integers and of quoted texts have
a data section.  Assembled from a multiple of four on, its labels are those of the slots in order,
and each owns its bytes: an integer an aligned word, a text as many bytes as it has in UTF-8, no
byte belonging to two lines.  A line for alignment stands before a word exactly if the address would
not be a multiple of four without it, and nowhere else.  The assembler makes of a literal the bytes
of its text, and their number is what `byteCount` says.  If there is no colon in a label, all this
is what the assembler makes of the texts of the lines. -/
theorem data_placement {slots : Table Lower.Slot} (hslots : ∀ e ∈ slots.entries, Placeable e.2)
    {base : Nat} (hbase : base % 4 = 0) :
    ∃ data, dataSection slots = .ok data ∧
      List.Forall₂ Owns slots.entries
        ((assembledFrom base data).filter (fun e => e.line.label?.isSome)) ∧
      (assembledFrom base data).Pairwise (fun e later => e.stop ≤ later.start) ∧
      (∀ before name value behind, data = before ++ .word name value :: behind →
        PaddedAtNeed base before) ∧
      (∀ before behind, data = before ++ .align :: behind →
        ∃ name value rest, behind = .word name value :: rest) ∧
      (∀ s, (Text.Quoted.literalBytes (Text.Quoted.quote s)).toByteArray = s.toUTF8 ∧
        Text.Quoted.byteCount (Text.Quoted.quote s) = s.utf8ByteSize) ∧
      ((∀ name ∈ slots.keys, ':' ∉ name.toList) →
        assembleText base (data.map DataLine.text) = some (assembledFrom base data)) := by
  obtain ⟨data, hdata⟩ := exists_dataSection fun e he => (hslots e he).storable
  have hlaid := laid_of_dataSection hdata
  refine ⟨data, hdata, hlaid.owns hslots hbase, ?_,
    fun _ _ _ _ he => hlaid.paddedAtNeed hslots hbase he,
    fun _ _ he => hlaid.word_behind_align he,
    fun s => ⟨Text.Quoted.literalBytes_quote s, Text.Quoted.byteCount_quote s⟩,
    fun hkeys => assembleText_map (DataLine.forall_read_text (hlaid.labels_eq ▸ hkeys)) base⟩
  rw [assembledFrom_eq_layoutFrom (hlaid.next_eq_stop hslots)]
  exact layoutFrom_pairwise base data

/-- Three integers, and between them a text of four bytes and one of two, both with escapes. -/
def mixed : Table Lower.Slot :=
  ⟨[("n", ⟨.int32, "5"⟩), ("s", ⟨.string, Text.Quoted.quote "\"é\n"⟩), ("k", ⟨.int32, "-1"⟩),
    ("t", ⟨.string, Text.Quoted.quote "\\\t"⟩), ("m", ⟨.int32, "0"⟩)]⟩

/-- Only the second text is followed by a line for alignment. -/
theorem data_placement_mixed :
    (∀ e ∈ mixed.entries, Placeable e.2) ∧ 8 % 4 = 0 ∧
      ∃ data, dataSection mixed = .ok data ∧
        List.Forall₂ Owns mixed.entries
          ((assembledFrom 8 data).filter (fun e => e.line.label?.isSome)) ∧
        (assembleText 8 (data.map DataLine.text)).map
            (List.map fun e => (e.line.label?, e.start, e.stop)) =
          some [(some "n", 8, 12), (some "s", 12, 16), (some "k", 16, 20), (some "t", 20, 22),
            (none, 22, 24), (some "m", 24, 28)] ∧
        data.map DataLine.text =
          ["n: .word 5", "s: .ascii \"\\\"é\\n\"", "k: .word -1", "t: .ascii \"\\\\\\t\"",
            ".balign 4", "m: .word 0"] := by
  have hslots : ∀ e ∈ mixed.entries, Placeable e.2 := by
    simp [mixed, Placeable]
  obtain ⟨data, hdata, howns, -, -, -, -, htext⟩ := data_placement hslots (show 8 % 4 = 0 from rfl)
  cases hdata
  refine ⟨hslots, rfl, _, rfl, howns, ?_, by decide⟩
  rw [htext (by decide)]
  decide

end Assembly
end Risclet
