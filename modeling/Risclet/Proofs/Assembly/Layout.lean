import Risclet.Assembly.Data
import Risclet.Proofs.Outcome
import Risclet.Proofs.Table

/-! # The layout of the data section

The lines of the data section lie in memory one after the other.  A word takes four bytes and a
string the bytes of its literal, which may be none at all; a line for alignment goes on to the next
multiple of four.  `layout` gives the bytes of every line, counted from the beginning of the
section, which is itself at a multiple of four.

No two lines have a byte in common (`layoutFrom_pairwise`), and words are aligned
(`Laid.aligned`).  So the four bytes at the label of an integer variable are a word of its own, and
those at the label of a string variable are not (`ownWord_iff`).
-/
namespace Risclet
namespace Assembly

/-- The label of a line. -/
def DataLine.label? : DataLine → Option String
  | align => none
  | word name _ | ascii name _ => some name

/-- Where a line stops that starts at a given byte. -/
def DataLine.stop (start : Nat) : DataLine → Nat
  | align => (start + (wordSize - 1)) / wordSize * wordSize
  | word _ _ => start + wordSize
  | ascii _ literal => start + Text.Quoted.byteCount literal

/-- A line and its bytes: those from `start` on, up to and without `stop`. -/
structure Extent where
  line : DataLine
  start : Nat
  stop : Nat
deriving DecidableEq, Repr

/-- The lines with their bytes, where `start` bytes precede them. -/
def layoutFrom (start : Nat) : List DataLine → List Extent
  | [] => []
  | line :: rest => ⟨line, start, line.stop start⟩ :: layoutFrom (line.stop start) rest

/-- The lines of a data section with their bytes. -/
def layout (data : List DataLine) : List Extent :=
  layoutFrom 0 data

/-- The four bytes at a label are an aligned word that belongs to the label: all other lines have
other labels, and they stop before the word or start behind it. -/
def OwnWord (data : List DataLine) (name : String) : Prop :=
  ∃ before value start behind,
    layout data = before ++ ⟨.word name value, start, start + wordSize⟩ :: behind ∧
    start % wordSize = 0 ∧
    (∀ e ∈ before, e.line.label? ≠ some name ∧ e.stop ≤ start) ∧
    ∀ e ∈ behind, e.line.label? ≠ some name ∧ start + wordSize ≤ e.start

/-! ## Lines one after the other -/

section Lines
variable {start : Nat} {lines : List DataLine} {e : Extent}

theorem DataLine.le_stop (line : DataLine) (start : Nat) : start ≤ line.stop start := by
  cases line with
  | align => simp only [stop, wordSize]; omega
  | word name value => exact Nat.le_add_right _ _
  | ascii name literal => exact Nat.le_add_right _ _

theorem map_line_layoutFrom (start : Nat) (lines : List DataLine) :
    (layoutFrom start lines).map Extent.line = lines := by
  induction lines generalizing start with
  | nil => rfl
  | cons line rest ih => rw [layoutFrom, List.map_cons, ih]

theorem stop_of_mem_layoutFrom (h : e ∈ layoutFrom start lines) :
    e.stop = e.line.stop e.start := by
  induction lines generalizing start with
  | nil => cases h
  | cons line rest ih =>
    rcases List.mem_cons.mp h with rfl | h
    · rfl
    · exact ih h

theorem le_start_of_mem_layoutFrom (h : e ∈ layoutFrom start lines) : start ≤ e.start := by
  induction lines generalizing start with
  | nil => cases h
  | cons line rest ih =>
    rcases List.mem_cons.mp h with rfl | h
    · exact Nat.le_refl start
    · have hrest := ih h
      have hline := line.le_stop start
      omega

/-- **Lines have no byte in common.** -/
theorem layoutFrom_pairwise (start : Nat) (lines : List DataLine) :
    (layoutFrom start lines).Pairwise (fun e later => e.stop ≤ later.start) := by
  induction lines generalizing start with
  | nil => exact .nil
  | cons line rest ih =>
    exact .cons (fun e he => le_start_of_mem_layoutFrom he) (ih _)

end Lines

/-! ## The lines of slots -/

/-- The lines of slots, where `offset` is the number of bytes before them modulo `wordSize`. -/
inductive Laid : Nat → List (String × Lower.Slot) → List DataLine → Prop where
  | nil {offset : Nat} : Laid offset [] []
  | word {name value : String} {rest : List (String × Lower.Slot)} {lines : List DataLine} :
      Laid 0 rest lines → Laid 0 ((name, ⟨.int32, value⟩) :: rest) (.word name value :: lines)
  | padded {offset : Nat} {name value : String} {rest : List (String × Lower.Slot)}
      {lines : List DataLine} : offset ≠ 0 → Laid 0 rest lines →
      Laid offset ((name, ⟨.int32, value⟩) :: rest) (.align :: .word name value :: lines)
  | ascii {offset : Nat} {name literal : String} {rest : List (String × Lower.Slot)}
      {lines : List DataLine} :
      Laid ((offset + Text.Quoted.byteCount literal) % wordSize) rest lines →
      Laid offset ((name, ⟨.string, literal⟩) :: rest) (.ascii name literal :: lines)

section Slots
variable {offset : Nat} {entries : List (String × Lower.Slot)} {lines : List DataLine}

/-- Where sizes are counted as `byteCount` does, lines are laid out. -/
theorem laid_of_dataFrom {ε : Type} {reject : Error → ε} {measure : String → Except ε Nat}
    (hm : ∀ literal size, measure literal = .ok size → size = Text.Quoted.byteCount literal)
    (h : dataFrom reject measure offset entries = .ok lines) : Laid offset entries lines := by
  induction entries generalizing offset lines with
  | nil => cases h; exact .nil
  | cons e rest ih =>
    obtain ⟨name, type, initial⟩ := e
    cases type with
    | int32 =>
      obtain ⟨others, ho, rfl⟩ := Outcome.map_eq_ok.mp h
      by_cases hz : offset = 0
      · subst hz
        exact .word (ih ho)
      · simp only [hz, if_false]
        exact .padded hz (ih ho)
    | string =>
      obtain ⟨size, hs, h⟩ := Outcome.bind_eq_ok.mp h
      obtain rfl := hm _ _ hs
      obtain ⟨others, ho, rfl⟩ := Outcome.map_eq_ok.mp h
      exact .ascii (ih ho)
    | foreign text => cases h

theorem laid_of_dataSection {slots : Table Lower.Slot} (h : dataSection slots = .ok lines) :
    Laid 0 slots.entries lines :=
  laid_of_dataFrom (fun _ _ hs => (Except.ok.inj hs).symm) h

theorem Laid.labels_eq (h : Laid offset entries lines) :
    lines.filterMap DataLine.label? = entries.map Prod.fst := by
  induction h with
  | nil => rfl
  | word _ ih | padded _ _ ih | ascii _ ih =>
    simpa [List.filterMap_cons, DataLine.label?] using ih

theorem Laid.mem_word (h : Laid offset entries lines) {name value : String} :
    .word name value ∈ lines ↔ (name, ⟨.int32, value⟩) ∈ entries := by
  induction h with
  | nil => simp
  | _ => simp_all

theorem Laid.mem_ascii (h : Laid offset entries lines) {name literal : String} :
    .ascii name literal ∈ lines ↔ (name, ⟨.string, literal⟩) ∈ entries := by
  induction h with
  | nil => simp
  | _ => simp_all

/-- **Words are aligned.** -/
theorem Laid.aligned (h : Laid offset entries lines) {start : Nat}
    (hstart : start % wordSize = offset) {e : Extent} (he : e ∈ layoutFrom start lines)
    {name value : String} (hline : e.line = .word name value) : e.start % wordSize = 0 := by
  induction h generalizing start with
  | nil => cases he
  | word _ ih =>
    rcases List.mem_cons.mp he with rfl | he
    · exact hstart
    · exact ih (by simp only [DataLine.stop, wordSize] at *; omega) he
  | padded _ _ ih =>
    rcases List.mem_cons.mp he with rfl | he
    · cases hline
    · have halign : DataLine.stop start .align % wordSize = 0 := by
        simp only [DataLine.stop, wordSize]
        omega
      rcases List.mem_cons.mp he with rfl | he
      · exact halign
      · exact ih (by simp only [DataLine.stop, wordSize] at *; omega) he
  | ascii _ ih =>
    rcases List.mem_cons.mp he with rfl | he
    · cases hline
    · exact ih (by simp only [DataLine.stop, wordSize] at *; omega) he

end Slots

/-! ## Words -/

/-- Different lines have different labels, if the names of the slots are different. -/
theorem Laid.labels_pairwise {offset : Nat} {entries : List (String × Lower.Slot)}
    {lines : List DataLine} (h : Laid offset entries lines) (hn : (entries.map Prod.fst).Nodup)
    (start : Nat) : (layoutFrom start lines).Pairwise (fun e later => ∀ a, e.line.label? = some a →
      ∀ b, later.line.label? = some b → a ≠ b) := by
  rw [← h.labels_eq, ← map_line_layoutFrom start lines, List.filterMap_map] at hn
  exact List.pairwise_filterMap.mp hn

/-- **Integer variables have words of their own, and no other variables do.** -/
theorem ownWord_iff {slots : Table Lower.Slot} {data : List DataLine}
    (h : dataSection slots = .ok data) (hkeys : slots.keys.Nodup) {name : String} :
    OwnWord data name ↔ ∃ value, slots.get? name = some ⟨.int32, value⟩ := by
  have hlaid := laid_of_dataSection h
  have hlines : (layout data).map Extent.line = data := map_line_layoutFrom 0 data
  constructor
  · rintro ⟨before, value, start, behind, hlayout, -⟩
    have hline : .word name value ∈ data := by
      rw [← hlines, hlayout]
      simp
    exact ⟨value, Table.get?_of_mem_entries hkeys (hlaid.mem_word.mp hline)⟩
  · rintro ⟨value, hslot⟩
    have hline : .word name value ∈ (layout data).map Extent.line := by
      rw [hlines]
      exact hlaid.mem_word.mpr (Table.mem_entries_of_get? hslot)
    obtain ⟨⟨line, start, stop⟩, he, rfl⟩ := List.mem_map.mp hline
    have halign := hlaid.aligned rfl he rfl
    obtain rfl : stop = start + wordSize := stop_of_mem_layoutFrom he
    obtain ⟨before, behind, hlayout⟩ := List.append_of_mem he
    -- The other lines are in order before and behind the word, and have other labels.
    have hbytes := layoutFrom_pairwise 0 data
    have hlabels := hlaid.labels_pairwise hkeys 0
    rw [← layout, hlayout, List.pairwise_append, List.pairwise_cons] at hbytes hlabels
    refine ⟨before, value, start, behind, hlayout, halign, fun e hm => ⟨?_, ?_⟩,
      fun e hm => ⟨?_, ?_⟩⟩
    · exact fun hl => hlabels.2.2 e hm _ List.mem_cons_self name hl name rfl rfl
    · exact hbytes.2.2 e hm _ List.mem_cons_self
    · exact fun hl => hlabels.2.1.1 e hm name rfl name hl rfl
    · exact hbytes.2.1.1 e hm

end Assembly
end Risclet
