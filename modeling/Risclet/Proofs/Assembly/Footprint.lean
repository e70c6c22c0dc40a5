import Risclet.Proofs.Assembly.Layout
import Risclet.Proofs.Assembly.Machine
import Risclet.Proofs.Lower.Accesses
import Risclet.Proofs.Lower.Preservation
import Risclet.Proofs.Tuple.Accesses

/-! # Loads and stores in the data section

Every load and store of compiled code takes four bytes at the label of a variable.  Where
declarations are compulsory the variable has a label.  The four bytes are its own if it is an
integer variable; at the label of a string there are the bytes of the literal, and behind them those
of the next line.  Nothing keeps strings away from loads and stores, because only literals are
checked against types; so code stays inside its variables exactly if the statements do no more with
string variables than declare them (`accesses_own_words_iff`).

A string can be empty, and then it has the address of the variable behind it.  A store into the
string changes that variable (`overwritten_by_string_store`).
-/
namespace Risclet
namespace Assembly

section Words
variable {o : Options} {nodes : List Node} {p : Tuple.Program} {q : Lower.Program} {name : String}

/-- What strict programs access has been declared, as an integer or as a string. -/
theorem firstType?_of_accesses (hstrict : o.strict = true)
    (hp : Tuple.Program.ofStatements o nodes = .ok p) (hq : Lower.Program.ofTuple o p = .ok q)
    (ha : Lower.Accesses q.instrs name) :
    Node.firstType? name nodes = some "Int32" ∨ Node.firstType? name nodes = some "String" := by
  refine Lower.firstType?_of_contains hp ?_
  exact (Tuple.ofStatements_eq_ok.mp hp).contains_of_accessed hstrict
    ((Lower.ofTuple_accesses hq).mp ha)

/-- A string variable is accessed if a statement does more than declare it. -/
theorem accesses_string_iff (hp : Tuple.Program.ofStatements o nodes = .ok p)
    (hq : Lower.Program.ofTuple o p = .ok q) (hf : Node.firstType? name nodes = some "String") :
    Lower.Accesses q.instrs name ↔ ∃ node ∈ nodes, ¬ node.Spares name := by
  have hs := Tuple.ofStatements_eq_ok.mp hp
  have htype : p.vars.get? name = some .string := by
    rw [hs.get?_eq name, hf]
    rfl
  rw [Lower.ofTuple_accesses hq, hs.accessed_string Tuple.enters_nil htype]

/-- **Strict programs access integer variables only, exactly if they spare their strings.** -/
theorem forall_isWord_iff (hstrict : o.strict = true)
    (hp : Tuple.Program.ofStatements o nodes = .ok p) (hq : Lower.Program.ofTuple o p = .ok q) :
    (∀ name, Lower.Accesses q.instrs name → Lower.IsWord q.slots name) ↔
      Node.SpareStrings nodes := by
  constructor
  · intro hwords name hf node hnode
    by_cases hspares : node.Spares name
    · exact hspares
    · -- The string is accessed, although its slot is not a word.
      have ha := (accesses_string_iff hp hq hf).mpr ⟨node, hnode, hspares⟩
      obtain ⟨text, hslot⟩ := hwords name ha
      obtain ⟨_, hslot'⟩ := Lower.slot_of_firstType? hp hq hf rfl
      rw [hslot] at hslot'
      cases hslot'
  · intro hspare name ha
    rcases firstType?_of_accesses hstrict hp hq ha with hf | hf
    · exact Lower.slot_of_firstType? hp hq hf rfl
    · obtain ⟨node, hnode, hspares⟩ := (accesses_string_iff hp hq hf).mp ha
      exact absurd (hspare name hf node hnode) hspares

end Words

/-- **Code stays inside its variables exactly if strings are spared.**  Where statements are
accepted strictly, every variable that their code loads or stores has a slot of one of the two
types.  The integer variables, and no others, have words of their own in the data section; and the
loads and stores are all to such words if and only if no statement does more with a string variable
than declare it. -/
theorem accesses_own_words_iff {o : Options} {nodes : List Node} {p : Tuple.Program}
    {q : Lower.Program} (hstrict : o.strict = true)
    (hp : Tuple.Program.ofStatements o nodes = .ok p) (hq : Lower.Program.ofTuple o p = .ok q) :
    ∃ data, dataSection q.slots = .ok data ∧
      (∀ i ∈ q.instrs, ∀ name ∈ i.variables,
        ∃ slot, q.slots.get? name = some slot ∧ slot.type.HasStorage) ∧
      (∀ name, OwnWord data name ↔ Lower.IsWord q.slots name) ∧
      ((∀ i ∈ q.instrs, ∀ name ∈ i.variables, OwnWord data name) ↔ Node.SpareStrings nodes) := by
  have hs := Tuple.ofStatements_eq_ok.mp hp
  obtain ⟨hsound, -⟩ := Lower.sound_ofTuple hp hq
  have hkeys : q.slots.keys.Nodup :=
    Lower.nodup_keys_ofTuple hq (hs.nodup_keys (by simp [Table.keys, Table.empty]))
  obtain ⟨data, hdata⟩ := exists_dataSection fun e he => (hsound e he).hasStorage
  have hword : ∀ name, OwnWord data name ↔ Lower.IsWord q.slots name :=
    fun name => ownWord_iff hdata hkeys
  refine ⟨data, hdata, fun i hi name hn => ?_, hword, ?_⟩
  · rcases firstType?_of_accesses hstrict hp hq ⟨i, hi, hn⟩ with hf | hf
    · obtain ⟨text, hslot⟩ := Lower.slot_of_firstType? hp hq hf rfl
      exact ⟨_, hslot, .inl rfl⟩
    · obtain ⟨text, hslot⟩ := Lower.slot_of_firstType? hp hq hf rfl
      exact ⟨_, hslot, .inr rfl⟩
  · rw [← forall_isWord_iff hstrict hp hq]
    simp only [hword]
    constructor
    · rintro hall name ⟨i, hi, hn⟩
      exact hall i hi name hn
    · exact fun hall i hi name hn => hall name ⟨i, hi, hn⟩

/-- A program with an integer variable behind a string of three bytes. -/
def counter : List Node :=
  [.decl "s" "String" (.str "odd" Pos.unknown) Pos.unknown,
    .decl "n" "Int32" (.int 5 Pos.unknown) Pos.unknown,
    .assign "n" (.binary (.arith .add) (.ident "n" Pos.unknown) (.int 1 Pos.unknown) Pos.unknown)
      Pos.unknown,
    .call "Output" [.ident "n" Pos.unknown] Pos.unknown]

/-- It spares the string, so its code loads and stores a word that belongs to the variable. -/
theorem accesses_own_words_counter :
    ∃ p q data, Tuple.Program.ofStatements {} counter = .ok p ∧
      Lower.Program.ofTuple {} p = .ok q ∧ dataSection q.slots = .ok data ∧
      (∃ i ∈ q.instrs, "n" ∈ i.variables) ∧
      ∀ i ∈ q.instrs, ∀ name ∈ i.variables, OwnWord data name := by
  have hspare : Node.SpareStrings counter := by
    intro name hf
    obtain rfl : "s" = name := by
      by_cases hs : "s" = name
      · exact hs
      · simp [counter, Node.firstType?, hs] at hf
    simp [counter, Node.Spares, Node.names, Node.namesAll]
  have hp : Tuple.Program.ofStatements {} counter = .ok _ := rfl
  obtain ⟨data, hdata, -, -, hiff⟩ := accesses_own_words_iff rfl hp rfl
  exact ⟨_, _, data, hp, rfl, hdata, by decide, hiff.mpr hspare⟩

/-- A program that stores into an empty string, which has an integer variable behind it. -/
def emptyString : List Node :=
  [.decl "s" "String" .absent Pos.unknown,
    .decl "n" "Int32" (.int 5 Pos.unknown) Pos.unknown,
    .decl "k" "Int32" (.int 9 Pos.unknown) Pos.unknown,
    .assign "s" (.ident "k" Pos.unknown) Pos.unknown,
    .call "Output" [.ident "n" Pos.unknown] Pos.unknown]

/-- Where its variables are. -/
def emptyStringAddress (name : String) : BitVec 64 :=
  if name = "k" then 4 else 0

/-- Its variables in the beginning. -/
def emptyStringBytes : Bytes :=
  (Bytes.setWord (fun _ => 0) 0 5).setWord 4 9

/-- **A store into a string can change another variable.**  The program is accepted strictly; it
stores into a variable whose slot is a string of no bytes, at the address of the next variable; and
it puts out what was stored instead of that variable's value. -/
theorem overwritten_by_string_store :
    ∃ p q data code u w, Tuple.Program.ofStatements {} emptyString = .ok p ∧
      Lower.Program.ofTuple {} p = .ok q ∧
      .storeVar "s" (.var 0) (.var 1) ∈ q.instrs ∧
      q.slots.get? "s" = some ⟨.string, "\"\""⟩ ∧
      dataSection q.slots = .ok data ∧
      layout data = [⟨.ascii "s" "\"\"", 0, 0⟩, ⟨.word "n" "5", 0, 4⟩, ⟨.word "k" "9", 4, 8⟩] ∧
      codeOf q.instrs = .ok code ∧
      Machine.run ⟨emptyStringAddress, fun _ _ => 0⟩ ⟨fun _ => 0, emptyStringBytes, []⟩ code =
        some u ∧
      u.events = [⟨"print_int", 9⟩] ∧
      Node.run {} World.start emptyString = some w ∧ w.events = [⟨"print_int", 5⟩] := by
  refine ⟨_, _, _, _, _, _, rfl, rfl, ?_, rfl, rfl, ?_, rfl, rfl, ?_, rfl, ?_⟩
  · decide
  · decide
  · decide
  · decide

end Assembly
end Risclet
