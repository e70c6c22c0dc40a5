import Risclet.Proofs.Assembly.Code
import Risclet.Proofs.Text.Halves

/-! # Listings of programs with halves in their texts

The sizes of strings are counted on their encodings while the data section is made, and a half of a
surrogate pair has none.  So a program has no listing if the text that one of its string variables
begins with holds a half; the first of these halves is reported, before any instruction is looked
at.  Every other program has the same listing as if there were no halves at all (`emitIn_eq_ok`,
`emitIn_eq_error`).
-/
namespace Risclet
namespace Assembly

/-- A slot of an integer, or of a string that is given by its literal. -/
def Placeable (slot : Lower.Slot) : Prop :=
  slot.type = .int32 ∨ ∃ s, slot = ⟨.string, Text.Quoted.quote s⟩

theorem Placeable.storable {slot : Lower.Slot} (h : Placeable slot) :
    slot.type = .int32 ∨ slot.type = .string := by
  rcases h with ht | ⟨s, rfl⟩
  · exact .inl ht
  · exact .inr rfl

/-- The report on the first half among the texts that slots begin with. -/
def FirstHalf (h : Text.Halves) (slots : Table Lower.Slot) (fault : Text.EncodeFault) : Prop :=
  ∃ front name s rest, slots.entries = front ++ (name, ⟨.string, Text.Quoted.quote s⟩) :: rest ∧
    (∀ e ∈ front, ∀ t, e.2 = ⟨.string, Text.Quoted.quote t⟩ → h.fault? t.toList = none) ∧
    h.fault? s.toList = some fault

section Data
variable {h : Text.Halves} {slots : Table Lower.Slot} {entries : List (String × Lower.Slot)}
  {fault : Text.EncodeFault}

/-- The literal of a slot is measured, if its text holds no half. -/
theorem Placeable.measure_eq {slot : Lower.Slot} (hp : Placeable slot) (ht : slot.type = .string)
    (hspared : ∀ t, slot = ⟨.string, Text.Quoted.quote t⟩ → h.fault? t.toList = none) :
    h.measure slot.initial = .ok (Text.Quoted.byteCount slot.initial) := by
  rcases hp with hint | ⟨s, rfl⟩
  · rw [ht] at hint
    cases hint
  · rw [h.measure_quote, hspared s rfl]

/-- Slots without halves have the same lines. -/
theorem dataFrom_of_spared (hp : ∀ e ∈ entries, Placeable e.2)
    (hspared : ∀ e ∈ entries, ∀ t, e.2 = ⟨.string, Text.Quoted.quote t⟩ →
      h.fault? t.toList = none)
    {offset : Nat} {lines : List DataLine}
    (hlines : dataFrom id (fun literal => .ok (Text.Quoted.byteCount literal)) offset entries =
      .ok lines) :
    dataFrom (fun e => TextFailure.failure (.rejected e))
      (fun literal => (h.measure literal).mapError .unencodable) offset entries = .ok lines := by
  induction entries generalizing offset lines with
  | nil => cases hlines; rfl
  | cons e entries ih =>
    obtain ⟨name, type, initial⟩ := e
    obtain ⟨hfirst, hothers⟩ := List.forall_mem_cons.mp hp
    obtain ⟨hspare, hspares⟩ := List.forall_mem_cons.mp hspared
    cases type with
    | int32 =>
      obtain ⟨others, ho, rfl⟩ := Outcome.map_eq_ok.mp hlines
      simp only [dataFrom, ih hothers hspares ho]
      rfl
    | string =>
      obtain ⟨others, ho, rfl⟩ := Outcome.map_eq_ok.mp hlines
      simp only [dataFrom, hfirst.measure_eq rfl hspare, Outcome.mapError_ok, Outcome.bind_ok,
        ih hothers hspares ho]
      rfl
    | foreign text => cases hlines

/-- Either no text holds a half, or one of them is the first. -/
theorem spared_or_firstHalf (h : Text.Halves) (slots : Table Lower.Slot) :
    (∀ e ∈ slots.entries, ∀ t, e.2 = ⟨.string, Text.Quoted.quote t⟩ →
      h.fault? t.toList = none) ∨ ∃ fault, FirstHalf h slots fault := by
  classical
  let bad : String × Lower.Slot → Prop := fun e =>
    ∃ t, e.2 = ⟨.string, Text.Quoted.quote t⟩ ∧ h.fault? t.toList ≠ none
  cases hfind : slots.entries.find? (fun e => decide (bad e)) with
  | none =>
    refine .inl fun e he t ht => Classical.byContradiction fun hne => ?_
    have hgood := List.find?_eq_none.mp hfind e he
    exact hgood (decide_eq_true ⟨t, ht, hne⟩)
  | some e =>
    obtain ⟨hbad, front, rest, hentries, hfront⟩ := List.find?_eq_some_iff_append.mp hfind
    obtain ⟨name, slot⟩ := e
    obtain ⟨s, rfl, hs⟩ := of_decide_eq_true hbad
    obtain ⟨fault, hfault⟩ := Option.ne_none_iff_exists'.mp hs
    refine .inr ⟨fault, front, name, s, rest, hentries, fun e he t ht => ?_, hfault⟩
    refine Classical.byContradiction fun hne => ?_
    have hgood := hfront e he
    rw [decide_eq_true (⟨t, ht, hne⟩ : bad e)] at hgood
    cases hgood

theorem FirstHalf.dataSectionIn_eq (hf : FirstHalf h slots fault)
    (hp : ∀ e ∈ slots.entries, Placeable e.2) :
    dataSectionIn h slots = .error (.unencodable fault) := by
  obtain ⟨front, name, s, rest, hentries, hspared, hs⟩ := hf
  rw [hentries] at hp
  have hplain : ∀ e ∈ front, Placeable e.2 := fun e he => hp e (List.mem_append_left _ he)
  obtain ⟨lines, hlines⟩ : ∃ lines, dataFrom id
      (fun literal => .ok (Text.Quoted.byteCount literal)) 0 front = .ok lines :=
    dataFrom_of_storable (fun e he => (hplain e he).storable) (fun _ _ _ => ⟨_, rfl⟩) 0
  rw [dataSectionIn, hentries]
  refine dataFrom_of_unmeasured (dataFrom_of_spared hplain hspared hlines) ?_
  rw [h.measure_quote, hs]
  rfl

theorem FirstHalf.unique {other : Text.EncodeFault} (hf : FirstHalf h slots fault)
    (hother : FirstHalf h slots other) (hp : ∀ e ∈ slots.entries, Placeable e.2) :
    other = fault := by
  have heq := (hother.dataSectionIn_eq hp).symm.trans (hf.dataSectionIn_eq hp)
  exact TextFailure.unencodable.inj (Except.error.inj heq)

end Data

section Listing
variable {h : Text.Halves} {o : Options} {p : Lower.Program}
  (hi : ∀ i ∈ p.instrs, Encodable i) (hp : ∀ e ∈ p.slots.entries, Placeable e.2)
include hi hp

/-- **A program has a listing, or a half in one of its texts is reported.** -/
theorem emitIn_cases :
    (∃ text, emitIn h o p = .ok text ∧ emit o p = .ok text ∧
        ∀ fault, ¬ FirstHalf h p.slots fault) ∨
      ∃ fault, emitIn h o p = .error (.unencodable fault) ∧ FirstHalf h p.slots fault := by
  rcases spared_or_firstHalf h p.slots with hspared | ⟨fault, hf⟩
  · obtain ⟨code, hc⟩ := codeOf_of_encodable hi
    obtain ⟨data, hd⟩ := exists_dataSection fun e he => (hp e he).storable
    have hin : dataSectionIn h p.slots = .ok data := dataFrom_of_spared hp hspared hd
    have hprogram : Program.ofLower p = .ok ⟨data, code⟩ := Program.ofLower_eq_ok.mpr ⟨hd, hc⟩
    refine .inl ⟨Program.text o ⟨data, code⟩, ?_, ?_, ?_⟩
    · rw [emitIn, Program.ofLowerIn, hin, hc]
      rfl
    · rw [emit, hprogram]
      rfl
    · rintro fault hf
      rw [hf.dataSectionIn_eq hp] at hin
      cases hin
  · refine .inr ⟨fault, ?_, hf⟩
    rw [emitIn, Program.ofLowerIn, hf.dataSectionIn_eq hp]
    rfl

/-- The listing is the same as without halves, and there is one exactly if no text holds any. -/
theorem emitIn_eq_ok {text : String} : emitIn h o p = .ok text ↔
    emit o p = .ok text ∧ ∀ fault, ¬ FirstHalf h p.slots fault := by
  rcases emitIn_cases (h := h) (o := o) hi hp with ⟨other, hin, hemit, hnone⟩ | ⟨fault, hin, hf⟩
  · rw [hin, hemit, Except.ok.injEq, Except.ok.injEq, and_iff_left hnone]
  · rw [hin]
    exact ⟨nofun, fun hnone => absurd hf (hnone.2 fault)⟩

/-- Nothing else goes wrong. -/
theorem emitIn_eq_error {f : TextFailure} : emitIn h o p = .error f ↔
    ∃ fault, f = .unencodable fault ∧ FirstHalf h p.slots fault := by
  constructor
  · intro he
    rcases emitIn_cases (h := h) (o := o) hi hp with ⟨text, hin, -⟩ | ⟨fault, hin, hf⟩
    · rw [hin] at he
      cases he
    · exact ⟨fault, (Except.error.inj (hin.symm.trans he)).symm, hf⟩
  · rintro ⟨fault, rfl, hf⟩
    rw [emitIn, Program.ofLowerIn, hf.dataSectionIn_eq hp]
    rfl

end Listing

end Assembly
end Risclet
