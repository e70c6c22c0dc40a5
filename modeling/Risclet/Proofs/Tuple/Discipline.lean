import Risclet.Proofs.Tuple.Meaning
import Risclet.Proofs.Tuple.Scope

/-! # Disciplined tuple programs

Tuple programs need not come from statements.  One that was put together by hand can use any number
of results, and take them up again later.  `Disciplined` says what such a program has to keep for
its instructions to be what they seem:

* no name is used before its first declaration (`Timely`), because the literal of that declaration
  is in memory from the beginning;
* the names that are read, or stored into when the program runs, are integer variables;
* a result is read only where it is known (`Live`): an operation has given it, and no call has come
  in between, for a call forgets all results.

A name that is never declared may be used anywhere, and a first declaration may read the name that
it declares.
-/
namespace Risclet

/-- The results that an item reads. -/
def Item.temps : Item → List Int
  | temp id => [id]
  | _ => []

namespace Tuple

namespace Instr

/-- The results that an instruction reads. -/
def temps : Instr → List Int
  | declare _ _ value | assign _ value => value.temps
  | call _ args => args.flatMap Item.temps
  | binary _ left right _ => left.temps ++ right.temps
  | foreign _ => []

/-- Whether an instruction is a call. -/
def IsCall : Instr → Prop
  | call _ _ => True
  | _ => False

/-- Whether an instruction is the operation with a given number. -/
def Gives (id : Int) : Instr → Prop
  | binary _ _ _ temp => temp = id
  | _ => False

/-- The names that an instruction reads or assigns to. -/
def uses : Instr → List String
  | assign name value => value.names ++ if value = .absent then [] else [name]
  | instr => instr.reads

instance (instr : Instr) : Decidable instr.IsCall :=
  match instr with
  | call _ _ => isTrue trivial
  | declare _ _ _ | assign _ _ | binary _ _ _ _ | foreign _ => isFalse id

instance (id : Int) (instr : Instr) : Decidable (instr.Gives id) :=
  match instr with
  | binary _ _ _ temp => inferInstanceAs (Decidable (temp = id))
  | declare _ _ _ | assign _ _ | call _ _ | foreign _ => isFalse fun h => h

instance (instr : Instr) (name : String) : Decidable (instr.Declares name) :=
  match instr with
  | declare _ _ _ => decidable_of_iff _ declares_declare.symm
  | assign _ _ | call _ _ | binary _ _ _ _ | foreign _ => isFalse (by simp [Declares])

/-- The names that an instruction behind `before` stores into when it is executed.  The literal of a
first declaration is not stored. -/
def stores (before : List Instr) : Instr → List String
  | declare name _ value =>
    if value ≠ .absent ∧
        (value.literalType? = none ∨ ∃ earlier ∈ before, earlier.Declares name) then [name]
    else []
  | assign name value => if value = .absent then [] else [name]
  | _ => []

end Instr

/-- Whether instructions behind `before` read a name, or store into it when they are executed. -/
def Accessed (before instrs : List Instr) (name : String) : Prop :=
  ∃ first instr behind, instrs = first ++ instr :: behind ∧
    name ∈ instr.reads ++ instr.stores (before ++ first)

/-- No name is used before its first declaration; of the names in `known` that one is past. -/
def Timely (known : String → Prop) (instrs : List Instr) : Prop :=
  ∀ before instr behind, instrs = before ++ instr :: behind → ∀ name ∈ instr.uses,
    (∃ later ∈ behind, later.Declares name) →
      known name ∨ (∃ earlier ∈ before, earlier.Declares name) ∨ instr.Declares name

/-- The result with this number is known behind `before`: an operation has given it, and no call has
come since. -/
def Live (before : List Instr) (id : Int) : Prop :=
  ∃ first instr rest, before = first ++ instr :: rest ∧ instr.Gives id ∧
    ∀ later ∈ rest, ¬ later.IsCall

/-- A program that uses its names and results as it may. -/
structure Disciplined (p : Program) : Prop where
  timely : Timely (fun _ => False) p.instrs
  words : ∀ name, Accessed [] p.instrs name → p.vars.get? name = some .int32
  live : ∀ before instr behind, p.instrs = before ++ instr :: behind →
    ∀ id ∈ instr.temps, Live before id

/-! ## Places in a program -/

theorem forall_place_nil {P : List Instr → Instr → List Instr → Prop} :
    ∀ before instr behind, [] = before ++ instr :: behind → P before instr behind := by
  simp

/-- A property of all places in a list, one place at a time. -/
theorem forall_place_cons {P : List Instr → Instr → List Instr → Prop} {instr : Instr}
    {instrs : List Instr} :
    (∀ before other behind, instr :: instrs = before ++ other :: behind → P before other behind) ↔
      P [] instr instrs ∧ ∀ before other behind, instrs = before ++ other :: behind →
        P (instr :: before) other behind := by
  constructor
  · intro h
    refine ⟨h [] instr instrs rfl, ?_⟩
    rintro before other behind rfl
    exact h (instr :: before) other behind rfl
  · rintro ⟨hfirst, hothers⟩ before other behind he
    cases before with
    | nil =>
      obtain ⟨rfl, rfl⟩ := List.cons.inj he
      exact hfirst
    | cons _ before =>
      obtain ⟨rfl, htail⟩ := List.cons.inj he
      exact hothers before other behind htail

/-- A property that can be checked in every place can be checked in all of them. -/
instance decidableForallPlace {P : List Instr → Instr → List Instr → Prop}
    [∀ before instr behind, Decidable (P before instr behind)] (instrs : List Instr) :
    Decidable (∀ before instr behind, instrs = before ++ instr :: behind →
      P before instr behind) :=
  match instrs with
  | [] => isTrue forall_place_nil
  | instr :: instrs =>
    have := decidableForallPlace (P := fun before => P (instr :: before)) instrs
    decidable_of_iff _ forall_place_cons.symm

/-! ## Names -/

section Names
variable {known word : String → Prop} {instr : Instr} {instrs : List Instr} {name : String}

theorem Instr.mem_uses : name ∈ instr.uses ↔
    name ∈ instr.reads ∨ ∃ value, value ≠ .absent ∧ instr = .assign name value := by
  cases instr with
  | assign key value =>
    by_cases ha : value = .absent
    · simp [uses, reads, ha, Item.names]
    · simp [uses, reads, ha, eq_comm]
  | _ => simp [uses]

theorem Instr.mem_stores_declare {before : List Instr} {key : String} {type : DataType}
    {value : Item} : name ∈ (Instr.declare key type value).stores before ↔
      key = name ∧ value ≠ .absent ∧
        (value.literalType? = none ∨ ∃ earlier ∈ before, earlier.Declares key) := by
  rw [stores]
  split <;> simp_all [eq_comm]

theorem Instr.mem_stores_assign {before : List Instr} {key : String} {value : Item} :
    name ∈ (Instr.assign key value).stores before ↔ key = name ∧ value ≠ .absent := by
  rw [stores]
  split <;> simp_all [eq_comm]

theorem not_accessed_nil {before : List Instr} : ¬ Accessed before [] name := by
  rintro ⟨first, instr, behind, he, -⟩
  simp at he

theorem accessed_cons {before : List Instr} : Accessed before (instr :: instrs) name ↔
    name ∈ instr.reads ++ instr.stores before ∨ Accessed (before ++ [instr]) instrs name := by
  constructor
  · rintro ⟨first, other, behind, he, hn⟩
    rcases List.cons_eq_append_iff.mp he with ⟨rfl, he'⟩ | ⟨first, rfl, rfl⟩
    · obtain ⟨rfl, rfl⟩ := List.cons.inj he'
      exact .inl (by simpa using hn)
    · exact .inr ⟨first, other, behind, rfl, by simpa using hn⟩
  · rintro (hn | ⟨first, other, behind, rfl, hn⟩)
    · exact ⟨[], instr, instrs, rfl, by simpa using hn⟩
    · exact ⟨instr :: first, other, behind, rfl, by simpa using hn⟩

theorem accessed_append {before more : List Instr} : Accessed before (instrs ++ more) name ↔
    Accessed before instrs name ∨ Accessed (before ++ instrs) more name := by
  induction instrs generalizing before with
  | nil => simp [not_accessed_nil]
  | cons instr instrs ih => simp [accessed_cons, ih, or_assoc]

theorem Timely.head (h : Timely known (instr :: instrs)) (hu : name ∈ instr.uses) :
    known name ∨ instr.Declares name ∨ ∀ later ∈ instrs, ¬ later.Declares name := by
  have hfirst := (forall_place_cons.mp h).1 name hu
  by_cases hlater : ∃ later ∈ instrs, later.Declares name
  · rcases hfirst hlater with hk | ⟨earlier, he, -⟩ | hd
    · exact .inl hk
    · cases he
    · exact .inr (.inl hd)
  · exact .inr (.inr fun later hm hd => hlater ⟨later, hm, hd⟩)

theorem Timely.tail (h : Timely known (instr :: instrs)) :
    Timely (fun key => known key ∨ instr.Declares key) instrs := by
  intro before other behind he name hu hlater
  rcases (forall_place_cons.mp h).2 before other behind he name hu hlater with
    hk | ⟨earlier, hm, hd⟩ | hd
  · exact .inl (.inl hk)
  · rcases List.mem_cons.mp hm with rfl | hm
    · exact .inl (.inr hd)
    · exact .inr (.inl ⟨earlier, hm, hd⟩)
  · exact .inr (.inr hd)

/-- Names that are declared before they are used are not used before they are declared. -/
theorem Scoped.timely (h : Scoped word known instrs) : Timely known instrs := by
  induction instrs generalizing known with
  | nil => exact forall_place_nil
  | cons instr instrs ih =>
    obtain ⟨hreads, hassign, hrest⟩ := h
    refine forall_place_cons.mpr ⟨fun name hu _ => ?_, ?_⟩
    · rcases Instr.mem_uses.mp hu with hr | ⟨value, -, he⟩
      · exact .inl (hreads name hr).1
      · exact .inl (hassign name value he)
    · intro before other behind he name hu hlater
      rcases ih hrest before other behind he name hu hlater with
        (hk | hd) | ⟨earlier, hm, hd⟩ | hd
      · exact .inl hk
      · exact .inr (.inl ⟨instr, List.mem_cons_self, hd⟩)
      · exact .inr (.inl ⟨earlier, List.mem_cons_of_mem _ hm, hd⟩)
      · exact .inr (.inr hd)

theorem Scoped.words (h : Scoped word known instrs) :
    ∀ instr ∈ instrs, ∀ name ∈ instr.reads, word name := by
  induction instrs generalizing known with
  | nil => simp
  | cons instr instrs ih =>
    obtain ⟨hreads, -, hrest⟩ := h
    exact List.forall_mem_cons.mpr ⟨fun name hn => (hreads name hn).2, ih hrest⟩

end Names

/-! ## Results -/

section Results
variable {o : Options} {before : List Instr} {instr : Instr} {id : Int} {s s' : Machine}

theorem not_live_nil : ¬ Live [] id := by
  rintro ⟨first, instr, rest, he, -⟩
  simp at he

/-- A result comes from the first instruction, or from one behind it. -/
theorem live_cons : Live (instr :: before) id ↔
    Live before id ∨ instr.Gives id ∧ ∀ later ∈ before, ¬ later.IsCall := by
  constructor
  · rintro ⟨first, other, rest, he, hgives, hrest⟩
    rcases List.cons_eq_append_iff.mp he with ⟨rfl, he'⟩ | ⟨first, rfl, rfl⟩
    · obtain ⟨rfl, rfl⟩ := List.cons.inj he'
      exact .inr ⟨hgives, hrest⟩
    · exact .inl ⟨first, other, rest, rfl, hgives, hrest⟩
  · rintro (⟨first, other, rest, rfl, hgives, hrest⟩ | ⟨hgives, hrest⟩)
    · exact ⟨instr :: first, other, rest, rfl, hgives, hrest⟩
    · exact ⟨[], instr, before, rfl, hgives, hrest⟩

/-- A result is known behind an instruction that gives it, and it stays known without a call. -/
theorem live_concat (h : Live (before ++ [instr]) id) :
    instr.Gives id ∨ ¬ instr.IsCall ∧ Live before id := by
  obtain ⟨first, other, rest, he, hgives, hrest⟩ := h
  rcases List.eq_nil_or_concat rest with rfl | ⟨rest, last, rfl⟩
  · obtain ⟨-, rfl⟩ := List.append_singleton_inj.mp he
    exact .inl hgives
  · rw [List.concat_eq_append] at he hrest
    rw [← List.cons_append, ← List.append_assoc] at he
    obtain ⟨rfl, rfl⟩ := List.append_singleton_inj.mp he
    refine .inr ⟨hrest instr (by simp), first, other, rest, rfl, hgives, fun i hi => ?_⟩
    exact hrest i (by simp [hi])

instance decidableLive (before : List Instr) (id : Int) : Decidable (Live before id) :=
  match before with
  | [] => isFalse not_live_nil
  | _ :: before =>
    have := decidableLive before id
    decidable_of_iff _ live_cons.symm

theorem Machine.store?_temps {name : String} {item : Item} (h : s.store? name item = some s') :
    s'.temps = s.temps := by
  obtain ⟨v, -, rfl⟩ := Option.map_eq_some_iff.mp h
  rfl

/-- An operation sets its result. -/
theorem Machine.step_binary {op : Operator} {left right : Item} {temp : Int}
    (h : s.step o (.binary op left right temp) = some s') : ∃ v, s' = s.setTemp temp v := by
  cases op with
  | foreign text => cases h
  | arith op =>
    obtain ⟨a, -, h⟩ := Option.bind_eq_some_iff.mp h
    obtain ⟨b, -, h⟩ := Option.bind_eq_some_iff.mp h
    cases h
    exact ⟨_, rfl⟩

/-- Without a call no result is forgotten. -/
theorem Machine.step_temps (hstep : s.step o instr = some s') (hcall : ¬ instr.IsCall)
    (hs : ∃ v, s.temps id = some v) : ∃ v, s'.temps id = some v := by
  cases instr with
  | declare name type item =>
    cases item with
    | absent | str text => cases hstep; exact hs
    | _ => rw [store?_temps hstep]; exact hs
  | assign name item =>
    cases item with
    | absent => cases hstep; exact hs
    | _ => rw [store?_temps hstep]; exact hs
  | call name args => exact absurd trivial hcall
  | binary op left right temp =>
    obtain ⟨result, rfl⟩ := step_binary hstep
    by_cases hid : id = temp
    · exact ⟨result, if_pos hid⟩
    · obtain ⟨v, hv⟩ := hs
      exact ⟨v, (if_neg hid).trans hv⟩
  | foreign text => cases hstep

/-- **A step keeps the results that are live.** -/
theorem Machine.step_live (hstep : s.step o instr = some s')
    (hs : ∀ id, Live before id → ∃ v, s.temps id = some v) :
    ∀ id, Live (before ++ [instr]) id → ∃ v, s'.temps id = some v := by
  intro id hid
  rcases live_concat hid with hgives | ⟨hcall, hlive⟩
  · cases instr with
    | binary op left right temp =>
      obtain rfl : temp = id := hgives
      obtain ⟨result, rfl⟩ := step_binary hstep
      exact ⟨result, if_pos rfl⟩
    | _ => cases hgives
  · exact step_temps hstep hcall (hs id hlive)

end Results

instance (known : String → Prop) [DecidablePred known] (instrs : List Instr) :
    Decidable (Timely known instrs) :=
  inferInstanceAs (Decidable (∀ before instr behind, instrs = before ++ instr :: behind → _))

instance (p : Program) : Decidable (Disciplined p) :=
  decidable_of_iff
    (Timely (fun _ => False) p.instrs ∧
      (∀ before instr behind, p.instrs = before ++ instr :: behind →
        ∀ name ∈ instr.reads ++ instr.stores before, p.vars.get? name = some .int32) ∧
      ∀ before instr behind, p.instrs = before ++ instr :: behind →
        ∀ id ∈ instr.temps, Live before id)
    ⟨fun ⟨timely, words, live⟩ =>
        ⟨timely, fun name ⟨before, instr, behind, he, hn⟩ => words before instr behind he name hn,
          live⟩,
      fun ⟨timely, words, live⟩ =>
        ⟨timely, fun before instr behind he name hn => words name ⟨before, instr, behind, he, hn⟩,
          live⟩⟩

end Tuple
end Risclet
