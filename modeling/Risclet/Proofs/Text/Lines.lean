import Risclet.Text.Lines

/-! # One pass over the ends of lines

Reading a text replaces the pairs first and then the carriage returns that are left.  One scan from
left to right, which turns the longest end of a line that stands at its place into a line feed,
gives the same (`replaceReturns_joinPairs`).

What the lines of a text are is said without a scan (`Divided`): each line holds neither of the two
characters, and its end is the longest that stands there, so a carriage return before a line feed is
no end of its own.  Every text can be divided in this way, and reading puts a line feed in the place
of each end and changes nothing else.  So the lines of the text that is read are those of the file
(`Divided.splitOn_normaliseLines`).

A text without carriage returns can be written with any of the three ends (`LineEnd.write`), and it
is read back as it was (`normaliseLines_write`).
-/
namespace Risclet
namespace Text

/-- What can end a line. -/
inductive LineEnd where
  /-- A line feed. -/
  | feed
  /-- A carriage return. -/
  | carriage
  /-- A carriage return and a line feed. -/
  | pair
deriving DecidableEq, Repr

namespace LineEnd

/-- The characters of an end. -/
def chars : LineEnd → List Char
  | feed => ['\n']
  | carriage => ['\r']
  | pair => ['\r', '\n']

/-- Whether an end is the longest where `rest` follows: no carriage return that makes a pair. -/
def Longest (e : LineEnd) (rest : List Char) : Prop :=
  e = .carriage → rest.head? ≠ some '\n'

/-- Characters with every line feed replaced by an end. -/
def writeChars (e : LineEnd) (cs : List Char) : List Char :=
  cs.flatMap fun c => if c = '\n' then e.chars else [c]

/-- The text with its lines ended in a given way. -/
def write (e : LineEnd) (text : String) : String :=
  String.ofList (e.writeChars text.toList)

end LineEnd

/-! ## The scan -/

/-- One scan from left to right that turns each end of a line into a line feed, a pair before its
parts. -/
def unifyEnds : List Char → List Char
  | [] => []
  | '\r' :: '\n' :: rest => '\n' :: unifyEnds rest
  | '\r' :: rest => '\n' :: unifyEnds rest
  | c :: rest => c :: unifyEnds rest

theorem unifyEnds_cons {c : Char} (h : c ≠ '\r') (rest : List Char) :
    unifyEnds (c :: rest) = c :: unifyEnds rest :=
  unifyEnds.eq_4 c rest (fun _ hc => absurd hc h) h

/-- An end of a line becomes one line feed. -/
theorem unifyEnds_chars {e : LineEnd} {rest : List Char} (h : e.Longest rest) :
    unifyEnds (e.chars ++ rest) = '\n' :: unifyEnds rest := by
  cases e with
  | feed => exact unifyEnds_cons (by decide) rest
  | carriage =>
    refine unifyEnds.eq_3 rest ?_
    rintro behind rfl
    exact h rfl rfl
  | pair => rfl

/-- What is no end of a line stays. -/
theorem unifyEnds_append {line : List Char} (h : '\r' ∉ line) (rest : List Char) :
    unifyEnds (line ++ rest) = line ++ unifyEnds rest := by
  induction line with
  | nil => rfl
  | cons c line ih =>
    obtain ⟨hc, hline⟩ := List.ne_and_not_mem_of_not_mem_cons h
    rw [List.cons_append, unifyEnds_cons (Ne.symm hc), ih hline, List.cons_append]

theorem unifyEnds_of_not_mem {cs : List Char} (h : '\r' ∉ cs) : unifyEnds cs = cs := by
  simpa [unifyEnds] using unifyEnds_append h []

/-- **Two replacements are one scan.** -/
theorem replaceReturns_joinPairs (cs : List Char) :
    replaceReturns (joinPairs cs) = unifyEnds cs := by
  fun_induction unifyEnds cs with
  | case1 => rfl
  | case2 rest ih => simp [joinPairs, replaceReturns, ← ih]
  | case3 rest hpair ih =>
    rw [joinPairs.eq_3 _ _ (fun behind _ => hpair behind)]
    simp [replaceReturns, ← ih]
  | case4 c rest hpair hreturn ih =>
    have hc : c ≠ '\r' := hreturn
    rw [joinPairs.eq_3 _ _ hpair]
    simp [replaceReturns, ← ih, hc]

theorem normaliseLines_eq (text : String) :
    (normaliseLines text).toList = unifyEnds text.toList := by
  rw [normaliseLines, String.toList_ofList, replaceReturns_joinPairs]

/-! ## The lines of a text -/

/-- Characters of one line: no end of a line is among them. -/
def IsLine (cs : List Char) : Prop :=
  '\r' ∉ cs ∧ '\n' ∉ cs

/-- The lines of a text, each with its end, and what stands behind the last end. -/
inductive Divided : List Char → List (List Char × LineEnd) → List Char → Prop where
  | last {line : List Char} : IsLine line → Divided line [] line
  | ended {line rest last : List Char} {e : LineEnd} {lines : List (List Char × LineEnd)} :
      IsLine line → e.Longest rest → Divided rest lines last →
      Divided (line ++ (e.chars ++ rest)) ((line, e) :: lines) last

/-- A character that ends no line goes to the first line. -/
theorem Divided.cons {c : Char} (hreturn : c ≠ '\r') (hfeed : c ≠ '\n') {cs last : List Char}
    {lines : List (List Char × LineEnd)} (h : Divided cs lines last) :
    ∃ lines last, Divided (c :: cs) lines last := by
  have hline : ∀ {line}, IsLine line → IsLine (c :: line) := fun h =>
    ⟨List.not_mem_cons_of_ne_of_not_mem hreturn.symm h.1,
      List.not_mem_cons_of_ne_of_not_mem hfeed.symm h.2⟩
  cases h with
  | last h => exact ⟨_, _, .last (hline h)⟩
  | ended h hlongest hrest => exact ⟨_, _, .ended (hline h) hlongest hrest⟩

/-- **Every text is made of lines.** -/
theorem exists_divided (cs : List Char) : ∃ lines last, Divided cs lines last := by
  -- The cases of the scan are the ends that can stand at a place.
  have hempty : IsLine [] := ⟨List.not_mem_nil, List.not_mem_nil⟩
  fun_induction unifyEnds cs with
  | case1 => exact ⟨[], [], .last hempty⟩
  | case2 rest ih =>
    obtain ⟨lines, last, h⟩ := ih
    exact ⟨_, _, .ended (e := .pair) hempty (by rintro ⟨⟩) h⟩
  | case3 rest hpair ih =>
    obtain ⟨lines, last, h⟩ := ih
    refine ⟨_, _, .ended (e := .carriage) hempty (fun _ hhead => ?_) h⟩
    obtain ⟨behind, hrest⟩ := List.head?_eq_some_iff.mp hhead
    exact hpair behind hrest
  | case4 c rest hpair hreturn ih =>
    obtain ⟨lines, last, h⟩ := ih
    by_cases hc : c = '\n'
    · subst hc
      exact ⟨_, _, .ended (e := .feed) hempty (by rintro ⟨⟩) h⟩
    · exact h.cons hreturn hc

namespace Divided
variable {cs last : List Char} {lines : List (List Char × LineEnd)}

theorem isLine (h : Divided cs lines last) :
    ∀ line ∈ lines.map Prod.fst ++ [last], IsLine line := by
  induction h with
  | last h => simpa using h
  | ended h _ _ ih => exact List.forall_mem_cons.mpr ⟨h, ih⟩

/-- The scan puts line feeds between the lines. -/
theorem unifyEnds_eq (h : Divided cs lines last) :
    unifyEnds cs = ['\n'].intercalate (lines.map Prod.fst ++ [last]) := by
  induction h with
  | last h => simpa using unifyEnds_of_not_mem h.1
  | ended h hlongest _ ih =>
    rw [unifyEnds_append h.1, unifyEnds_chars hlongest, ih, List.map_cons, List.cons_append,
      List.intercalate_cons_of_ne_nil (by simp), List.append_assoc]
    rfl

/-- **The lines of what is read are those of the file.** -/
theorem splitOn_normaliseLines {text : String} (h : Divided text.toList lines last) :
    (normaliseLines text).toList.splitOn '\n' = lines.map Prod.fst ++ [last] := by
  rw [normaliseLines_eq, h.unifyEnds_eq]
  exact List.splitOn_intercalate '\n' (fun line hline => (h.isLine line hline).2) (by simp)

end Divided

/-! ## Writing with other ends -/

theorem LineEnd.longest_writeChars (e : LineEnd) (cs : List Char) :
    e.Longest (e.writeChars cs) := by
  -- Where every line ends with a carriage return alone, no line feed is left to make a pair.
  rintro rfl hhead
  obtain ⟨c, -, hc⟩ := List.mem_flatMap.mp (List.mem_of_head? hhead)
  split at hc
  · exact absurd hc (by decide)
  · next hne => exact hne (List.mem_singleton.mp hc).symm

theorem unifyEnds_writeChars (e : LineEnd) {cs : List Char} (h : '\r' ∉ cs) :
    unifyEnds (e.writeChars cs) = cs := by
  induction cs with
  | nil => rfl
  | cons c cs ih =>
    obtain ⟨hc, hcs⟩ := List.ne_and_not_mem_of_not_mem_cons h
    have hcons : e.writeChars (c :: cs) =
        (if c = '\n' then e.chars else [c]) ++ e.writeChars cs := List.flatMap_cons
    rw [hcons]
    split
    · next hfeed => rw [unifyEnds_chars (e.longest_writeChars cs), ih hcs, hfeed]
    · rw [List.singleton_append, unifyEnds_cons (Ne.symm hc), ih hcs]

/-- A text without carriage returns is read as it is. -/
theorem normaliseLines_of_not_mem {text : String} (h : '\r' ∉ text.toList) :
    normaliseLines text = text := by
  apply String.toList_injective
  rw [normaliseLines_eq, unifyEnds_of_not_mem h]

/-- **A text is read as it was, whichever ends it is written with.** -/
theorem normaliseLines_write (e : LineEnd) {text : String} (h : '\r' ∉ text.toList) :
    normaliseLines (e.write text) = text := by
  apply String.toList_injective
  rw [normaliseLines_eq, LineEnd.write, String.toList_ofList, unifyEnds_writeChars e h]

end Text
end Risclet
