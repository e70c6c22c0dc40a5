/-! # Line ends

Files end their lines with a line feed, a carriage return, or the pair of both.  A text is read with
each of the three turned into one line feed: first the pairs, then the carriage returns that are
left.  A text that is written has a line feed after every line.
-/
namespace Risclet
namespace Text

/-- Turns each carriage return with a line feed after it into the line feed. -/
def joinPairs : List Char → List Char
  | [] => []
  | '\r' :: '\n' :: rest => '\n' :: joinPairs rest
  | c :: rest => c :: joinPairs rest

/-- Turns each carriage return into a line feed. -/
def replaceReturns (cs : List Char) : List Char :=
  cs.map (fun c => if c = '\r' then '\n' else c)

/-- The text with every line ended by a line feed. -/
def normaliseLines (s : String) : String :=
  String.ofList (replaceReturns (joinPairs s.toList))

/-- The text of some lines, each ended by a line feed. -/
def unlines (lines : List String) : String :=
  String.join (lines.map (· ++ "\n"))

/-- No carriage return is left. -/
theorem not_mem_replaceReturns (cs : List Char) : '\r' ∉ replaceReturns cs := by
  intro h
  obtain ⟨c, _, hc⟩ := List.mem_map.mp h
  split at hc
  · exact absurd hc (by decide)
  · contradiction

end Text
end Risclet
