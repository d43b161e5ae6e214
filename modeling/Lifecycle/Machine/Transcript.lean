/-!
# Reading a transcript

The lines that programs write carry the name of their program in front. `Transcript.counts` counts
the lines of each name, and `Transcript.sort` puts lines in an order that does not depend on the
schedule.
-/

namespace Lifecycle

namespace Transcript

/-- The text of a line up to its first bracket, colon or space. -/
def speaker (line : String) : String :=
  String.ofList (line.toList.takeWhile (fun c => c != '[' && c != ':' && c != ' '))

/-- How many lines each speaker wrote, in the order of their first lines. -/
def counts (lines : List String) : List (String × Nat) :=
  let speakers := lines.map speaker
  speakers.eraseDups.map (fun s => (s, speakers.count s))

/-- The lines in increasing order of their code points. -/
def sort (lines : List String) : List String := lines.mergeSort (fun a b => a ≤ b)

end Transcript

end Lifecycle
