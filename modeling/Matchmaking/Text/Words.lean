import Matchmaking.Text.Alphanumeric
import Matchmaking.Text.Lowercase

/-!
# Words of a text

A text is searched by its words: maximal runs of letters and digits, in lower case. A word has a
position, counted from zero. Very long runs are no words, but they keep their positions.
-/

namespace Matchmaking.Text

/-- A word and its position. -/
structure Word where
  /-- The position among the runs of the text. -/
  position : Nat
  /-- The word in lower case. -/
  text : String
  deriving DecidableEq, Repr

/-- The maximal runs of letters and digits; `run` is the one under way, reversed. -/
def runs (run : List Char) : List Char → List String
  | [] => if run.isEmpty then [] else [String.ofList run.reverse]
  | c :: rest =>
    if isAlphanumeric c then runs (c :: run) rest
    else if run.isEmpty then runs [] rest
    else String.ofList run.reverse :: runs [] rest

/-- The number of bytes from which on a run is no word. -/
def longRun : Nat := 40

/-- The words of a text. -/
def words (s : String) : List Word :=
  let all := runs [] s.toList
  ((List.range all.length).zip all).filterMap fun (i, run) =>
    if run.utf8ByteSize < longRun then some ⟨i, lower run⟩ else none

end Matchmaking.Text
