/-!
# Splitting at a character

Parameter lists are split at commas, paths at slashes and log filters at commas
again.  The stretches between the separators are kept even where they are empty,
so there is always one more of them than there are separators.
-/

namespace Loopsmith
namespace Text

def splitOn (sep : Char) : List Char → List (List Char)
  | [] => [[]]
  | c :: cs =>
      if c == sep then [] :: splitOn sep cs
      else
        match splitOn sep cs with
        | [] => [[c]]
        | f :: fs => (c :: f) :: fs

theorem splitOn_ne_nil (sep : Char) (cs : List Char) : splitOn sep cs ≠ [] := by
  cases cs with
  | nil => simp [splitOn]
  | cons c cs =>
      rw [splitOn]
      split
      · simp
      · split <;> simp

end Text
end Loopsmith
