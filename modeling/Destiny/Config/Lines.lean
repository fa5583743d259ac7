/-
  Destiny.Config.Lines

  The line loops of the two readers (`InputParameter::ReadInputParameterFromFile`
  and `MemCell::ReadCellFromFile`).

  Both loops are `while (fscanf(fp, "%[^\n]\n", line) != EOF)` and their bodies
  neither leave the loop nor touch the file.  A file whose first character is a
  newline keeps them running for ever; on every other file they end and take each
  line that holds something exactly once, in file order (`readers_end_iff`).
-/

import Destiny.Config.Reader

namespace Destiny

open Lib

/-- The loop with this body ends on the file, from any buffer and state, and the
    lines it has run on are, white space at their start aside, the lines of the file
    that have a character other than white space: once each, in file order. -/
def EndsSkippingNone {S : Type} (body : List Char → S → S) (file : List Char) : Prop :=
  ∀ (line : List Char) (s : S), ∃ (n : Nat) (s' : S) (processed : List (List Char)),
    lineLoop (logged body) n file line (s, []) = some (s', processed) ∧
      tidy processed = tidy (file.splitOn '\n')

theorem endsSkippingNone_iff {S : Type} [Nonempty S] (body : List Char → S → S)
    (file : List Char) : EndsSkippingNone body file ↔ file.head? ≠ some '\n' := by
  constructor
  · intro h
    obtain ⟨n, s', processed, hrun, -⟩ := h [] (Classical.arbitrary S)
    exact lineLoop_ends_iff.mp ⟨n, _, hrun⟩
  · intro hfile line s
    obtain ⟨n, hn⟩ := lineLoop_ends (logged body) hfile line (s, [])
    rw [foldl_logged, List.nil_append] at hn
    exact ⟨n, _, _, hn, tidy_fetchedLines file⟩

/-- The reader of configuration files and the reader of cell files end on a file and
    skip no line of it exactly when the file does not start with a newline. -/
theorem readers_end_iff {K : Type} [Field K] (sqrt : K → K) (vdd : K) (file : List Char) :
    (EndsSkippingNone ConfigReader.readLine file ↔ file.head? ≠ some '\n') ∧
      (EndsSkippingNone (MemCell.readLine sqrt vdd) file ↔ file.head? ≠ some '\n') := by
  have : Inhabited K := ⟨0⟩
  exact ⟨endsSkippingNone_iff _ file, endsSkippingNone_iff _ file⟩

/-- A blank first line: the loop of neither reader ends. -/
theorem leading_newline_hangs :
    ¬ EndsSkippingNone ConfigReader.readLine "\n-ProcessNode: 32\n".toList := by
  intro h
  exact (endsSkippingNone_iff _ _).mp h (by decide)

end Destiny
