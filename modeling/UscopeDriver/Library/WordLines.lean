import Mathlib.Data.List.Basic

/-!
# Word writes as lines of text

A text of lines `address:data` in decimal is a list of word writes. Reading what was printed gives
the writes back (`parse_print`).
-/

namespace WordLines

/-- One write as a line. -/
def line (w : Nat × Nat) : String :=
  toString w.1 ++ ":" ++ toString w.2 ++ "\n"

/-- The lines of all writes. -/
def print (writes : List (Nat × Nat)) : String :=
  String.join (writes.map line)

/-- What has been read of a text : the whole lines, the address of the line at hand once the colon
is past, and the number at hand. -/
structure Reader where
  writes : List (Nat × Nat)
  address : Nat
  number : Nat
  deriving DecidableEq, Repr

/-- The reader after one more character. -/
def read (r : Reader) (c : Char) : Option Reader :=
  if c = ':' then some { r with address := r.number, number := 0 }
  else if c = '\n' then some ⟨r.writes ++ [(r.address, r.number)], 0, 0⟩
  else if c.isDigit then some { r with number := 10 * r.number + (c.toNat - '0'.toNat) }
  else none

/-- The writes that a text lists. -/
def parse (text : String) : Option (List (Nat × Nat)) :=
  (text.toList.foldlM read ⟨[], 0, 0⟩).map (·.writes)

/-- The digits of a number are read as the number. -/
theorem read_digits {digits : List Char} (h : ∀ c ∈ digits, c.isDigit = true) (r : Reader) :
    digits.foldlM read r = some { r with number := Nat.ofDigitChars 10 digits r.number } := by
  induction digits generalizing r with
  | nil => rfl
  | cons c digits ih =>
    have hc : c.isDigit = true := h c (by simp)
    have hcolon : c ≠ ':' := fun he => by simp [he] at hc
    have hfeed : c ≠ '\n' := fun he => by simp [he] at hc
    have hread : read r c = some { r with number := 10 * r.number + (c.toNat - '0'.toNat) } := by
      rw [read, if_neg hcolon, if_neg hfeed, if_pos hc]
    rw [List.foldlM_cons, hread, Nat.ofDigitChars_cons]
    exact ih (fun d hd => h d (by simp [hd])) _

/-- A number that is printed is read back. -/
theorem read_toString (n : Nat) {r : Reader} (h : r.number = 0) :
    (toString n).toList.foldlM read r = some { r with number := n } := by
  have hdigits : ∀ c ∈ Nat.toDigits 10 n, c.isDigit = true := fun c hc =>
    Nat.isDigit_of_mem_toDigits (by decide) (by decide) hc
  have hlist : (toString n).toList = Nat.toDigits 10 n := by
    rw [Nat.toString_eq_ofList_toDigits, String.toList_ofList]
  rw [hlist, read_digits hdigits, h, Nat.ofDigitChars_ten_toDigits]

/-- A line is read as its write. -/
theorem read_line (w : Nat × Nat) (writes : List (Nat × Nat)) :
    (line w).toList.foldlM read ⟨writes, 0, 0⟩ = some ⟨writes ++ [w], 0, 0⟩ := by
  have hline : (line w).toList =
      (toString w.1).toList ++ (':' :: ((toString w.2).toList ++ ['\n'])) := by
    simp [line]
  rw [hline, List.foldlM_append, read_toString w.1 rfl]
  change ((toString w.2).toList ++ ['\n']).foldlM read ⟨writes, w.1, 0⟩ = _
  rw [List.foldlM_append, read_toString w.2 rfl]
  rfl

/-- Lines are read as their writes. -/
theorem read_lines (ws writes : List (Nat × Nat)) :
    (ws.flatMap fun w => (line w).toList).foldlM read ⟨writes, 0, 0⟩ =
      some ⟨writes ++ ws, 0, 0⟩ := by
  induction ws generalizing writes with
  | nil => simp
  | cons w ws ih =>
    rw [List.flatMap_cons, List.foldlM_append, read_line]
    change (ws.flatMap fun w => (line w).toList).foldlM read ⟨writes ++ [w], 0, 0⟩ = _
    rw [ih, List.append_assoc]
    rfl

/-- Reading a printed list of writes gives the list. -/
theorem parse_print (ws : List (Nat × Nat)) : parse (print ws) = some ws := by
  rw [parse, print, String.toList_join, List.flatMap_map, read_lines]
  rfl

end WordLines
