import Mathlib.Data.List.Nodup
import Mathlib.Data.List.Range
import UscopeDriver.Library.LastWrite

/-!
# Blocks of words in a memory

A block of words is written one after the other from a start address on. Blocks that do not overlap
can all be read back, in whatever order they were written (`store_blocks`), and what is in none of
them is as before (`store_blocks_of_apart`).
-/

namespace LastWrite

variable {V : Type}

/-- The writes of a block. -/
def block (start : Nat) (words : List V) : List (Nat × V) :=
  words.zipIdx.map fun word => (start + word.2, word.1)

/-- The keys of a block are consecutive. -/
theorem keys_block (start : Nat) (words : List V) :
    (block start words).map Prod.fst = List.range' start words.length := by
  have hkeys : (block start words).map Prod.fst = (words.zipIdx.map Prod.snd).map (start + ·) := by
    rw [block, List.map_map, List.map_map]
    rfl
  rw [hkeys, List.zipIdx_map_snd, List.map_add_range', Nat.add_zero]

/-- Each word is under its key. -/
theorem mem_block {start i : Nat} {words : List V} (hi : i < words.length) :
    (start + i, words[i]) ∈ block start words :=
  List.mem_map.2 ⟨(words[i], i), List.mem_zipIdx_iff_getElem?.2 (by simp [hi]), rfl⟩

/-- The writes of blocks, each with its start. -/
def blocks (bs : List (Nat × List V)) : List (Nat × V) :=
  bs.flatMap fun b => block b.1 b.2

/-- No two blocks have an address in common. -/
def Apart (bs : List (Nat × List V)) : Prop :=
  bs.Pairwise fun b b' => b.1 + b.2.length ≤ b'.1 ∨ b'.1 + b'.2.length ≤ b.1

instance (bs : List (Nat × List V)) : Decidable (Apart bs) :=
  inferInstanceAs (Decidable (List.Pairwise _ bs))

/-- The keys of several blocks. -/
theorem keys_blocks (bs : List (Nat × List V)) :
    (blocks bs).map Prod.fst = bs.flatMap fun b => List.range' b.1 b.2.length := by
  simp [blocks, List.map_flatMap, keys_block]

/-- Blocks that are apart have no key in common. -/
theorem Apart.nodup {bs : List (Nat × List V)} (h : Apart bs) :
    ((blocks bs).map Prod.fst).Nodup := by
  rw [keys_blocks, List.nodup_flatMap]
  refine ⟨fun b _ => List.nodup_range', h.imp fun {b b'} hapart => ?_⟩
  intro k hk hk'
  simp only [List.mem_range'_1] at hk hk'
  omega

/-- Every word of a block is in its place. -/
theorem store_blocks {bs : List (Nat × List V)} (h : Apart bs) (m : Nat → V)
    {b : Nat × List V} (hb : b ∈ bs) {i : Nat} (hi : i < b.2.length) :
    store m (blocks bs) (b.1 + i) = b.2[i] := by
  have hword : (b.1 + i, b.2[i]) ∈ blocks bs := List.mem_flatMap.2 ⟨b, hb, mem_block hi⟩
  rw [store_apply, lastValue_of_mem_nodup h.nodup hword]
  rfl

/-- A key outside the blocks keeps its value. -/
theorem store_blocks_of_apart {bs : List (Nat × List V)} (m : Nat → V) {k : Nat}
    (h : ∀ b ∈ bs, k < b.1 ∨ b.1 + b.2.length ≤ k) : store m (blocks bs) k = m k := by
  have hnone : lastValue (blocks bs) k = none := by
    rw [lastValue_eq_none, keys_blocks, List.mem_flatMap]
    rintro ⟨b, hb, hk⟩
    have hapart := h b hb
    rw [List.mem_range'_1] at hk
    omega
  rw [store_apply, hnone]
  rfl

end LastWrite
