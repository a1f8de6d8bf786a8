import Mathlib.Data.List.Induction
import Mathlib.Logic.Function.Basic
import Std.Data.TreeMap.Lemmas

/-!
# Memories under a list of writes

`store m ws` is the memory `m` after the writes `ws`, in order : the last write to a key wins
(`store_apply`). A map that is filled by inserting behaves in the same way
(`getElem?_foldl_insert`).
-/

namespace LastWrite

variable {K V : Type} [DecidableEq K]

/-- The memory after a list of writes. -/
def store (m : K → V) (ws : List (K × V)) : K → V :=
  ws.foldl (fun m w => Function.update m w.1 w.2) m

/-- The last value written to a key. -/
def lastValue (ws : List (K × V)) (k : K) : Option V :=
  ws.reverse.lookup k

@[simp] theorem store_nil (m : K → V) : store m [] = m := rfl

@[simp] theorem store_cons (m : K → V) (w : K × V) (ws : List (K × V)) :
    store m (w :: ws) = store (Function.update m w.1 w.2) ws := rfl

/-- Writes one list after the other. -/
theorem store_append (m : K → V) (ws ws' : List (K × V)) :
    store m (ws ++ ws') = store (store m ws) ws' := by
  simp [store]

@[simp] theorem lastValue_nil (k : K) : lastValue ([] : List (K × V)) k = none := rfl

/-- A later write counts. -/
theorem lastValue_concat (ws : List (K × V)) (w : K × V) (k : K) :
    lastValue (ws ++ [w]) k = if k = w.1 then some w.2 else lastValue ws k := by
  unfold lastValue
  rw [List.reverse_append, List.reverse_singleton, List.singleton_append, List.lookup_cons]
  by_cases h : k = w.1
  · simp [h]
  · rw [beq_eq_false_iff_ne.2 h, if_neg h]

/-- A key holds its last value, or what it held before. -/
theorem store_apply (m : K → V) (ws : List (K × V)) (k : K) :
    store m ws k = (lastValue ws k).getD (m k) := by
  induction ws using List.reverseRecOn with
  | nil => rfl
  | append_singleton ws w ih =>
    rw [store_append, lastValue_concat, store_cons, store_nil, Function.update_apply]
    by_cases h : k = w.1
    · simp [h]
    · simp [h, ih]

/-- A key that is not written has no last value. -/
theorem lastValue_eq_none {ws : List (K × V)} {k : K} :
    lastValue ws k = none ↔ k ∉ ws.map Prod.fst := by
  induction ws using List.reverseRecOn with
  | nil => simp
  | append_singleton ws w ih =>
    rw [lastValue_concat]
    by_cases h : k = w.1 <;> simp_all

/-- The last value comes from the last element that writes the key. -/
theorem lastValue_map {A : Type} (f : A → K × V) (l : List A) (k : K) :
    lastValue (l.map f) k = ((l.filter fun a => (f a).1 = k).getLast?).map fun a => (f a).2 := by
  induction l using List.reverseRecOn with
  | nil => rfl
  | append_singleton l a ih =>
    rw [List.map_append, List.map_singleton, lastValue_concat, List.filter_append, ih]
    by_cases h : (f a).1 = k
    · simp [h]
    · simp [h, Ne.symm h]

/-- The second list counts first. -/
theorem lastValue_append (ws ws' : List (K × V)) (k : K) :
    lastValue (ws ++ ws') k = (lastValue ws' k).or (lastValue ws k) := by
  induction ws' using List.reverseRecOn with
  | nil => simp
  | append_singleton ws' w ih =>
    rw [← List.append_assoc, lastValue_concat, lastValue_concat, ih]
    by_cases h : k = w.1 <;> simp [h]

/-- The first write counts last. -/
theorem lastValue_cons (w : K × V) (ws : List (K × V)) (k : K) :
    lastValue (w :: ws) k = (lastValue ws k).or (if k = w.1 then some w.2 else none) := by
  rw [← List.singleton_append, lastValue_append, ← List.nil_append [w], lastValue_concat,
    lastValue_nil]

/-- The last value was written. -/
theorem mem_of_lastValue {ws : List (K × V)} {k : K} {v : V} (h : lastValue ws k = some v) :
    (k, v) ∈ ws := by
  induction ws using List.reverseRecOn with
  | nil => simp at h
  | append_singleton ws w ih =>
    rw [lastValue_concat] at h
    split_ifs at h with hk
    · rw [hk, ← Option.some.inj h]
      simp
    · exact List.mem_append_left _ (ih h)

/-- Where a key is written the old memory does not matter. -/
theorem store_congr (m m' : K → V) {ws : List (K × V)} {k : K} (h : k ∈ ws.map Prod.fst) :
    store m ws k = store m' ws k := by
  rw [store_apply, store_apply]
  obtain ⟨v, hv⟩ := Option.ne_none_iff_exists'.1 (mt lastValue_eq_none.1 (not_not.2 h))
  rw [hv]
  rfl

/-- Earlier writes to keys that are written again do not matter. -/
theorem store_append_of_subset (m : K → V) {ws ws' : List (K × V)}
    (h : ws.map Prod.fst ⊆ ws'.map Prod.fst) : store m (ws ++ ws') = store m ws' := by
  funext k
  rw [store_append]
  by_cases hk : k ∈ ws'.map Prod.fst
  · exact store_congr _ _ hk
  · have hnone : lastValue ws k = none := lastValue_eq_none.2 (mt (@h k) hk)
    rw [store_apply _ ws', store_apply _ ws', store_apply, hnone]
    rfl

/-- The same writes again change nothing. -/
theorem store_store (m : K → V) (ws : List (K × V)) : store (store m ws) ws = store m ws := by
  rw [← store_append, store_append_of_subset m (List.Subset.refl _)]

/-- With no key written twice, every write is the last one to its key. -/
theorem lastValue_of_mem_nodup {ws : List (K × V)} (h : (ws.map Prod.fst).Nodup) {w : K × V}
    (hw : w ∈ ws) : lastValue ws w.1 = some w.2 := by
  induction ws using List.reverseRecOn with
  | nil => simp at hw
  | append_singleton ws x ih =>
    rw [List.map_append, List.nodup_append] at h
    rw [lastValue_concat]
    rcases List.mem_append.1 hw with hw | hw
    · have hne : w.1 ≠ x.1 := h.2.2 w.1 (List.mem_map_of_mem hw) x.1 (by simp)
      rw [if_neg hne]
      exact ih h.1 hw
    · rw [List.mem_singleton.1 hw, if_pos rfl]

omit [DecidableEq K] in
/-- A map after inserting the writes in order. -/
theorem getElem?_foldl_insert [Ord K] [Std.TransOrd K] [Std.LawfulEqOrd K] [DecidableEq K]
    (m : Std.TreeMap K V) (ws : List (K × V)) (k : K) :
    (ws.foldl (fun m w => m.insert w.1 w.2) m)[k]? = (lastValue ws k).or m[k]? := by
  induction ws using List.reverseRecOn with
  | nil => simp
  | append_singleton ws w ih =>
    rw [List.foldl_append, List.foldl_cons, List.foldl_nil, lastValue_concat,
      Std.TreeMap.getElem?_insert, ih]
    by_cases h : k = w.1
    · simp [h]
    · simp [h, Ne.symm h]

end LastWrite
