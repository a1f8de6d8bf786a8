import UscopeDriver.Toolchain
import Mathlib.Data.Finset.Card
import Mathlib.Order.Interval.Finset.Nat

/-!
# Free addresses of the bus map

`get_free_address` keeps an address that no entry has as its destination. Otherwise it tries the
addresses from the number of entries on, and never those below. So it can throw while there are
free addresses (`allocates_iff`), but not for a map with less than `2 ^ 15` entries
(`allocates_of_length_lt`).
-/

namespace UscopeDriver

namespace HilBusMap

variable (busMap : List DeployerInterconnectSlot)

/-- No entry has the address as its destination. -/
def isBusAddressFree (addr : UInt16) : Bool :=
  !busMap.any fun e => e.destinationBusAddress.toNat = addr.toNat

/-- The counter of the search has 32 bits and starts at the number of entries. -/
def getFreeAddress (originalAddr : UInt16) : Except Failure UInt16 :=
  if isBusAddressFree busMap originalAddr then .ok originalAddr
  else
    let i := u32 busMap.length
    match (List.range' i (2 ^ 16 - i)).find? fun i => isBusAddressFree busMap (UInt16.ofNat i) with
    | some i => .ok (UInt16.ofNat i)
    | none => .error (.runtimeError "Unable to find free bus address")

variable {busMap}

/-- An address is free if no slot has it as its destination. -/
theorem isBusAddressFree_iff {addr : UInt16} : isBusAddressFree busMap addr ↔
    ∀ e ∈ busMap, e.destinationBusAddress.toNat ≠ addr.toNat := by
  simp [isBusAddressFree]

/-- An address that is in use is replaced by one that the search tries, if any of these is free. -/
theorem getFreeAddress_of_used {originalAddr : UInt16}
    (h : ¬isBusAddressFree busMap originalAddr) :
    (∃ addr : UInt16, u32 busMap.length ≤ addr.toNat ∧ isBusAddressFree busMap addr ∧
        getFreeAddress busMap originalAddr = .ok addr) ∨
      (∃ e, getFreeAddress busMap originalAddr = .error e) ∧
        ∀ addr : UInt16, u32 busMap.length ≤ addr.toNat → ¬isBusAddressFree busMap addr := by
  rw [getFreeAddress, if_neg h]
  cases hfind : (List.range' (u32 busMap.length) (2 ^ 16 - u32 busMap.length)).find? fun i =>
      isBusAddressFree busMap (UInt16.ofNat i) with
  | some i =>
    obtain ⟨hfree, hrange, -⟩ := List.find?_range'_eq_some.1 hfind
    rw [List.mem_range'_1] at hrange
    have hi : (UInt16.ofNat i).toNat = i := UInt16.toNat_ofNat_of_lt' (by
      rw [UInt16.size]
      omega)
    exact Or.inl ⟨UInt16.ofNat i, by omega, hfree, by simp only [hfind]⟩
  | none =>
    refine Or.inr ⟨⟨_, by simp only [hfind]; rfl⟩, fun addr hle hfree => ?_⟩
    have hlt := addr.toNat_lt
    have hnone := List.find?_range'_eq_none.1 hfind addr.toNat hle (by omega)
    rw [UInt16.ofNat_toNat] at hnone
    simp [hfree] at hnone

/-- The call gives the address that it is asked for when it is free, a free one otherwise, and
throws only where there is none. -/
structure Allocates (busMap : List DeployerInterconnectSlot) (originalAddr : UInt16) : Prop where
  kept : isBusAddressFree busMap originalAddr →
    getFreeAddress busMap originalAddr = .ok originalAddr
  sound : ∀ addr, getFreeAddress busMap originalAddr = .ok addr → isBusAddressFree busMap addr
  complete : ∀ e, getFreeAddress busMap originalAddr = .error e →
    ∀ addr, ¬isBusAddressFree busMap addr

/-- The search misses the free addresses below the number of entries. -/
theorem allocates_iff (busMap : List DeployerInterconnectSlot) (originalAddr : UInt16) :
    Allocates busMap originalAddr ↔
      isBusAddressFree busMap originalAddr ∨
      (∃ addr : UInt16, u32 busMap.length ≤ addr.toNat ∧ isBusAddressFree busMap addr) ∨
      ∀ addr, ¬isBusAddressFree busMap addr := by
  by_cases hfree : isBusAddressFree busMap originalAddr
  · have hrun : getFreeAddress busMap originalAddr = .ok originalAddr := if_pos hfree
    refine iff_of_true ⟨fun _ => hrun, fun addr h => ?_, fun e h => ?_⟩ (Or.inl hfree)
    · rw [hrun] at h
      exact Except.ok.inj h ▸ hfree
    · rw [hrun] at h
      cases h
  rw [or_iff_right hfree]
  rcases getFreeAddress_of_used hfree with ⟨addr, hle, haddr, hrun⟩ | ⟨⟨e, hrun⟩, hnone⟩
  · refine iff_of_true ⟨fun h => absurd h hfree, fun addr' h => ?_, fun e h => ?_⟩
      (Or.inl ⟨addr, hle, haddr⟩)
    · rw [hrun] at h
      exact Except.ok.inj h ▸ haddr
    · rw [hrun] at h
      cases h
  · constructor
    · exact fun h => Or.inr (h.complete e hrun)
    · rintro (⟨addr, hle, haddr⟩ | hall)
      · exact absurd haddr (hnone addr hle)
      · refine ⟨fun h => absurd h hfree, fun addr h => ?_, fun _ _ => hall⟩
        rw [hrun] at h
        cases h

/-- The addresses from the number of entries on are more than the entries, so one is free. -/
theorem allocates_of_length_lt (h : busMap.length < 2 ^ 15) (originalAddr : UInt16) :
    Allocates busMap originalAddr := by
  have hlength : u32 busMap.length = busMap.length := u32_of_lt (h.trans (by norm_num))
  have hused : ((busMap.map fun e => e.destinationBusAddress.toNat).toFinset).card ≤
      busMap.length := (List.toFinset_card_le _).trans_eq (List.length_map _)
  have htried : (Finset.Ico busMap.length (2 ^ 16)).card = 2 ^ 16 - busMap.length :=
    Nat.card_Ico _ _
  obtain ⟨i, hi, hfree⟩ := Finset.exists_mem_notMem_of_card_lt_card
    (hused.trans_lt (by omega : busMap.length < (Finset.Ico busMap.length (2 ^ 16)).card))
  rw [Finset.mem_Ico] at hi
  have hnat : (UInt16.ofNat i).toNat = i := UInt16.toNat_ofNat_of_lt' hi.2
  refine (allocates_iff busMap originalAddr).2 (Or.inr (Or.inl ⟨UInt16.ofNat i, by omega, ?_⟩))
  rw [isBusAddressFree_iff, hnat]
  intro e he heq
  exact hfree (List.mem_toFinset.2 (List.mem_map.2 ⟨e, he, heq⟩))

/-- An entry for each of the upper addresses. -/
def upperHalf : List DeployerInterconnectSlot :=
  (List.range' (2 ^ 15) (2 ^ 15)).map fun i =>
    ⟨"core", "out", "", "", 3, 0, UInt32.ofNat i, 0, ⟨.typeFloat, 32, true⟩⟩

/-- With the upper half taken, the lower one is free. -/
theorem isBusAddressFree_upperHalf {addr : UInt16} :
    isBusAddressFree upperHalf addr ↔ addr.toNat < 2 ^ 15 := by
  have hlt := addr.toNat_lt
  rw [isBusAddressFree_iff, upperHalf, List.forall_mem_map]
  constructor
  · intro h
    by_contra hle
    refine h addr.toNat (List.mem_range'_1.2 (by omega)) ?_
    exact UInt32.toNat_ofNat_of_lt' (hlt.trans (by decide))
  · intro h i hi
    rw [List.mem_range'_1] at hi
    have hnat : (UInt32.ofNat i).toNat = i := UInt32.toNat_ofNat_of_lt' (by
      rw [UInt32.size]
      omega)
    rw [hnat]
    omega

/-- The lower half of the addresses is free, and none of them is found. -/
theorem not_allocates_upperHalf : ¬Allocates upperHalf (UInt16.ofNat (2 ^ 15)) := by
  have hlength : upperHalf.length = 2 ^ 15 := by
    rw [upperHalf, List.length_map, List.length_range']
  rw [allocates_iff, hlength]
  rintro (hfree | ⟨addr, hle, hfree⟩ | hall)
  · exact absurd (isBusAddressFree_upperHalf.1 hfree) (by decide)
  · have hlt := isBusAddressFree_upperHalf.1 hfree
    rw [u32_of_lt (by norm_num)] at hle
    omega
  · exact hall 0 (isBusAddressFree_upperHalf.2 (by decide))

end HilBusMap

end UscopeDriver
