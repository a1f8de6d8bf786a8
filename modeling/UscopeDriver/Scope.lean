import UscopeDriver.DeployerBase

/-!
# The samples of the scope

A scope word carries a sample, its channel and the metadata word of the output it comes from.
`shunt_data` sorts the words by channel (`shuntData_eq_ok`) and `scale_data` reads the sample as an
integer of the size and sign in the metadata. The size has four bits there and the sign the fifth,
so an output of 24 bits or more is read as one of 16 bits less (`decodes_iff`).
-/

namespace UscopeDriver

/-- What `scale_data` returns : an integer times the scaling factor, or the `float` with these
bits. -/
inductive ScaledSample where
  | scaled (scalingFactor : ℚ) (sample : Int)
  | float (bits : Nat)
  deriving DecidableEq, Repr

/-- The 16 bits that a channel sends about its samples. -/
structure ChannelMetadata where
  rawMetadata : Nat
  deriving DecidableEq, Repr

namespace ChannelMetadata

/-- The width of a sample : four bits, counted from eight. -/
def getSize (m : ChannelMetadata) : Nat := u16 ((m.rawMetadata &&& 0xf) + 8)

/-- Whether samples are signed. -/
def isSigned (m : ChannelMetadata) : Bool := (m.rawMetadata &&& 0x10) >>> 4 ≠ 0

/-- Whether samples are floats. -/
def isFloat (m : ChannelMetadata) : Bool := (m.rawMetadata &&& 0x20) >>> 5 ≠ 0

end ChannelMetadata

/-- `scaling_factors` may be set to a vector of any length. -/
structure ScopeManager where
  scalingFactors : List ℚ
  deriving DecidableEq, Repr

namespace ScopeManager

/-- The channels of the scope. -/
def nChannels : Nat := 6

/-- The sample in a word. -/
def getData (number : Nat) : Nat := number &&& 0xffffffff

/-- The channel in a word. -/
def getChannel (number : Nat) : Nat := (number &&& 0x0000ffff00000000) >>> 32

/-- The metadata in a word. -/
def getMetadata (number : Nat) : Nat := (number &&& 0xffff000000000000) >>> 48

/-- `(value ^ mask) - mask`, in 32 bits. -/
def signExtend (value bits : Nat) : Int :=
  let mask := 2 ^ (bits - 1)
  int32 (sub32 ((value &&& (2 ^ bits - 1)) ^^^ mask) mask : Nat)

/-- `sample` of `scale_data`. -/
def readSample (rawSample size : Nat) (isSigned : Bool) : Int :=
  if isSigned then signExtend (rawSample &&& (2 ^ size - 1)) size
  else int32 (rawSample &&& (2 ^ size - 1) : Nat)

/-- A sample with the factor of its channel. A float is taken as it is. -/
def scaleData (rawSample size : Nat) (scalingFactor : ℚ) (isSigned isFloat : Bool) :
    ScaledSample :=
  if isFloat then .float rawSample
  else .scaled scalingFactor (readSample rawSample size isSigned)

/-- The sample of a word, with the factor of its channel. -/
def decode (rawSample : Nat) (scalingFactor : ℚ) : ScaledSample :=
  let metadata : ChannelMetadata := ⟨u16 (getMetadata rawSample)⟩
  scaleData (getData rawSample) metadata.getSize scalingFactor metadata.isSigned metadata.isFloat

/-- One round of the loop of `shunt_data`. A word of channel 6 is scaled and then dropped. -/
def shuntWord (retData : List (List ScaledSample)) (rawSample : Nat) :
    Exec Failure ScopeManager (List (List ScaledSample)) := do
  if getChannel rawSample > nChannels then pure retData
  else
    let scalingFactors ← Exec.gets (·.scalingFactors)
    let scalingFactor ← index scalingFactors (getChannel rawSample)
    let dataSample := decode rawSample scalingFactor
    if getChannel rawSample < nChannels then
      pure (retData.modify (getChannel rawSample) (· ++ [dataSample]))
    else pure retData

/-- The samples of a buffer, channel by channel. -/
def shuntData (bufferIn : List Nat) : Exec Failure ScopeManager (List (List ScaledSample)) :=
  bufferIn.foldlM shuntWord (List.replicate nChannels [])

/-! ## Sorting by channel -/

/-- The samples of a channel, in the order of the buffer. -/
def samplesOf (scalingFactors : List ℚ) (bufferIn : List Nat) (channel : Nat) :
    List ScaledSample :=
  (bufferIn.filter (getChannel · = channel)).map fun rawSample =>
    decode rawSample (scalingFactors.getD channel 0)

/-- There is a factor for every word that is scaled. -/
def HasFactors (scalingFactors : List ℚ) (bufferIn : List Nat) : Prop :=
  ∀ rawSample ∈ bufferIn, getChannel rawSample ≤ nChannels →
    getChannel rawSample < scalingFactors.length

theorem shuntWord_eq_ok {f : Nat → List ScaledSample} {rawSample : Nat} {m m' : ScopeManager}
    {ret : List (List ScaledSample)} :
    (shuntWord ((List.range nChannels).map f) rawSample).run m = .ok ret m' ↔
      HasFactors m.scalingFactors [rawSample] ∧ m' = m ∧
        ret = (List.range nChannels).map fun channel =>
          f channel ++ samplesOf m.scalingFactors [rawSample] channel := by
  have hfactors : HasFactors m.scalingFactors [rawSample] ↔
      (getChannel rawSample ≤ nChannels → getChannel rawSample < m.scalingFactors.length) := by
    simp [HasFactors]
  have hsamples : ∀ channel, samplesOf m.scalingFactors [rawSample] channel =
      if getChannel rawSample = channel then
        [decode rawSample (m.scalingFactors.getD channel 0)] else [] := by
    intro channel
    by_cases h : getChannel rawSample = channel <;> simp [samplesOf, h]
  have hskip : nChannels ≤ getChannel rawSample → (List.range nChannels).map (fun channel =>
      f channel ++ samplesOf m.scalingFactors [rawSample] channel) =
        (List.range nChannels).map f := by
    refine fun hle => List.map_congr_left fun channel hc => ?_
    rw [hsamples, if_neg (by have := List.mem_range.1 hc; omega), List.append_nil]
  unfold shuntWord
  rw [hfactors]
  by_cases hgt : getChannel rawSample > nChannels
  · rw [if_pos hgt, Exec.pure_eq_ok, hskip hgt.le]
    simp only [not_le.2 hgt, false_imp_iff, true_and, eq_comm, and_comm]
  · simp only [if_neg hgt, Exec.bind_eq_ok, Exec.gets_eq_ok, index_eq_ok (0 : ℚ), not_lt.1 hgt,
      true_imp_iff, and_assoc, exists_and_left, exists_eq_left]
    refine and_congr_right fun hlt => ?_
    by_cases hc : getChannel rawSample < nChannels
    · have hmodify : ((List.range nChannels).map f).modify (getChannel rawSample)
          (· ++ [decode rawSample (m.scalingFactors.getD (getChannel rawSample) 0)]) =
            (List.range nChannels).map fun channel =>
              f channel ++ samplesOf m.scalingFactors [rawSample] channel := by
        refine List.ext_getElem (by simp) fun i h₁ h₂ => ?_
        by_cases hi : getChannel rawSample = i <;> simp [hsamples, hi]
      rw [if_pos hc, Exec.pure_eq_ok, hmodify]
      simp only [eq_comm, and_comm]
    · rw [if_neg hc, Exec.pure_eq_ok, hskip (not_lt.1 hc)]
      simp only [eq_comm, and_comm]

theorem foldlM_shuntWord_eq_ok {bufferIn : List Nat} {m m' : ScopeManager}
    {ret : List (List ScaledSample)} : ∀ {f : Nat → List ScaledSample},
    (bufferIn.foldlM shuntWord ((List.range nChannels).map f)).run m = .ok ret m' ↔
      HasFactors m.scalingFactors bufferIn ∧ m' = m ∧
        ret = (List.range nChannels).map fun channel =>
          f channel ++ samplesOf m.scalingFactors bufferIn channel := by
  induction bufferIn with
  | nil =>
    intro f
    simp only [List.foldlM_nil, Exec.pure_eq_ok, HasFactors, samplesOf, List.filter_nil,
      List.map_nil, List.append_nil, List.not_mem_nil, false_imp_iff, implies_true, true_and]
    simp only [eq_comm, and_comm]
  | cons rawSample bufferIn ih =>
    intro f
    have hfactors : HasFactors m.scalingFactors (rawSample :: bufferIn) ↔
        HasFactors m.scalingFactors [rawSample] ∧ HasFactors m.scalingFactors bufferIn := by
      simp [HasFactors]
    have hsamples : ∀ channel, samplesOf m.scalingFactors (rawSample :: bufferIn) channel =
        samplesOf m.scalingFactors [rawSample] channel ++
          samplesOf m.scalingFactors bufferIn channel := by
      intro channel
      rw [samplesOf, samplesOf, samplesOf, ← List.map_append, ← List.filter_append]
      rfl
    simp only [List.foldlM_cons, Exec.bind_eq_ok, shuntWord_eq_ok, and_assoc, exists_and_left,
      exists_eq_left, ih, hfactors, hsamples, List.append_assoc]

theorem shuntData_eq_ok {bufferIn : List Nat} {m m' : ScopeManager}
    {ret : List (List ScaledSample)} :
    (shuntData bufferIn).run m = .ok ret m' ↔
      HasFactors m.scalingFactors bufferIn ∧ m' = m ∧
        ret = (List.range nChannels).map (samplesOf m.scalingFactors bufferIn) := by
  have hempty : List.replicate nChannels ([] : List ScaledSample) =
    (List.range nChannels).map fun _ => [] := rfl
  rw [shuntData, hempty, foldlM_shuntWord_eq_ok]
  simp only [List.nil_append]

/-! ## Reading a sample -/

theorem xor_two_pow {x k : Nat} (h : x < 2 ^ (k + 1)) :
    x ^^^ 2 ^ k = if x < 2 ^ k then x + 2 ^ k else x - 2 ^ k := by
  have hpos : 0 < 2 ^ k := Nat.two_pow_pos k
  have hdiv : (x ^^^ 2 ^ k) / 2 ^ k = x / 2 ^ k ^^^ 1 := by
    rw [Nat.xor_div_two_pow, Nat.div_self hpos]
  have hmod : (x ^^^ 2 ^ k) % 2 ^ k = x % 2 ^ k := by
    rw [Nat.xor_mod_two_pow, Nat.mod_self, Nat.xor_zero]
  have hsplit := Nat.div_add_mod (x ^^^ 2 ^ k) (2 ^ k)
  rw [hdiv, hmod] at hsplit
  rw [Nat.pow_succ] at h
  by_cases hx : x < 2 ^ k
  · rw [Nat.div_eq_of_lt hx, Nat.mod_eq_of_lt hx] at hsplit
    rw [if_pos hx, ← hsplit]
    simp [Nat.add_comm]
  · have hone : x / 2 ^ k = 1 := by
      rw [Nat.div_eq_iff hpos]
      omega
    rw [hone] at hsplit
    have hrest := Nat.div_add_mod x (2 ^ k)
    rw [hone] at hrest
    rw [if_neg hx, ← hsplit]
    simp only [Nat.xor_self, Nat.mul_zero, Nat.zero_add]
    omega

/-- Sign extension is the balanced residue. -/
theorem signExtend_eq {value bits : Nat} (h : 0 < bits) (h' : bits ≤ 31) :
    signExtend value bits = (value : Int).bmod (2 ^ bits) := by
  obtain ⟨k, rfl⟩ : ∃ k, bits = k + 1 := ⟨bits - 1, by omega⟩
  have hk : 2 ^ k ≤ 2 ^ 30 := Nat.pow_le_pow_right (by decide) (by omega)
  have hlt : value % 2 ^ (k + 1) < 2 ^ (k + 1) := Nat.mod_lt _ (Nat.two_pow_pos _)
  have hcast : (value : Int) % ((2 ^ (k + 1) : Nat) : Int) =
      ((value % 2 ^ (k + 1) : Nat) : Int) := by
    push_cast
    rfl
  rw [signExtend, Nat.and_two_pow_sub_one_eq_mod, Nat.add_sub_cancel, xor_two_pow hlt, Int.bmod_def,
    hcast]
  generalize value % 2 ^ (k + 1) = y at hlt
  rw [Nat.pow_succ] at hlt ⊢
  generalize 2 ^ k = half at hk hlt
  unfold sub32 u32 int32
  rw [Int.bmod_def]
  split_ifs <;> omega

theorem readSample_eq {rawSample size : Nat} (h : 0 < size) (h' : size ≤ 30) (isSigned : Bool) :
    readSample rawSample size isSigned =
      if isSigned then (rawSample : Int).bmod (2 ^ size) else (rawSample : Int) % 2 ^ size := by
  rw [readSample, Nat.and_two_pow_sub_one_eq_mod, signExtend_eq h (by omega)]
  have hcast : ((rawSample % 2 ^ size : Nat) : Int) = (rawSample : Int) % 2 ^ size := by
    push_cast
    rfl
  have hlt : rawSample % 2 ^ size < 2 ^ 30 :=
    (Nat.mod_lt _ (Nat.two_pow_pos _)).trans_le (Nat.pow_le_pow_right (by decide) h')
  cases isSigned with
  | true =>
    have hbmod := Int.emod_bmod (rawSample : Int) (2 ^ size)
    push_cast at hbmod
    rw [if_pos rfl, if_pos rfl, hcast, hbmod]
  | false =>
    rw [if_neg nofun, if_neg nofun, ← hcast, int32, Int.bmod_def]
    omega

/-! ## Outputs -/

/-- The integers of an output of `width` bits. -/
def Representable (width : Nat) (isSigned : Bool) (v : Int) : Prop :=
  if isSigned then -2 ^ (width - 1) ≤ v ∧ v < 2 ^ (width - 1) else 0 ≤ v ∧ v < 2 ^ width

instance (width : Nat) (isSigned : Bool) (v : Int) :
    Decidable (Representable width isSigned v) := by
  unfold Representable
  infer_instance

/-- What the metadata word of an integer output says : from 24 bits on, the size wraps and sets
the sign. -/
theorem metadata_of_width : ∀ width < 33, 8 ≤ width → ∀ isSigned : Bool,
    let m : ChannelMetadata := ⟨u16 (getMetadataValue width isSigned false)⟩
    m.getSize = (if width ≤ 23 then width else width - 16) ∧
      m.isSigned = (isSigned || decide (24 ≤ width)) ∧ m.isFloat = false := by
  decide

theorem bmod_eq_self_iff {v : Int} {k : Nat} :
    v.bmod (2 ^ (k + 1)) = v ↔ -2 ^ k ≤ v ∧ v < 2 ^ k := by
  have hpos : 0 < 2 ^ k := Nat.two_pow_pos k
  have hcast : ((2 : Int) ^ k) = ((2 ^ k : Nat) : Int) := by
    push_cast
    rfl
  rw [hcast, Nat.pow_succ]
  generalize 2 ^ k = half at hpos
  constructor
  · intro h
    have hle := Int.le_bmod (x := v) (m := half * 2) (by omega)
    have hlt := Int.bmod_lt (x := v) (m := half * 2) (by omega)
    rw [h] at hle hlt
    omega
  · rintro ⟨hle, hlt⟩
    exact Int.bmod_eq_of_le (by omega) (by omega)

/-- An integer read with fewer or as many bits as it was written with. -/
theorem readSample_of_encoding {rawSample width size : Nat} (hpos : 0 < size) (hle : size ≤ 30)
    (hwidth : size ≤ width) {v : Int} (hdata : (rawSample : Int) % 2 ^ width = v % 2 ^ width)
    (isSigned : Bool) :
    readSample rawSample size isSigned =
      if isSigned then v.bmod (2 ^ size) else v % 2 ^ size := by
  have hdvd : (2 : Int) ^ size ∣ 2 ^ width := pow_dvd_pow 2 hwidth
  have hmod : (rawSample : Int) % 2 ^ size = v % 2 ^ size := by
    rw [← Int.emod_emod_of_dvd _ hdvd, hdata, Int.emod_emod_of_dvd _ hdvd]
  have hbmod : (rawSample : Int).bmod (2 ^ size) = v.bmod (2 ^ size) := by
    have hcast : ((2 ^ size : Nat) : Int) = 2 ^ size := by push_cast; rfl
    rw [← Int.emod_bmod, hcast, hmod, ← hcast, Int.emod_bmod]
  rw [readSample_eq hpos hle, hmod, hbmod]

/-- The sample of a word is where the words of its channel before it put it. -/
theorem samplesOf_getElem? (scalingFactors : List ℚ) (before after : List Nat) (word : Nat) :
    (samplesOf scalingFactors (before ++ word :: after) (getChannel word))[before.countP
      (getChannel · = getChannel word)]? =
        some (decode word (scalingFactors.getD (getChannel word) 0)) := by
  rw [samplesOf, List.filter_append, List.map_append, List.getElem?_append_right, List.length_map,
    ← List.countP_eq_length_filter, Nat.sub_self, List.filter_cons_of_pos (by simp)]
  · rfl
  · rw [List.length_map, ← List.countP_eq_length_filter]

theorem decode_of_metadata {width : Nat} (hmin : 8 ≤ width) (hmax : width ≤ 32) {isSigned : Bool}
    {word : Nat} (hmetadata : getMetadata word = getMetadataValue width isSigned false)
    (scalingFactor : ℚ) :
    decode word scalingFactor = .scaled scalingFactor
      (readSample (getData word) (if width ≤ 23 then width else width - 16)
        (isSigned || decide (24 ≤ width))) := by
  obtain ⟨hsize, hsigned, hfloat⟩ := metadata_of_width width (by omega) hmin isSigned
  simp only [decode, hmetadata, scaleData, hsize, hsigned, hfloat, Bool.false_eq_true, if_false]

theorem readSample_eq_iff {width : Nat} (hmin : 8 ≤ width) (hmax : width ≤ 32) {isSigned : Bool}
    {v : Int} (hv : Representable width isSigned v) {rawSample : Nat}
    (hdata : (rawSample : Int) % 2 ^ width = v % 2 ^ width) :
    readSample rawSample (if width ≤ 23 then width else width - 16)
        (isSigned || decide (24 ≤ width)) = v ↔
      width ≤ 23 ∨ -2 ^ (width - 17) ≤ v ∧ v < 2 ^ (width - 17) := by
  by_cases hw : width ≤ 23
  · have hwide : decide (24 ≤ width) = false := decide_eq_false (by omega)
    rw [if_pos hw, hwide, Bool.or_false, readSample_of_encoding (by omega) (by omega) le_rfl hdata]
    refine iff_of_true ?_ (Or.inl hw)
    obtain ⟨k, rfl⟩ : ∃ k, width = k + 1 := ⟨width - 1, by omega⟩
    cases isSigned with
    | true => exact bmod_eq_self_iff.2 hv
    | false => exact Int.emod_eq_of_lt hv.1 hv.2
  · have hwide : decide (24 ≤ width) = true := decide_eq_true (by omega)
    rw [if_neg hw, hwide, Bool.or_true,
      readSample_of_encoding (by omega) (by omega) (Nat.sub_le _ _) hdata, if_pos rfl]
    obtain ⟨k, rfl⟩ : ∃ k, width = k + 17 := ⟨width - 17, by omega⟩
    have hsize : k + 17 - 16 = k + 1 := by omega
    rw [hsize, bmod_eq_self_iff, Nat.add_sub_cancel]
    exact (or_iff_right hw).symm

/-- A word with the metadata of an integer output and the encoding of `v` is read as `v` just when
the output has at most 23 bits, or `v` fits 16 bits less as a signed integer. -/
theorem decodes_iff {width : Nat} (hmin : 8 ≤ width) (hmax : width ≤ 32) {isSigned : Bool} {v : Int}
    (hv : Representable width isSigned v) {word : Nat}
    (hmetadata : getMetadata word = getMetadataValue width isSigned false)
    (hchannel : getChannel word < nChannels)
    (hdata : (getData word : Int) % 2 ^ width = v % 2 ^ width) {m : ScopeManager}
    {before after : List Nat} (hfactors : HasFactors m.scalingFactors (before ++ word :: after)) :
    ∃ ret x, (shuntData (before ++ word :: after)).run m = .ok ret m ∧
      (ret.getD (getChannel word) [])[before.countP (getChannel · = getChannel word)]? =
        some (.scaled (m.scalingFactors.getD (getChannel word) 0) x) ∧
      (x = v ↔ width ≤ 23 ∨ -2 ^ (width - 17) ≤ v ∧ v < 2 ^ (width - 17)) := by
  refine ⟨_, _, shuntData_eq_ok.2 ⟨hfactors, rfl, rfl⟩, ?_, readSample_eq_iff hmin hmax hv hdata⟩
  rw [List.getD_eq_getElem?_getD, List.getElem?_map, List.getElem?_range hchannel, Option.map_some,
    Option.getD_some, samplesOf_getElem?, decode_of_metadata hmin hmax hmetadata]

theorem decodes_16_bits : ∃ ret x, (shuntData [0x001800000000FFFB]).run ⟨[1, 1, 1, 1, 1, 1]⟩ =
    .ok ret ⟨[1, 1, 1, 1, 1, 1]⟩ ∧ (ret.getD 0 [])[0]? = some (.scaled 1 x) ∧ x = -5 := by
  obtain ⟨ret, x, hrun, hsample, hx⟩ := @decodes_iff 16 (by decide) (by decide) true (-5)
    (by decide) 0x001800000000FFFB (by decide) (by decide) (by decide) ⟨[1, 1, 1, 1, 1, 1]⟩ [] []
    (by simp [HasFactors, nChannels, getChannel])
  exact ⟨ret, x, hrun, hsample, hx.2 (Or.inl (by decide))⟩

/-- The value 100000 of a signed output of 32 bits is read as -31072. -/
theorem decodes_32_bits_wrong : Representable 32 true 100000 ∧
    getMetadata 0x00180000000186A0 = getMetadataValue 32 true false ∧
    getChannel 0x00180000000186A0 = 0 ∧ getData 0x00180000000186A0 = 100000 ∧
    ((shuntData [0x00180000000186A0]).run ⟨[1, 1, 1, 1, 1, 1]⟩ =
      .ok [[.scaled 1 (-31072)], [], [], [], [], []] ⟨[1, 1, 1, 1, 1, 1]⟩) :=
  ⟨by decide, by decide, by decide, by decide, by rfl⟩

end ScopeManager

end UscopeDriver
