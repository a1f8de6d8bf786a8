import UscopeDriver.ScopeEndpoints

/-!
# From the scope device to the client

The device hands over words, which a source builds with `channel_metadata`. The samples of a
channel are those of its words, each read with the size and the sign that were set last
(`demultiplexes_faithfully`). Two things are not checked on the way : the number of the factors
against the channels (`decode_in_range_iff`), and how much of the buffer a read has filled
(`reports_only_read_iff`).
-/

namespace UscopeDriver

namespace ChannelMetadata

/-! ## The source of the words -/

/-- The sign bit. -/
def setSigned (s : Bool) (m : ChannelMetadata) : ChannelMetadata :=
  if s then ⟨m.rawMetadata ||| 0x10⟩ else ⟨m.rawMetadata &&& 0xffef⟩

/-- The width, of which four bits are kept. -/
def setSize (s : Nat) (m : ChannelMetadata) : ChannelMetadata :=
  ⟨u16 ((m.rawMetadata &&& 0xfff0) ||| (sub32 s 8 &&& 0x000F))⟩

/-- The float bit. -/
def setFloat (f : Bool) (m : ChannelMetadata) : ChannelMetadata :=
  if f then ⟨m.rawMetadata ||| 0x20⟩ else ⟨m.rawMetadata &&& 0xffdf⟩

/-- The upper half of a word : the metadata and the destination. -/
def getHighSideField (m : ChannelMetadata) (dest : Nat) : Nat :=
  (u32 (m.rawMetadata <<< 16) ||| dest) <<< 32

/-- A call of a setter. -/
inductive Setter where
  | setSize (s : Nat)
  | setSigned (s : Bool)
  | setFloat (f : Bool)
  deriving DecidableEq, Repr

/-- What a setter does to the metadata. -/
def Setter.call : Setter → ChannelMetadata → ChannelMetadata
  | .setSize s => ChannelMetadata.setSize s
  | .setSigned s => ChannelMetadata.setSigned s
  | .setFloat f => ChannelMetadata.setFloat f

/-- The metadata after some calls. -/
def afterCalls (calls : List Setter) : ChannelMetadata :=
  calls.foldl (fun m c => c.call m) ⟨0⟩

end ChannelMetadata

/-- What a channel is set to. -/
structure SampleFormat where
  size : Nat := 8
  isSigned : Bool := false
  isFloat : Bool := false
  deriving DecidableEq, Repr

namespace SampleFormat

open ChannelMetadata

/-- What a setter does to the format. -/
def set (format : SampleFormat) : Setter → SampleFormat
  | .setSize s => { format with size := s }
  | .setSigned s => { format with isSigned := s }
  | .setFloat f => { format with isFloat := f }

/-- The last call of each setter. -/
def ofCalls (calls : List Setter) : SampleFormat :=
  calls.foldl set {}

/-- The sizes that fit the metadata. -/
def Admits : Setter → Prop
  | .setSize s => 8 ≤ s ∧ s ≤ 23
  | .setSigned _ | .setFloat _ => True

/-- The metadata says the format and nothing else. -/
structure Encoded (m : ChannelMetadata) (format : SampleFormat) : Prop where
  rawMetadata : m.rawMetadata < 64
  size : m.getSize = format.size
  isSigned : m.isSigned = format.isSigned
  isFloat : m.isFloat = format.isFloat

theorem setSize_fields : ∀ raw < 64, ∀ s < 24, 8 ≤ s →
    let m : ChannelMetadata := ⟨raw⟩
    (m.setSize s).rawMetadata < 64 ∧ (m.setSize s).getSize = s ∧
      (m.setSize s).isSigned = m.isSigned ∧ (m.setSize s).isFloat = m.isFloat := by
  decide +kernel

theorem setSigned_fields : ∀ raw < 64, ∀ s : Bool,
    let m : ChannelMetadata := ⟨raw⟩
    (m.setSigned s).rawMetadata < 64 ∧ (m.setSigned s).getSize = m.getSize ∧
      (m.setSigned s).isSigned = s ∧ (m.setSigned s).isFloat = m.isFloat := by
  decide +kernel

theorem setFloat_fields : ∀ raw < 64, ∀ f : Bool,
    let m : ChannelMetadata := ⟨raw⟩
    (m.setFloat f).rawMetadata < 64 ∧ (m.setFloat f).getSize = m.getSize ∧
      (m.setFloat f).isSigned = m.isSigned ∧ (m.setFloat f).isFloat = f := by
  decide +kernel

/-- A setter changes its own field. -/
theorem Encoded.call {m : ChannelMetadata} {format : SampleFormat} (h : Encoded m format)
    {c : Setter} (hc : Admits c) : Encoded (c.call m) (format.set c) := by
  obtain ⟨hraw, hsize, hsigned, hfloat⟩ := h
  rcases c with s | s | f
  · obtain ⟨h₁, h₂, h₃, h₄⟩ := setSize_fields m.rawMetadata hraw s (Nat.lt_succ_of_le hc.2) hc.1
    exact ⟨h₁, h₂, h₃.trans hsigned, h₄.trans hfloat⟩
  · obtain ⟨h₁, h₂, h₃, h₄⟩ := setSigned_fields m.rawMetadata hraw s
    exact ⟨h₁, h₂.trans hsize, h₃, h₄.trans hfloat⟩
  · obtain ⟨h₁, h₂, h₃, h₄⟩ := setFloat_fields m.rawMetadata hraw f
    exact ⟨h₁, h₂.trans hsize, h₃.trans hsigned, h₄⟩

/-- The format always fits the metadata, and the size a sample. -/
theorem encoded_afterCalls {calls : List Setter} (h : ∀ c ∈ calls, Admits c) :
    Encoded (afterCalls calls) (ofCalls calls) ∧
      8 ≤ (ofCalls calls).size ∧ (ofCalls calls).size ≤ 23 := by
  have hstep : ∀ {m : ChannelMetadata} {format : SampleFormat}, Encoded m format →
      8 ≤ format.size ∧ format.size ≤ 23 →
      Encoded (calls.foldl (fun m c => c.call m) m) (calls.foldl set format) ∧
        8 ≤ (calls.foldl set format).size ∧ (calls.foldl set format).size ≤ 23 := by
    induction calls with
    | nil => exact fun hm hsize => ⟨hm, hsize⟩
    | cons c calls ih =>
      intro m format hm hsize
      rw [List.forall_mem_cons] at h
      refine ih h.2 (hm.call h.1) ?_
      rcases c with s | s | f
      · exact h.1
      · exact hsize
      · exact hsize
  exact hstep ⟨by decide, rfl, rfl, rfl⟩ (by decide)

/-- What a sample with this format stands for. -/
def read (format : SampleFormat) (data : Nat) (scalingFactor : ℚ) : ScaledSample :=
  if format.isFloat then .float data
  else .scaled scalingFactor
    (if format.isSigned then (data : Int).bmod (2 ^ format.size)
      else (data : Int) % 2 ^ format.size)

end SampleFormat

namespace ScopeManager

open ChannelMetadata SampleFormat

/-! ## Words -/

/-- The parts of a word do not overlap. -/
theorem or_eq_add {raw dest data : Nat} (hdest : dest < 2 ^ 16) (hdata : data < 2 ^ 32) :
    ((raw <<< 16 ||| dest) <<< 32) ||| data = raw * 2 ^ 48 + dest * 2 ^ 32 + data := by
  rw [← Nat.shiftLeft_add_eq_or_of_lt hdest]
  rw [← Nat.shiftLeft_add_eq_or_of_lt hdata, Nat.shiftLeft_eq, Nat.shiftLeft_eq]
  omega

theorem word_eq {m : ChannelMetadata} (hm : m.rawMetadata < 2 ^ 16) {dest data : Nat}
    (hdest : dest < 2 ^ 16) (hdata : data < 2 ^ 32) :
    m.getHighSideField dest ||| data = m.rawMetadata * 2 ^ 48 + dest * 2 ^ 32 + data := by
  have hfits : u32 (m.rawMetadata <<< 16) = m.rawMetadata <<< 16 := by
    rw [Nat.shiftLeft_eq]
    exact u32_of_lt (by omega)
  have hhigh : m.getHighSideField dest = (m.rawMetadata <<< 16 ||| dest) <<< 32 :=
    congrArg (fun high => (high ||| dest) <<< 32) hfits
  exact (congrArg (· ||| data) hhigh).trans (or_eq_add hdest hdata)

theorem getData_eq (word : Nat) : getData word = word % 2 ^ 32 :=
  Nat.and_two_pow_sub_one_eq_mod word 32

theorem getChannel_eq (word : Nat) : getChannel word = word / 2 ^ 32 % 2 ^ 16 := by
  have hmask : (0x0000ffff00000000 : Nat) >>> 32 = 2 ^ 16 - 1 := rfl
  rw [getChannel, Nat.shiftRight_and_distrib, hmask, Nat.and_two_pow_sub_one_eq_mod,
    Nat.shiftRight_eq_div_pow]

theorem getMetadata_eq (word : Nat) : getMetadata word = word / 2 ^ 48 % 2 ^ 16 := by
  have hmask : (0xffff000000000000 : Nat) >>> 48 = 2 ^ 16 - 1 := rfl
  rw [getMetadata, Nat.shiftRight_and_distrib, hmask, Nat.and_two_pow_sub_one_eq_mod,
    Nat.shiftRight_eq_div_pow]

/-- A word is read as it was built. -/
theorem decode_word {calls : List Setter} (hcalls : ∀ c ∈ calls, Admits c) {dest data : Nat}
    (hdest : dest < 2 ^ 16) (hdata : data < 2 ^ 32) (scalingFactor : ℚ) :
    getChannel ((afterCalls calls).getHighSideField dest ||| data) = dest ∧
      decode ((afterCalls calls).getHighSideField dest ||| data) scalingFactor =
        (ofCalls calls).read data scalingFactor := by
  obtain ⟨⟨hraw, hsize, hsigned, hfloat⟩, hmin, hmax⟩ := encoded_afterCalls hcalls
  have hword := word_eq (m := afterCalls calls) (by omega) hdest hdata
  have hmetadata : u16 (getMetadata ((afterCalls calls).getHighSideField dest ||| data)) =
      (afterCalls calls).rawMetadata := by
    rw [getMetadata_eq, hword, u16]
    omega
  have hbits : getData ((afterCalls calls).getHighSideField dest ||| data) = data := by
    rw [getData_eq, hword]
    omega
  refine ⟨by rw [getChannel_eq, hword]; omega, ?_⟩
  simp only [decode, hmetadata, hbits, hsize, hsigned, hfloat, scaleData, SampleFormat.read]
  rw [readSample_eq (by omega) (by omega)]

/-! ## Factors -/

theorem frame_shuntWord (retData : List (List ScaledSample)) (rawSample : Nat) :
    Exec.Frame (· = .undefined .vectorIndex) False Eq (shuntWord retData rawSample) := by
  have hindex : ∀ (v : List ℚ) i, Exec.Frame (· = .undefined .vectorIndex) False Eq
      (index v i : Exec Failure ScopeManager ℚ) :=
    fun v i => Exec.frame_require fun _ => Or.inl rfl
  unfold shuntWord
  split_ifs
  · exact Exec.frame_pure _
  · exact (Exec.frame_gets _).bind fun _ => (hindex _ _).bind fun _ => Exec.frame_pure _
  · exact (Exec.frame_gets _).bind fun _ => (hindex _ _).bind fun _ => Exec.frame_pure _

/-- Only a missing factor ends the sorting. -/
theorem frame_shuntData (bufferIn : List Nat) :
    Exec.Frame (· = .undefined .vectorIndex) False Eq (shuntData bufferIn) := by
  have hloop : ∀ retData, Exec.Frame (· = .undefined .vectorIndex) False Eq
      (bufferIn.foldlM shuntWord retData) := by
    induction bufferIn with
    | nil => exact fun retData => Exec.frame_pure retData
    | cons rawSample bufferIn ih =>
      intro retData
      rw [List.foldlM_cons]
      exact (frame_shuntWord retData rawSample).bind ih
  exact hloop _

theorem failsOnly_shuntData {caught : Failure → Prop} (h : ¬caught (.undefined .vectorIndex))
    {bufferIn : List Nat} {m : ScopeManager} :
    Exec.FailsOnly caught (shuntData bufferIn) m ↔ HasFactors m.scalingFactors bufferIn := by
  rw [(frame_shuntData bufferIn m).failsOnly_iff (by rintro _ rfl; exact h)]
  constructor
  · rintro ⟨ret, m', hrun⟩
    exact (shuntData_eq_ok.1 hrun).1
  · exact fun hfactors => ⟨_, m, shuntData_eq_ok.2 ⟨hfactors, rfl, rfl⟩⟩

/-- With a factor for each channel, only words of channel 6 can lack one. -/
theorem hasFactors_iff {scalingFactors : List ℚ} (h : nChannels ≤ scalingFactors.length)
    {bufferIn : List Nat} : HasFactors scalingFactors bufferIn ↔
      ∀ word ∈ bufferIn, getChannel word = nChannels → nChannels < scalingFactors.length := by
  refine forall₂_congr fun word _ => ⟨fun hword heq => ?_, fun hword hle => ?_⟩
  · have := hword heq.le
    omega
  · by_cases heq : getChannel word = nChannels
    · have := hword heq
      omega
    · omega

end ScopeManager

namespace ScopeEndpoints

open ChannelMetadata SampleFormat ScopeManager

/-! ## What is read -/

/-- The object of a channel that is on. -/
def channelJson (w : Surroundings) (scalingFactors : List ℚ) (rawData : List Nat) (i : Nat) :
    Json :=
  .object [("channel", .numberUnsigned i), ("data", .array
    ((samplesOf scalingFactors rawData i).map (sampleValue w.floatOfBits)))]

theorem readData_of_data {w : Surroundings} {rawData : List Nat} (h : w.scopeData = some rawData)
    {s : ScopeEndpoints} (hfactors : HasFactors s.scalingFactors rawData) :
    (readData w).run s = .ok (((List.range nChannels).filter fun i : Nat => s.channelStatus i).map
      (channelJson w s.scalingFactors rawData)) s := by
  have hsamples : (onSamples (shuntData rawData)).run s =
      .ok ((List.range nChannels).map (samplesOf s.scalingFactors rawData)) s :=
    Exec.zoom_eq_ok.2 ⟨_, shuntData_eq_ok.2 ⟨hfactors, rfl, rfl⟩, rfl⟩
  rw [readData, h]
  simp only [EStateM.run_bind, hsamples, Exec.run_gets]
  refine Exec.run_mapM_of_ok fun i hi => ?_
  have hlt : i < nChannels := List.mem_range.1 (List.mem_filter.1 hi).1
  have hget : (index ((List.range nChannels).map (samplesOf s.scalingFactors rawData)) i :
      Exec Failure ScopeEndpoints _).run s = .ok (samplesOf s.scalingFactors rawData i) s :=
    Exec.require_eq_ok.2 ⟨by simp [hlt], rfl⟩
  rw [channelObject, EStateM.run_bind, hget]
  rfl

theorem failsOnly_readData {caught : Failure → Prop} (h : ¬caught (.undefined .vectorIndex))
    {w : Surroundings} {s : ScopeEndpoints} : Exec.FailsOnly caught (readData w) s ↔
      ∀ rawData, w.scopeData = some rawData → HasFactors s.scalingFactors rawData := by
  rcases hdata : w.scopeData with _ | rawData
  · have hrun : readData w = pure [] := by rw [readData, hdata]
    rw [hrun]
    exact iff_of_true (Exec.failsOnly_pure _ _) (by simp)
  · constructor
    · rintro hfails _ ⟨⟩
      rw [readData, hdata] at hfails
      exact (failsOnly_shuntData h).1 (Exec.failsOnly_zoom.1 (Exec.failsOnly_bind.1 hfails).1)
    · exact fun hfactors => Exec.failsOnly_of_ok (readData_of_data hdata (hfactors rawData rfl))

theorem hasFactors_of_readData {w : Surroundings} {rawData : List Nat}
    (h : w.scopeData = some rawData) {s s' : ScopeEndpoints} {answer : List Json}
    (hrun : (readData w).run s = .ok answer s') : HasFactors s.scalingFactors rawData :=
  (@failsOnly_readData (fun _ => False) id w s).1 (Exec.failsOnly_of_ok hrun) rawData h

/-! ## Reachable states -/

/-- The state after some requests that were answered. -/
def Reachable (s : ScopeEndpoints) : Prop :=
  ∃ hw requests, Exec.settleAll (fun _ => True)
    (fun r : Surroundings × String × Json => processCommand r.1 r.2.1 r.2.2) requests
      (construct hw) = some s

/-- There stays a factor for each channel. -/
def KeepsFactors (s s' : ScopeEndpoints) : Prop :=
  nChannels ≤ s.scalingFactors.length → nChannels ≤ s'.scalingFactors.length

instance : IsPreorder ScopeEndpoints KeepsFactors where
  refl := fun _ h => h
  trans := fun _ _ _ h h' hs => h' (h hs)

/-- Any failure ends the run of the requests. -/
abbrev Keeps {α : Type} (m : Exec Failure ScopeEndpoints α) : Prop :=
  Exec.Frame (fun _ => True) False KeepsFactors m

theorem keeps_onBridge {α : Type} (m : Exec Failure FpgaBridge α) : Keeps (onBridge m) := by
  refine Exec.frame_of_returns fun s a s' h => ?_
  obtain ⟨hw, -, rfl⟩ := Exec.zoom_eq_ok.1 h
  exact id

theorem keeps_atOrNull (arguments : Json) (key : String) : Keeps (arguments.atOrNull key) := by
  unfold Json.atOrNull
  split
  · exact Exec.frame_pure _
  · exact Exec.frame_pure _
  · exact Exec.frame_throw (Or.inl trivial)

theorem keeps_read {α : Type} (arguments : Json) (key : String) (as : Json → Option α) :
    Keeps (read arguments key as) :=
  (keeps_atOrNull arguments key).bind fun _ => Exec.frame_require fun _ => Or.inl trivial

theorem keeps_readData (w : Surroundings) : Keeps (readData w) := by
  refine Exec.frame_of_returns fun s a s' h => ?_
  rcases hdata : w.scopeData with _ | rawData
  · rw [readData, hdata] at h
    obtain ⟨-, rfl⟩ := Exec.pure_eq_ok.1 h
    exact id
  · rw [readData_of_data hdata (hasFactors_of_readData hdata h)] at h
    cases h
    exact id

theorem keeps_setScalingFactors (sf : List ℚ) : Keeps (setScalingFactors sf) := by
  refine Exec.frame_of_returns fun s a s' h _ => ?_
  simp only [setScalingFactors, Exec.bind_eq_ok, Exec.throwIf_eq_ok, Exec.modify_eq_ok,
    exists_const, and_assoc, exists_and_left, exists_eq_left] at h
  obtain ⟨hlength, rfl⟩ := h
  exact not_lt.1 hlength

theorem keeps_channelStatuses (items : List (String × Json)) :
    ∀ status, Keeps (channelStatuses status items) := by
  induction items with
  | nil => exact fun status => Exec.frame_pure status
  | cons item items ih =>
    exact fun status => (Exec.frame_require fun _ => Or.inl trivial).bind fun channel =>
      (Exec.frame_require fun _ => Or.inl trivial).bind fun on => ih _

theorem keeps_processSetScalingFactors (arguments : Json) :
    Keeps (processSetScalingFactors arguments) := by
  unfold processSetScalingFactors
  split
  · split_ifs
    · exact Exec.frame_pure _
    · exact Exec.frame_pure _
    · exact (Exec.frame_require fun _ => Or.inl trivial).bind fun sfs =>
        (keeps_setScalingFactors sfs).bind fun _ => Exec.frame_pure _
  · exact Exec.frame_pure _

theorem keeps_processSetChannelStatus (arguments : Json) :
    Keeps (processSetChannelStatus arguments) := by
  unfold processSetChannelStatus
  split
  · exact (keeps_channelStatuses _ _).bind fun status =>
      (Exec.frame_modify fun _ => id).bind fun _ => Exec.frame_pure _
  · exact Exec.frame_pure _

theorem keeps_disableDma (status : Bool) : Keeps (disableDma status) := by
  refine (Exec.frame_gets _).bind fun first => ?_
  split_ifs
  · exact Exec.frame_modify fun _ => id
  · exact (Exec.frame_gets _).bind fun base => Exec.frame_when fun _ => keeps_onBridge _

theorem keeps_getAcquisitionStatus (random : Nat) : Keeps (getAcquisitionStatus random) := by
  refine (Exec.frame_gets _).bind fun base => ?_
  split_ifs
  · exact Exec.frame_pure _
  · exact (keeps_onBridge _).bind fun res => Exec.frame_pure _

theorem keeps_processSetAcquisition (pl : Platform) (arguments : Json) :
    Keeps (processSetAcquisition pl arguments) := by
  unfold processSetAcquisition
  refine (keeps_read _ _ _).bind fun _ => (keeps_read _ _ _).bind fun _ =>
    (keeps_read _ _ _).bind fun _ => (keeps_read _ _ _).bind fun _ =>
    (keeps_read _ _ _).bind fun _ => (keeps_read _ _ _).bind fun _ =>
    (keeps_read _ _ _).bind fun _ => Exec.Frame.bind ?_ fun _ => Exec.frame_pure _
  exact (Exec.frame_gets _).bind fun base => Exec.frame_when fun _ =>
    Exec.frame_forM fun write _ => keeps_onBridge _

theorem keeps_processSetScopeAddress (w : Surroundings) (arguments : Json) :
    Keeps (processSetScopeAddress w arguments) := by
  unfold processSetScopeAddress
  refine (keeps_atOrNull _ _).bind fun address => ?_
  split
  · exact Exec.frame_pure _
  · refine (keeps_atOrNull _ _).bind fun offset => ?_
    split
    · refine (Exec.frame_require fun _ => Or.inl trivial).bind fun addr =>
        Exec.Frame.bind ?_ fun _ => Exec.frame_pure _
      exact (keeps_onBridge _).bind fun _ => Exec.frame_modify fun _ => id
    · exact Exec.frame_pure _

theorem keeps_processCommand (w : Surroundings) (commandString : String) (arguments : Json) :
    Keeps (processCommand w commandString arguments) := by
  unfold processCommand
  split_ifs
  · exact (keeps_readData w).bind fun _ => Exec.frame_pure _
  · exact keeps_processSetScalingFactors arguments
  · exact (keeps_read _ _ _).bind fun status =>
      (keeps_disableDma status).bind fun _ => Exec.frame_pure _
  · exact keeps_processSetChannelStatus arguments
  · exact (keeps_getAcquisitionStatus _).bind fun _ => Exec.frame_pure _
  · exact keeps_processSetAcquisition _ arguments
  · exact keeps_processSetScopeAddress w arguments
  · exact Exec.frame_pure _

theorem nChannels_le_of_reachable {s : ScopeEndpoints} (h : Reachable s) :
    nChannels ≤ s.scalingFactors.length := by
  obtain ⟨hw, requests, hrun⟩ := h
  have hstep : ∀ (r : Surroundings × String × Json) (_ : Unit) (t t' : ScopeEndpoints),
      nChannels ≤ t.scalingFactors.length →
      Exec.settle (fun _ => True) (processCommand r.1 r.2.1 r.2.2) t = some t' →
      nChannels ≤ t'.scalingFactors.length :=
    fun r _ t t' ht hrun => (keeps_processCommand r.1 r.2.1 r.2.2 t).of_settle hrun ht
  have hstart : nChannels ≤ (construct hw).scalingFactors.length := le_refl 6
  exact Exec.settleAll_simulation (g := fun _ _ => ()) (b := ()) hstep hstart hrun

/-- Without words of channel 6, the words are sorted by channel in their order, and each is read as
it was built. -/
theorem demultiplexes_faithfully {s : ScopeEndpoints} (hs : Reachable s) {bufferIn : List Nat}
    (hbuffer : ∀ word ∈ bufferIn, getChannel word ≠ 6) :
    (shuntData bufferIn).run s.toScopeManager =
      .ok ((List.range 6).map (samplesOf s.scalingFactors bufferIn)) s.toScopeManager ∧
    ∀ calls : List Setter, (∀ c ∈ calls, Admits c) → ∀ dest < 2 ^ 16, ∀ data < 2 ^ 32,
      ∀ scalingFactor,
        getChannel ((afterCalls calls).getHighSideField dest ||| data) = dest ∧
          decode ((afterCalls calls).getHighSideField dest ||| data) scalingFactor =
            (ofCalls calls).read data scalingFactor := by
  refine ⟨shuntData_eq_ok.2 ⟨?_, rfl, rfl⟩, fun calls hcalls dest hdest data hdata =>
    decode_word hcalls hdest hdata⟩
  rw [hasFactors_iff (nChannels_le_of_reachable hs)]
  exact fun word hword h => absurd h (hbuffer word hword)

theorem demultiplexes_two_words :
    (shuntData [0x001800000000FFFB, 0x300000007]).run
        (construct HilDeployer.fresh.hw).toScopeManager =
      .ok ((List.range 6).map (samplesOf [1, 1, 1, 1, 1, 1] [0x001800000000FFFB, 0x300000007]))
        (construct HilDeployer.fresh.hw).toScopeManager ∧
    getChannel ((afterCalls [.setSigned true, .setSize 16]).getHighSideField 3 ||| 0xFFFB) = 3 ∧
      decode ((afterCalls [.setSigned true, .setSize 16]).getHighSideField 3 ||| 0xFFFB) 1 =
        .scaled 1 (-5) := by
  have hs : Reachable (construct HilDeployer.fresh.hw) := ⟨HilDeployer.fresh.hw, [], rfl⟩
  obtain ⟨hsorted, hread⟩ :=
    @demultiplexes_faithfully _ hs [0x001800000000FFFB, 0x300000007] (by decide)
  exact ⟨hsorted, hread [.setSigned true, .setSize 16] (by simp [Admits]) 3 (by decide) 0xFFFB
    (by decide) 1⟩

/-! ## Accesses in range -/

/-- Setting the factors and reading the buffer after that goes to elements that exist, also where
a sample is appended to its channel. -/
def DecodesInRange (w : Surroundings) (arguments : Json) (bufferIn : List Nat)
    (s : ScopeEndpoints) : Prop :=
  Exec.FailsOnly (fun e => ∀ site, e ≠ .undefined site)
      (do
        let _ ← processSetScalingFactors arguments
        processReadData { w with scopeData := some bufferIn }) s ∧
    ∀ before word after, bufferIn = before ++ word :: after → ∀ ret m m',
      (before.foldlM shuntWord (List.replicate nChannels [])).run m = .ok ret m' →
        getChannel word < nChannels → getChannel word < ret.length

theorem vector?_of_numbers {elements : List Json} (h : ∀ el ∈ elements, el.number? ≠ none) :
    ∃ sfs : List ℚ, (Json.array elements).vector? Json.float? = some sfs ∧
      sfs.length = elements.length := by
  refine Json.exists_vector? fun el hel => ?_
  obtain ⟨x, hx⟩ := Option.ne_none_iff_exists'.1 (h el hel)
  rcases el with _ | _ | _ | _ | _ | _ | _ | _
  all_goals first | exact ⟨x, hx⟩ | cases hx

/-- An array of numbers is set, but its first six elements are read in any case. -/
theorem processSetScalingFactors_of_numbers {elements : List Json} (hne : elements ≠ [])
    (hnumbers : ∀ el ∈ elements, el.number? ≠ none) :
    ∃ sfs : List ℚ, sfs.length = elements.length ∧
      processSetScalingFactors (.array elements) =
        (setScalingFactors sfs >>= fun _ => pure { responseCode := .ok }) := by
  obtain ⟨sfs, hsfs, hlength⟩ := vector?_of_numbers hnumbers
  refine ⟨sfs, hlength, ?_⟩
  have hnumeric : ¬∃ el ∈ elements, el.number? = none := by
    rintro ⟨el, hel, hnone⟩
    exact hnumbers el hel hnone
  rw [processSetScalingFactors, if_neg hne, if_neg hnumeric, Json.get, hsfs]
  rfl

theorem run_setScalingFactors {sf : List ℚ} (h : 6 ≤ sf.length) (s : ScopeEndpoints) :
    (setScalingFactors sf).run s = .ok () { s with scalingFactors := sf } :=
  Exec.bind_eq_ok.2 ⟨(), s, Exec.throwIf_eq_ok.2 ⟨not_lt.2 h, rfl⟩, rfl⟩

theorem failsOnly_setScalingFactors {caught : Failure → Prop}
    (h : ¬caught (.undefined .vectorIndex)) {sf : List ℚ} {s : ScopeEndpoints} :
    Exec.FailsOnly caught (setScalingFactors sf) s ↔ 6 ≤ sf.length := by
  rw [setScalingFactors, Exec.failsOnly_bind, Exec.failsOnly_throwIf]
  constructor
  · exact fun hfails => not_lt.1 fun hlt => h (hfails.1 hlt)
  · exact fun hle => ⟨fun hlt => absurd hlt (not_lt.2 hle), fun _ _ _ => Exec.failsOnly_modify _ _⟩

/-- A sample always finds the vector of its channel. -/
theorem channel_in_range {before : List Nat} {ret : List (List ScaledSample)} {m m' : ScopeManager}
    (h : (before.foldlM shuntWord (List.replicate nChannels [])).run m = .ok ret m') :
    ret.length = nChannels := by
  have hempty : List.replicate nChannels ([] : List ScaledSample) =
    (List.range nChannels).map fun _ => [] := rfl
  rw [hempty, foldlM_shuntWord_eq_ok] at h
  rw [h.2.2, List.length_map, List.length_range]

/-- Every access is in range just when there is a factor for each channel, and a seventh if there
is a word of channel 6. -/
theorem decode_in_range_iff (w : Surroundings) {elements : List Json} (hne : elements ≠ [])
    (hnumbers : ∀ el ∈ elements, el.number? ≠ none) (bufferIn : List Nat) (s : ScopeEndpoints) :
    DecodesInRange w (.array elements) bufferIn s ↔
      6 ≤ elements.length ∧ ∀ word ∈ bufferIn, getChannel word = 6 → 7 ≤ elements.length := by
  have hcaught : ¬∀ site, Failure.undefined .vectorIndex ≠ .undefined site := by simp
  have hchannels : ∀ before word after, bufferIn = before ++ word :: after → ∀ ret m m',
      (before.foldlM shuntWord (List.replicate nChannels [])).run m = .ok ret m' →
        getChannel word < nChannels → getChannel word < ret.length := by
    intro before word after _ ret m m' hrun hlt
    rw [channel_in_range hrun]
    exact hlt
  obtain ⟨sfs, hlength, hset⟩ := processSetScalingFactors_of_numbers hne hnumbers
  rw [DecodesInRange, and_iff_left hchannels, hset, ← hlength]
  by_cases hle : 6 ≤ sfs.length
  · have hfirst : (setScalingFactors sfs >>= fun _ => pure ({ responseCode := .ok } : Response)).run
        s = .ok { responseCode := .ok } { s with scalingFactors := sfs } :=
      Exec.bind_eq_ok.2 ⟨_, _, run_setScalingFactors hle s, rfl⟩
    rw [Exec.failsOnly_bind_of_ok hfirst, and_iff_right hle, processReadData, Exec.failsOnly_bind,
      failsOnly_readData hcaught]
    have hread : ∀ objs s', (readData { w with scopeData := some bufferIn }).run
        { s with scalingFactors := sfs } = .ok objs s' → Exec.FailsOnly
          (fun e => ∀ site, e ≠ Failure.undefined site)
          (pure { responseCode := .ok, data := some (.array objs) } :
            Exec Failure ScopeEndpoints Response) s' := fun _ _ _ => Exec.failsOnly_pure _ _
    rw [and_iff_left hread]
    refine Iff.trans ?_ (hasFactors_iff hle)
    exact ⟨fun h => h bufferIn rfl, fun h rawData hdata => Option.some.inj hdata ▸ h⟩
  · refine iff_of_false (fun h => hle ?_) fun h => hle h.1
    have hset := (Exec.failsOnly_bind.1 (Exec.failsOnly_bind.1 h).1).1
    exact (failsOnly_setScalingFactors hcaught).1 hset

theorem decode_in_range_of_seven : DecodesInRange (.of [] [])
    (.array (List.replicate 7 (.numberUnsigned 1))) (List.replicate 6144 0x600000000)
      (construct HilDeployer.fresh.hw) :=
  (decode_in_range_iff _ (by simp) (by simp [Json.number?]) _ _).2
    ⟨by decide, fun _ _ _ => by decide⟩

/-- A word of channel 6 is scaled with the seventh of six factors. -/
theorem junk_out_of_range : ¬DecodesInRange (.of [] [])
    (.array (List.replicate 6 (.numberUnsigned 1))) (0x600000000 :: List.replicate 6143 0)
      (construct HilDeployer.fresh.hw) := by
  rintro ⟨hfails, -⟩
  exact hfails (.undefined .vectorIndex) _ rfl .vectorIndex rfl

end ScopeEndpoints

/-! ## Reads of the device -/

/-- How the read of the device file ends. -/
inductive DeviceRead where
  | error
  | eof
  | words (transferred : List Nat)

namespace DeviceRead

/-- The samples in a buffer. -/
def bufferSize : Nat := 1024

/-- The words that the device has given. -/
def transferred : DeviceRead → List Nat
  | .error | .eof => []
  | .words transferred => transferred

/-- At least one word and at most the buffer. -/
def WellFormed : DeviceRead → Prop
  | .error | .eof => True
  | .words transferred => 0 < transferred.length ∧
    transferred.length ≤ ScopeManager.nChannels * bufferSize

/-- What the caller gets : none when it throws. An error is logged. -/
def getScopeData (read : DeviceRead) : Option (List Nat) :=
  let retVal := List.replicate (ScopeManager.nChannels * bufferSize) 0
  match read with
  | .eof => none
  | .error => some retVal
  | .words transferred => some (transferred ++ retVal.drop transferred.length)

/-- The rest of the buffer are zeros. -/
theorem getScopeData_eq {read : DeviceRead} (h : read ≠ .eof) :
    read.getScopeData = some (read.transferred ++
      List.replicate (ScopeManager.nChannels * bufferSize - read.transferred.length) 0) := by
  rcases read with _ | _ | transferred
  · rfl
  · exact absurd rfl h
  · simp only [getScopeData, DeviceRead.transferred, List.drop_replicate]

end DeviceRead

namespace ScopeEndpoints

open ScopeManager DeviceRead

/-- The samples that an answer reports for a channel. -/
def reported (answer : List Json) (channel : Nat) : List Json :=
  answer.flatMap fun object =>
    match object.find? "channel", object.find? "data" with
    | some (.numberUnsigned i), some data => if i = channel then data.elements else []
    | _, _ => []

/-- The answer reports the samples of the words that were read, and only those. -/
def ReportsOnlyRead (w : Surroundings) (read : DeviceRead) (s : ScopeEndpoints) : Prop :=
  ∃ answer, (readData { w with scopeData := read.getScopeData }).run s = .ok answer s ∧
    ∀ channel < nChannels, s.channelStatus channel = true → reported answer channel =
      (samplesOf s.scalingFactors read.transferred channel).map (sampleValue w.floatOfBits)

/-- In a list of channels, one comes at most once. -/
theorem flatMap_range_filter (p : Nat → Bool) (f : Nat → List Json) (channel count : Nat) :
    (((List.range count).filter p).flatMap fun i => if i = channel then f i else []) =
      if channel < count ∧ p channel then f channel else [] := by
  induction count with
  | zero => simp
  | succ count ih =>
    rw [List.range_succ, List.filter_append, List.flatMap_append, ih]
    rcases lt_trichotomy channel count with hlt | rfl | hgt
    · have hne : ¬count = channel := by omega
      have hlt' : channel < count + 1 := by omega
      rcases hp : p count <;> simp [hp, hne, hlt, hlt']
    · rcases hp : p channel <;> simp [hp]
    · have hne : ¬count = channel := by omega
      have hlt : ¬channel < count := by omega
      have hlt' : ¬channel < count + 1 := by omega
      rcases hp : p count <;> simp [hp, hne, hlt, hlt']

/-- The channels that are on are reported. -/
theorem reported_of_data (w : Surroundings) (scalingFactors : List ℚ) (rawData : List Nat)
    {status : Int → Bool} {channel : Nat} (hlt : channel < nChannels)
    (hon : status channel = true) :
    reported (((List.range nChannels).filter fun i : Nat => status i).map
      (channelJson w scalingFactors rawData)) channel =
        (samplesOf scalingFactors rawData channel).map (sampleValue w.floatOfBits) := by
  have hobject : ∀ i, (match (channelJson w scalingFactors rawData i).find? "channel",
      (channelJson w scalingFactors rawData i).find? "data" with
      | some (.numberUnsigned i), some data => if i = channel then data.elements else []
      | _, _ => []) = if i = channel then
        (samplesOf scalingFactors rawData i).map (sampleValue w.floatOfBits) else [] :=
    fun i => rfl
  rw [reported, List.flatMap_map]
  simp only [hobject]
  rw [flatMap_range_filter, if_pos ⟨hlt, hon⟩]

theorem samplesOf_append (scalingFactors : List ℚ) (xs ys : List Nat) (channel : Nat) :
    samplesOf scalingFactors (xs ++ ys) channel =
      samplesOf scalingFactors xs channel ++ samplesOf scalingFactors ys channel := by
  rw [samplesOf, List.filter_append, List.map_append]
  rfl

/-- Zeros are samples of the first channel. -/
theorem length_samplesOf_zeros (scalingFactors : List ℚ) (count channel : Nat) :
    (samplesOf scalingFactors (List.replicate count 0) channel).length =
      if channel = 0 then count else 0 := by
  have hzero : getChannel 0 = 0 := rfl
  rw [samplesOf, List.length_map, List.filter_replicate, hzero]
  by_cases hc : channel = 0
  · simp [hc]
  · simp [hc, Ne.symm hc]

/-- Samples of zeros are added to the first channel, and to no other. -/
theorem samplesOf_zeros_eq_iff {scalingFactors : List ℚ} {rawData : List Nat} {count : Nat}
    {status : Int → Bool} (value : ScaledSample → Json) :
    (∀ channel < nChannels, status channel = true →
      (samplesOf scalingFactors (rawData ++ List.replicate count 0) channel).map value =
        (samplesOf scalingFactors rawData channel).map value) ↔
      count = 0 ∨ status 0 = false := by
  constructor
  · intro h
    rw [or_iff_not_imp_right, Bool.not_eq_false]
    intro hon
    have hlength := congrArg List.length (h 0 (by decide) hon)
    rw [samplesOf_append, List.length_map, List.length_map, List.length_append,
      length_samplesOf_zeros, if_pos rfl] at hlength
    omega
  · intro h channel _ hon
    have hnone : samplesOf scalingFactors (List.replicate count 0) channel = [] := by
      refine List.eq_nil_of_length_eq_zero ?_
      rw [length_samplesOf_zeros]
      by_cases hc : channel = 0
      · subst hc
        rw [if_pos rfl]
        exact h.resolve_right fun hoff => by simp [hoff] at hon
      · exact if_neg hc
    rw [samplesOf_append, hnone, List.append_nil]

/-- Only samples that were read are reported just when every word has its factor, and the read has
filled the buffer, found nothing, or the first channel is off. -/
theorem reports_only_read_iff (w : Surroundings) {read : DeviceRead} (hread : read.WellFormed)
    {s : ScopeEndpoints} (hs : Reachable s) :
    ReportsOnlyRead w read s ↔
      (∀ word ∈ read.transferred, getChannel word = 6 → 7 ≤ s.scalingFactors.length) ∧
        (read = .eof ∨ read.transferred.length = 6144 ∨ s.channelStatus 0 = false) := by
  by_cases heof : read = .eof
  · subst heof
    exact iff_of_true ⟨[], rfl, fun channel _ _ => rfl⟩ ⟨by simp [transferred], Or.inl rfl⟩
  have hfactors : HasFactors s.scalingFactors (read.transferred ++
      List.replicate (nChannels * bufferSize - read.transferred.length) 0) ↔
      ∀ word ∈ read.transferred, getChannel word = 6 → 7 ≤ s.scalingFactors.length := by
    rw [hasFactors_iff (nChannels_le_of_reachable hs)]
    refine ⟨fun h word hword => h word (List.mem_append_left _ hword), fun h word hword => ?_⟩
    rcases List.mem_append.1 hword with hword | hword
    · exact h word hword
    · rw [List.eq_of_mem_replicate hword]
      exact fun hzero => absurd hzero (by decide)
  have hlength : nChannels * bufferSize - read.transferred.length = 0 ↔
      read.transferred.length = 6144 := by
    have hmax : read.transferred.length ≤ 6144 := by
      rcases read with _ | _ | ws
      · exact Nat.zero_le _
      · exact Nat.zero_le _
      · exact hread.2
    have hsize : nChannels * bufferSize = 6144 := rfl
    omega
  rw [← hfactors, or_iff_right heof, ← hlength,
    ← @samplesOf_zeros_eq_iff s.scalingFactors read.transferred _ s.channelStatus
      (sampleValue w.floatOfBits)]
  constructor
  · rintro ⟨answer, hrun, hanswer⟩
    have hall := hasFactors_of_readData (getScopeData_eq heof) hrun
    refine ⟨hall, fun channel hlt hon => ?_⟩
    rw [readData_of_data (getScopeData_eq heof) hall] at hrun
    cases hrun
    rw [← hanswer channel hlt hon]
    exact (reported_of_data w _ _ hlt hon).symm
  · rintro ⟨hall, hsamples⟩
    refine ⟨_, readData_of_data (getScopeData_eq heof) hall, fun channel hlt hon => ?_⟩
    rw [← hsamples channel hlt hon]
    exact reported_of_data w _ _ hlt hon

theorem reports_only_read_of_full_buffer :
    ReportsOnlyRead (.of [] []) (.words (List.replicate 6144 0x100000005))
      (construct HilDeployer.fresh.hw) := by
  have hlength : (List.replicate 6144 0x100000005).length = 6144 := List.length_replicate
  have hread : (words (List.replicate 6144 0x100000005)).WellFormed := by
    rw [WellFormed, hlength]
    decide
  refine (reports_only_read_iff (.of [] []) hread ⟨HilDeployer.fresh.hw, [], rfl⟩).2
    ⟨fun word hword h => ?_, Or.inr (Or.inl hlength)⟩
  rw [List.eq_of_mem_replicate hword] at h
  exact absurd h (by decide)

/-- After an error, the first channel reports 6144 zeros. -/
theorem error_reports_zeros :
    ¬ReportsOnlyRead (.of [] []) .error (construct HilDeployer.fresh.hw) := by
  rintro ⟨answer, hrun, hanswer⟩
  have hdata := @getScopeData_eq .error (by simp)
  rw [readData_of_data hdata (hasFactors_of_readData hdata hrun)] at hrun
  cases hrun
  have hzeros := (samplesOf_zeros_eq_iff (sampleValue (Surroundings.of [] []).floatOfBits)).1
    fun channel hlt hon => (reported_of_data _ _ _ hlt hon).symm.trans (hanswer channel hlt hon)
  exact hzeros.elim (by decide) (by decide)

end ScopeEndpoints

end UscopeDriver
