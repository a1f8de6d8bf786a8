import UscopeDriver.Connector
import UscopeDriver.Library.Exec

/-!
# The payload of a request

Behind its header a message comes in chunks. Each is read to the start of a buffer of 64 KiB, and
the whole of that buffer is copied into the message buffer, behind the bytes received so far. What
it copies too much is overwritten by the next chunk (`receives_payload`). Nothing compares the size
that was announced with the buffer, so a copy can end past it (`no_overrun_iff`).
-/

namespace UscopeDriver

open Bytes

/-- The two buffers that `receive_command` keeps from one message to the next. -/
structure ReceiveBuffers where
  chunkBuffer : List UInt8
  messageBuffer : List UInt8

namespace ServerConnector

/-- The buffer of one read. -/
def chunkSize : Nat := 65536

/-- The member of that name. -/
def maxMsgSize : Nat := 2 ^ 30

/-- The buffers have the sizes that they are constructed with. -/
structure Sized (b : ReceiveBuffers) : Prop where
  chunkBuffer : b.chunkBuffer.length = chunkSize
  messageBuffer : b.messageBuffer.length = maxMsgSize

/-- One round of the payload loop : the chunk goes to the start of its buffer, and the whole buffer
to the message. -/
def copyChunk (chunk : List UInt8) (transferProgressive : Nat) :
    Exec Failure ReceiveBuffers Unit := do
  modify fun b => { b with chunkBuffer := overwrite b.chunkBuffer chunk }
  let b ← Exec.gets id
  Exec.throwIf (b.messageBuffer.length < transferProgressive + b.chunkBuffer.length)
    (.undefined .arrayIndex)
  modify fun b => { b with
    messageBuffer := overwriteAt transferProgressive b.chunkBuffer b.messageBuffer }

/-- The string that is decoded. -/
def messageString (messageSize : Nat) : Exec Failure ReceiveBuffers (List UInt8) := do
  let b ← Exec.gets id
  Exec.throwIf (b.messageBuffer.length < messageSize) (.undefined .arrayIndex)
  pure (b.messageBuffer.take messageSize)

/-- The payload loop, with the string and the reads that are left. There is no string yet when
nothing more has come. -/
def receivePayload (messageSize : Nat) : List SocketRead → Nat →
    Exec Failure ReceiveBuffers (Option (List UInt8) × List SocketRead)
  | [], _ => pure (none, [])
  | .eof :: _, _ => throw (.runtimeError "")
  | .error what :: _, _ => throw (.runtimeError what)
  | .data chunk :: reads, transferProgressive => do
    copyChunk chunk transferProgressive
    let transferProgressive := u32 (transferProgressive + chunk.length)
    if transferProgressive < messageSize then receivePayload messageSize reads transferProgressive
    else do
      let message ← messageString messageSize
      pure (some message, reads)

/-! ## One round -/

/-- A chunk is copied with what is behind it in its buffer, if the message has room for all of
that. -/
theorem copyChunk_eq_ok {chunk : List UInt8} {t : Nat} {b b' : ReceiveBuffers} {u : Unit} :
    (copyChunk chunk t).run b = .ok u b' ↔
      t + (overwrite b.chunkBuffer chunk).length ≤ b.messageBuffer.length ∧
        b' = ⟨overwrite b.chunkBuffer chunk,
          overwriteAt t (overwrite b.chunkBuffer chunk) b.messageBuffer⟩ := by
  simp only [copyChunk, Exec.bind_eq_ok, Exec.modify_eq_ok, Exec.gets_eq_ok, Exec.throwIf_eq_ok,
    id_eq, exists_const, and_assoc, exists_and_left, exists_eq_left, not_lt]

/-- A shorter piece keeps the length. -/
theorem length_overwrite {raw piece : List UInt8} (h : piece.length ≤ raw.length) :
    (overwrite raw piece).length = raw.length := by
  rw [overwrite, List.length_append, List.length_drop]
  omega

/-- A round keeps the sizes of the buffers, and of the message what came before. -/
theorem copyChunk_of_fits {chunk : List UInt8} (hchunk : chunk.length ≤ chunkSize) {t : Nat}
    {b : ReceiveBuffers} (hb : Sized b) (ht : t + chunkSize ≤ maxMsgSize) :
    ∃ b', (copyChunk chunk t).run b = .ok () b' ∧ Sized b' ∧
      b'.messageBuffer.take (t + chunk.length) = b.messageBuffer.take t ++ chunk := by
  have hlength : (overwrite b.chunkBuffer chunk).length = chunkSize := by
    rw [length_overwrite (by rw [hb.chunkBuffer]; exact hchunk), hb.chunkBuffer]
  have hfits : t + (overwrite b.chunkBuffer chunk).length ≤ b.messageBuffer.length := by
    rw [hlength, hb.messageBuffer]
    exact ht
  refine ⟨_, copyChunk_eq_ok.2 ⟨hfits, rfl⟩, ⟨hlength, ?_⟩, ?_⟩
  · rw [length_overwriteAt hfits]
    exact hb.messageBuffer
  · have hprefix : (overwrite b.chunkBuffer chunk).take chunk.length = chunk := by
      rw [overwrite, List.take_left]
    rw [take_overwriteAt (by omega) (by rw [hlength]; exact hchunk), hprefix]

/-- The message are the first bytes of the buffer. -/
theorem messageString_eq_ok {messageSize : Nat} {message : List UInt8} {b b' : ReceiveBuffers} :
    (messageString messageSize).run b = .ok message b' ↔
      messageSize ≤ b.messageBuffer.length ∧ message = b.messageBuffer.take messageSize ∧
        b' = b := by
  simp only [messageString, Exec.bind_eq_ok, Exec.gets_eq_ok, Exec.throwIf_eq_ok, Exec.pure_eq_ok,
    id_eq, exists_const, and_assoc, exists_and_left, exists_eq_left, not_lt]

/-! ## Messages that fit -/

/-- A round that fits goes on to the next chunk, or ends with the string. -/
theorem run_receivePayload_data {messageSize : Nat} {chunk : List UInt8}
    (hchunk : chunk.length ≤ chunkSize) {t : Nat} {b : ReceiveBuffers} (hb : Sized b)
    (ht : t + chunkSize ≤ maxMsgSize) (reads : List SocketRead) :
    ∃ b', Sized b' ∧ b'.messageBuffer.take (t + chunk.length) = b.messageBuffer.take t ++ chunk ∧
      (receivePayload messageSize (.data chunk :: reads) t).run b =
        if t + chunk.length < messageSize then
          (receivePayload messageSize reads (t + chunk.length)).run b'
        else .ok (some (b'.messageBuffer.take messageSize), reads) b' := by
  have hmax : maxMsgSize < 2 ^ 32 := by decide
  have hcounter : u32 (t + chunk.length) = t + chunk.length := u32_of_lt (by omega)
  obtain ⟨b', hcopy, hb', hbytes⟩ := copyChunk_of_fits hchunk hb ht
  refine ⟨b', hb', hbytes, ?_⟩
  rw [receivePayload, EStateM.run_bind, hcopy]
  simp only [hcounter]
  split_ifs with hlt
  · rfl
  · have hstring : (messageString messageSize).run b' =
        .ok (b'.messageBuffer.take messageSize) b' :=
      messageString_eq_ok.2 ⟨by rw [hb'.messageBuffer]; omega, rfl, rfl⟩
    rw [EStateM.run_bind, hstring]
    rfl

/-- Reads of the pieces of a payload reach the string with what came before them in front. -/
theorem receivePayload_of_fits {rest : List SocketRead} {pieces : List (List UInt8)}
    (hne : pieces ≠ []) : ∀ {t : Nat} {b : ReceiveBuffers}, Sized b →
    (∀ piece ∈ pieces, piece ≠ [] ∧ piece.length ≤ chunkSize) →
    t + pieces.flatten.length + chunkSize ≤ maxMsgSize →
    ∃ b', (receivePayload (t + pieces.flatten.length) (pieces.map .data ++ rest) t).run b =
      .ok (some (b.messageBuffer.take t ++ pieces.flatten), rest) b' := by
  induction pieces with
  | nil => exact absurd rfl hne
  | cons piece pieces ih =>
    intro t b hb hpieces hfits
    rw [List.forall_mem_cons] at hpieces
    rw [List.flatten_cons, List.length_append, ← Nat.add_assoc] at hfits ⊢
    obtain ⟨b₁, hb₁, hbytes, hround⟩ :=
      @run_receivePayload_data (t + piece.length + pieces.flatten.length) piece hpieces.1.2 t b hb
        (by omega) (pieces.map .data ++ rest)
    rw [List.map_cons, List.cons_append, hround]
    by_cases hlast : pieces = []
    · -- The loop ends behind the last piece.
      subst hlast
      refine ⟨b₁, ?_⟩
      rw [if_neg (by simp)]
      simp [hbytes]
    · have hmore : 0 < pieces.flatten.length := by
        obtain ⟨next, others, rfl⟩ := List.exists_cons_of_ne_nil hlast
        have := List.length_pos_iff.2 (hpieces.2 next (by simp)).1
        rw [List.flatten_cons, List.length_append]
        omega
      obtain ⟨b', hrest⟩ := ih hlast hb₁ hpieces.2 (t := t + piece.length) (by omega)
      rw [if_pos (by omega)]
      rw [hbytes, List.append_assoc] at hrest
      exact ⟨b', hrest⟩

/-- However a payload comes in chunks, and whatever the buffers held before, the payload is what
is decoded, and the reads behind it are left. -/
theorem receives_payload {payload : List UInt8} (hpos : 0 < payload.length)
    (hfits : payload.length + chunkSize ≤ maxMsgSize) {pieces : List (List UInt8)}
    (hsplit : IsSplit payload pieces) (hpieces : ∀ piece ∈ pieces, piece.length ≤ chunkSize)
    {b : ReceiveBuffers} (hb : Sized b) (rest : List SocketRead) :
    ∃ b', (receivePayload payload.length (pieces.map .data ++ rest) 0).run b =
      .ok (some payload, rest) b' := by
  have hne : pieces ≠ [] := hsplit.ne_nil (List.length_pos_iff.1 hpos)
  obtain ⟨hflatten, hempty⟩ := hsplit
  have hrun := @receivePayload_of_fits rest pieces hne 0 b hb
    (fun piece hp => ⟨hempty piece hp, hpieces piece hp⟩) (by rw [hflatten]; omega)
  simpa [hflatten] using hrun

/-- A message of three bytes in two chunks. -/
theorem receives_payload_of_3_bytes : ∃ b', (receivePayload 3 [.data [1, 2], .data [3]] 0).run
    ⟨List.replicate chunkSize 0, List.replicate maxMsgSize 0⟩ = .ok (some [1, 2, 3], []) b' :=
  @receives_payload [1, 2, 3] (by decide) (by decide) [[1, 2], [3]] ⟨rfl, by decide⟩ (by decide) _
    ⟨List.length_replicate, List.length_replicate⟩ []

/-! ## Messages that do not fit -/

/-- The counter before each round of the payload loop, with the length of its chunk. -/
def rounds (messageSize : Nat) : List (List UInt8) → Nat → List (Nat × Nat)
  | [], _ => []
  | chunk :: chunks, t => (t, chunk.length) ::
    if u32 (t + chunk.length) < messageSize then rounds messageSize chunks (u32 (t + chunk.length))
    else []

/-- Nothing is copied or read past the end of a buffer, and the counter does not wrap. -/
def StaysInside (messageSize : Nat) (chunks : List (List UInt8)) (t : Nat) (b : ReceiveBuffers) :
    Prop :=
  Exec.FailsOnly (fun e => ∀ site, e ≠ .undefined site)
      (receivePayload messageSize (chunks.map .data) t) b ∧
    ∀ r ∈ rounds messageSize chunks t, r.1 + r.2 < 2 ^ 32

/-- Every round of the loop starts a chunk buffer or more before the end of the message buffer. -/
def Fits (messageSize : Nat) : List (List UInt8) → Nat → Prop
  | [], _ => True
  | chunk :: chunks, t => t + chunkSize ≤ maxMsgSize ∧
    (t + chunk.length < messageSize → Fits messageSize chunks (t + chunk.length))

/-- Without that room the copy leaves the buffer. -/
theorem copyChunk_of_not_fits {chunk : List UInt8} (hchunk : chunk.length ≤ chunkSize) {t : Nat}
    {b : ReceiveBuffers} (hb : Sized b) (ht : maxMsgSize < t + chunkSize) :
    ∃ b', (copyChunk chunk t).run b = .error (.undefined .arrayIndex) b' := by
  have hlength : (overwrite b.chunkBuffer chunk).length = chunkSize := by
    rw [length_overwrite (by rw [hb.chunkBuffer]; exact hchunk), hb.chunkBuffer]
  refine ⟨⟨overwrite b.chunkBuffer chunk, b.messageBuffer⟩, ?_⟩
  have hpast : b.messageBuffer.length < t + (overwrite b.chunkBuffer chunk).length := by
    rw [hlength, hb.messageBuffer]
    exact ht
  rw [copyChunk, EStateM.run_bind]
  change ((Exec.gets id >>= _) : Exec Failure ReceiveBuffers Unit).run _ = _
  rw [Exec.run_gets_bind, id_eq, Exec.run_throwIf_bind, if_pos hpast]

/-- The copies stay inside exactly if each finds its room. -/
theorem staysInside_iff_fits {messageSize : Nat} {chunks : List (List UInt8)}
    (hchunks : ∀ chunk ∈ chunks, chunk.length ≤ chunkSize) : ∀ {t : Nat} {b : ReceiveBuffers},
    Sized b → (StaysInside messageSize chunks t b ↔ Fits messageSize chunks t) := by
  induction chunks with
  | nil =>
    intro t b hb
    exact iff_of_true ⟨Exec.failsOnly_pure _ _, by simp [rounds]⟩ trivial
  | cons chunk chunks ih =>
    intro t b hb
    rw [List.forall_mem_cons] at hchunks
    by_cases ht : t + chunkSize ≤ maxMsgSize
    · obtain ⟨b', hb', -, hround⟩ :=
        @run_receivePayload_data messageSize chunk hchunks.1 t b hb ht (chunks.map .data)
      have hmax : maxMsgSize < 2 ^ 32 := by decide
      have hcounter : u32 (t + chunk.length) = t + chunk.length := u32_of_lt (by omega)
      have hrest := ih hchunks.2 (t := t + chunk.length) hb'
      rw [StaysInside, List.map_cons, rounds, hcounter, Fits, and_iff_right ht]
      unfold Exec.FailsOnly
      rw [hround]
      have hwrap : t + chunk.length < 2 ^ 32 := by omega
      by_cases hlt : t + chunk.length < messageSize
      · rw [if_pos hlt, if_pos hlt, List.forall_mem_cons, and_iff_right hwrap]
        exact hrest.trans (imp_iff_right hlt).symm
      · rw [if_neg hlt, if_neg hlt, List.forall_mem_singleton]
        exact iff_of_true ⟨by simp, hwrap⟩ fun h => absurd h hlt
    · obtain ⟨b', hcopy⟩ := copyChunk_of_not_fits hchunks.1 hb (t := t) (by omega)
      refine iff_of_false (fun h => ?_) fun h => ht h.1
      have hrun : (receivePayload messageSize ((chunk :: chunks).map .data) t).run b =
          .error (.undefined .arrayIndex) b' := by
        rw [List.map_cons, receivePayload, EStateM.run_bind, hcopy]
      exact h.1 _ _ hrun _ rfl

/-- A round starts after a part of the chunks when that is all but the last of them, and short of
the message. -/
theorem fits_iff {messageSize : Nat} {chunks : List (List UInt8)} {t : Nat} :
    Fits messageSize chunks t ↔ ∀ before chunk after, chunks = before ++ chunk :: after →
      before = [] ∨ t + before.flatten.length < messageSize →
        t + before.flatten.length + chunkSize ≤ maxMsgSize := by
  induction chunks generalizing t with
  | nil => simp [Fits]
  | cons c chunks ih =>
    rw [Fits, ih]
    constructor
    · rintro ⟨ht, hrest⟩ before chunk after hsplit hstart
      rcases List.cons_eq_append_iff.1 hsplit with ⟨rfl, -⟩ | ⟨before, rfl, rfl⟩
      · simpa using ht
      · have hlt := hstart.resolve_left (by simp)
        rw [List.flatten_cons, List.length_append, ← Nat.add_assoc] at hlt ⊢
        exact hrest (by omega) before chunk after rfl (Or.inr hlt)
    · intro h
      refine ⟨by simpa using h [] c chunks rfl (Or.inl rfl),
        fun hlt before chunk after hsplit => ?_⟩
      subst hsplit
      have hfits := h (c :: before) chunk after rfl
      rw [List.flatten_cons, List.length_append, ← Nat.add_assoc] at hfits
      rintro (rfl | hstart)
      · exact hfits (Or.inr (by simpa using hlt))
      · exact hfits (Or.inr hstart)

/-- The payload loop stays inside the buffers just when it has at most `maxMsgSize - chunkSize`
bytes whenever it waits for more. -/
theorem no_overrun_iff (messageSize : Nat) {chunks : List (List UInt8)}
    (hchunks : ∀ chunk ∈ chunks, 0 < chunk.length ∧ chunk.length ≤ chunkSize) :
    (∀ b, Sized b → StaysInside messageSize chunks 0 b) ↔
      ∀ before chunk after, chunks = before ++ chunk :: after →
        before.flatten.length < messageSize → before.flatten.length ≤ maxMsgSize - chunkSize := by
  have hfits : (∀ b, Sized b → StaysInside messageSize chunks 0 b) ↔ Fits messageSize chunks 0 := by
    have hiff := @staysInside_iff_fits messageSize chunks fun chunk hc => (hchunks chunk hc).2
    refine ⟨fun h => ?_, fun h b hb => (hiff hb).2 h⟩
    have hb : Sized ⟨List.replicate chunkSize 0, List.replicate maxMsgSize 0⟩ :=
      ⟨List.length_replicate, List.length_replicate⟩
    exact (hiff hb).1 (h _ hb)
  rw [hfits, fits_iff]
  refine forall₄_congr fun before chunk after _ => ?_
  have hmax : chunkSize ≤ maxMsgSize := by decide
  rw [Nat.zero_add]
  constructor
  · intro h hlt
    have := h (Or.inr hlt)
    omega
  · rintro h (rfl | hlt)
    · simpa using hmax
    · have := h hlt
      omega

/-- A message of three bytes in two chunks. -/
theorem no_overrun_of_3_bytes : StaysInside 3 [[1, 2], [3]] 0
    ⟨List.replicate chunkSize 0, List.replicate maxMsgSize 0⟩ := by
  refine (@no_overrun_iff 3 [[1, 2], [3]] (by decide)).2 (fun before chunk after h _ => ?_) _
    ⟨List.length_replicate, List.length_replicate⟩
  have hlength := congrArg (fun l => l.flatten.length) h
  simp only [List.flatten_cons, List.length_append, List.flatten_append, List.flatten_nil,
    List.length_cons, List.length_nil] at hlength
  have hmax : 3 ≤ maxMsgSize - chunkSize := by decide
  omega

/-- Full chunks behind a short one. -/
theorem not_fits_of_full {messageSize count : Nat} {first full : List UInt8}
    (hlt : first.length + count * full.length < messageSize)
    (hpast : maxMsgSize < first.length + count * full.length + chunkSize) :
    ¬Fits messageSize (first :: List.replicate (count + 1) full) 0 := by
  intro h
  have hlength : (first :: List.replicate count full).flatten.length =
      first.length + count * full.length := by simp
  have hsplit : first :: List.replicate (count + 1) full =
      (first :: List.replicate count full) ++ full :: [] := by
    rw [List.replicate_succ', List.cons_append]
  have hlast := fits_iff.1 h _ _ _ hsplit (Or.inr (by rw [hlength]; omega))
  rw [hlength] at hlast
  omega

/-- A message of the size of the buffer, with a first chunk of one byte and then full ones. -/
theorem overruns_of_buffer_size :
    (∀ chunk ∈ [0] :: List.replicate 16384 (List.replicate chunkSize (0 : UInt8)),
      0 < chunk.length ∧ chunk.length ≤ chunkSize) ∧
    Sized ⟨List.replicate chunkSize 0, List.replicate maxMsgSize 0⟩ ∧
      ¬StaysInside maxMsgSize ([0] :: List.replicate 16384 (List.replicate chunkSize 0)) 0
        ⟨List.replicate chunkSize 0, List.replicate maxMsgSize 0⟩ := by
  have hchunks : ∀ chunk ∈ [0] :: List.replicate 16384 (List.replicate chunkSize (0 : UInt8)),
      0 < chunk.length ∧ chunk.length ≤ chunkSize := by
    refine List.forall_mem_cons.2 ⟨by decide, fun chunk hc => ?_⟩
    rw [List.eq_of_mem_replicate hc, List.length_replicate]
    exact ⟨by decide, le_rfl⟩
  have hb : Sized ⟨List.replicate chunkSize 0, List.replicate maxMsgSize 0⟩ :=
    ⟨List.length_replicate, List.length_replicate⟩
  refine ⟨hchunks, hb, fun h => ?_⟩
  have hfits := (staysInside_iff_fits (fun chunk hc => (hchunks chunk hc).2) hb).1 h
  refine not_fits_of_full ?_ ?_ hfits <;>
    rw [List.length_replicate, chunkSize, maxMsgSize, List.length_singleton] <;> decide

end ServerConnector

end UscopeDriver
