import UscopeDriver.Library.TwoRuns
import UscopeDriver.SessionRuns

/-!
# What is left in the buffers

The buffers of the server keep the bytes of earlier messages and of earlier clients. A chunk is
copied with what is behind it in its buffer, and the size of a message is only what its client says.
Still no old byte is ever decoded : whatever the reads of a client are, well formed or not, what the
server does does not depend on what the buffers held (`serveClient_leftovers`).
-/

namespace UscopeDriver

open Bytes

namespace ServerConnector

/-- The buffers agree on the first `t` bytes of the message. -/
structure AlikeUpTo (t : Nat) (b b' : ReceiveBuffers) : Prop where
  left : Sized b
  right : Sized b'
  received : b.messageBuffer.take t = b'.messageBuffer.take t

/-- Apart from the buffers the servers are the same. -/
structure SameApart (s s' : ServerConnector) : Prop where
  coreProcessor : s.coreProcessor = s'.coreProcessor
  answered : s.answered = s'.answered

/-- What the buffers agree on where the server waits. -/
def Waits.received : Waits → Nat
  | .payload _ transferProgressive => transferProgressive
  | _ => 0

/-- The servers have received the same where they wait. -/
structure Alike (waits : Waits) (s s' : ServerConnector) : Prop where
  apart : SameApart s s'
  buffers : AlikeUpTo waits.received s.buffers s'.buffers

/-- Less may be compared. -/
theorem AlikeUpTo.mono {t k : Nat} {b b' : ReceiveBuffers} (h : AlikeUpTo t b b') (hk : k ≤ t) :
    AlikeUpTo k b b' where
  left := h.left
  right := h.right
  received := by
    have htake := congrArg (List.take k) h.received
    rwa [List.take_take, List.take_take, Nat.min_eq_left hk] at htake

/-- A chunk fits both buffers or neither. -/
theorem sameAt_copyChunk {chunk : List UInt8} (hchunk : chunk.length ≤ chunkSize) {t : Nat}
    {b b' : ReceiveBuffers} (h : AlikeUpTo t b b') :
    Exec.SameAt (fun _ c c' => t + chunkSize ≤ maxMsgSize ∧ AlikeUpTo (t + chunk.length) c c')
      (fun _ _ => True) (copyChunk chunk t) b b' := by
  by_cases ht : t + chunkSize ≤ maxMsgSize
  · obtain ⟨c, hcopy, hc, hbytes⟩ := copyChunk_of_fits hchunk h.left ht
    obtain ⟨c', hcopy', hc', hbytes'⟩ := copyChunk_of_fits hchunk h.right ht
    exact Or.inl ⟨_, c, c', hcopy, hcopy', ht, hc, hc', by rw [hbytes, hbytes', h.received]⟩
  · obtain ⟨c, hcopy⟩ := copyChunk_of_not_fits hchunk h.left (Nat.lt_of_not_le ht)
    obtain ⟨c', hcopy'⟩ := copyChunk_of_not_fits hchunk h.right (Nat.lt_of_not_le ht)
    exact Or.inr ⟨_, c, c', hcopy, hcopy', trivial⟩

/-- The bytes that have arrived are all that is decoded. -/
theorem sameAt_messageString {messageSize t : Nat} (ht : messageSize ≤ t) {b b' : ReceiveBuffers}
    (h : AlikeUpTo t b b') :
    Exec.SameAt (fun _ c c' => True ∧ AlikeUpTo 0 c c') (fun _ _ => True)
      (messageString messageSize) b b' := by
  by_cases hsize : messageSize ≤ maxMsgSize
  · have hrun : ∀ c, Sized c →
        (messageString messageSize).run c = .ok (c.messageBuffer.take messageSize) c := fun c hc =>
      messageString_eq_ok.2 ⟨hsize.trans_eq hc.messageBuffer.symm, rfl, rfl⟩
    refine Or.inl ⟨_, b, b', hrun b h.left, ?_, trivial, h.mono (Nat.zero_le t)⟩
    rw [(h.mono ht).received]
    exact hrun b' h.right
  · have hrun : ∀ c, Sized c →
        (messageString messageSize).run c = .error (.undefined .arrayIndex) c := by
      intro c hc
      have hpast : c.messageBuffer.length < messageSize := by
        rw [hc.messageBuffer]
        exact Nat.lt_of_not_le hsize
      rw [messageString, Exec.run_gets_bind, id_eq, Exec.run_throwIf_bind, if_pos hpast]
    exact Or.inr ⟨_, b, b', hrun b h.left, hrun b' h.right, trivial⟩

variable {mp : MessagePack} {world : Nat → Surroundings} {s s' : ServerConnector}

/-- A call on the buffers does not see the rest of the server. -/
theorem sameAt_onBuffers {α : Type} {m : Exec Failure ReceiveBuffers α} {P : Prop} {k : Nat}
    (h : Exec.SameAt (fun _ b b' => P ∧ AlikeUpTo k b b') (fun _ _ => True) m s.buffers s'.buffers)
    (hapart : SameApart s s') :
    Exec.SameAt (fun _ t t' => P ∧ SameApart t t' ∧ AlikeUpTo k t.buffers t'.buffers) SameApart
      (onBuffers m) s s' := by
  refine h.zoom ?_ fun _ _ _ => ⟨hapart.coreProcessor, hapart.answered⟩
  rintro a b b' ⟨hP, hb⟩
  exact ⟨hP, ⟨hapart.coreProcessor, hapart.answered⟩, hb⟩

/-- The command only sees the processor. -/
theorem sameAt_process {bytes : List UInt8} (h : Alike (.ack 0 []) s s') :
    Exec.SameAt (fun _ => Alike (.ack 0 [])) SameApart (process mp world bytes) s s' := by
  refine (Exec.sameAt_require (fun _ _ => h) fun _ => h.apart).bind fun commandObj t t' h => ?_
  refine (Exec.sameAt_gets (R := fun _ => Alike (.ack 0 [])) h.apart.answered h).bind
    fun k t t' h => ?_
  refine Exec.SameAt.bind (R := fun _ => Alike (.ack 0 [])) (Exec.sameAt_modify ?_)
    fun _ t t' h => ?_
  · exact ⟨⟨h.apart.coreProcessor, rfl⟩, h.buffers⟩
  · refine Exec.SameAt.zoom (R := fun _ p p' => p = p') (E := fun p p' => p = p') ?_
      (fun _ p p' hp => ⟨⟨hp, h.apart.answered⟩, h.buffers⟩) fun p p' hp => ⟨hp, h.apart.answered⟩
    rw [h.apart.coreProcessor]
    exact Exec.sameAt_self _ _

/-- What is the same after a read. -/
def AlikeAfter (next : Option Waits × List UInt8) (s s' : ServerConnector) : Prop :=
  Alike (next.1.getD (.header 0 cleared)) s s'

/-- One read keeps the servers alike, and sends the same. -/
theorem sameAt_onRead {waits : Waits} {read : SocketRead}
    (hread : ∀ chunk, read = .data chunk → chunk.length ≤ chunkSize) (h : Alike waits s s') :
    Exec.SameAt AlikeAfter SameApart (onRead mp world waits read) s s' := by
  have hnone : Alike (.header 0 cleared) s s' := ⟨h.apart, h.buffers.mono (Nat.zero_le _)⟩
  cases read with
  | eof =>
    cases waits with
    | header curSize raw => exact Exec.sameAt_pure hnone
    | payload messageSize t => exact Exec.sameAt_throw _ h.apart
    | ack curSize raw => exact Exec.sameAt_throw _ h.apart
  | error what => cases waits <;> exact Exec.sameAt_throw _ h.apart
  | data chunk =>
    cases waits with
    | header curSize raw =>
      rw [onRead]
      split_ifs <;> exact Exec.sameAt_pure ⟨hnone.apart, hnone.buffers⟩
    | ack curSize raw =>
      rw [onRead]
      split_ifs <;> exact Exec.sameAt_pure ⟨hnone.apart, hnone.buffers⟩
    | payload messageSize t =>
      rw [onRead]
      refine (sameAt_onBuffers (sameAt_copyChunk (hread chunk rfl) h.buffers) h.apart).bind ?_
      rintro - c c' ⟨ht, hapart, hbuffers⟩
      have ht : t + chunkSize ≤ maxMsgSize := ht
      have hmax : maxMsgSize < 2 ^ 32 := by decide
      have hcounter : u32 (t + chunk.length) = t + chunk.length :=
        u32_of_lt (by have := hread chunk rfl; omega)
      simp only [hcounter]
      split_ifs with hlt
      · exact Exec.sameAt_pure ⟨hapart, hbuffers⟩
      · refine (sameAt_onBuffers (sameAt_messageString (Nat.not_lt.1 hlt) hbuffers) hapart).bind ?_
        rintro message d d' ⟨-, hd⟩
        exact (sameAt_process ⟨hd.1, hd.2⟩).bind fun response e e' he =>
          Exec.sameAt_pure ⟨he.apart, he.buffers⟩

/-- So do the reads of a client, by induction. -/
theorem sameAt_feed {reads : List SocketRead}
    (hreads : ∀ chunk, .data chunk ∈ reads → chunk.length ≤ chunkSize) {waits : Waits}
    (h : Alike waits s s') :
    Exec.SameAt (fun _ => SameApart) SameApart (feed mp world reads waits) s s' := by
  induction reads generalizing waits s s' with
  | nil => exact Exec.sameAt_pure h.apart
  | cons read reads ih =>
    have hread : ∀ chunk, read = .data chunk → chunk.length ≤ chunkSize := by
      rintro chunk rfl
      exact hreads chunk (by simp)
    refine (sameAt_onRead hread h).bind fun next t t' ht => ?_
    obtain ⟨next, sent⟩ := next
    cases next with
    | none => exact Exec.sameAt_pure ht.apart
    | some waits =>
      exact (ih (fun chunk hc => hreads chunk (by simp [hc])) ht).map _ fun _ _ _ h => h

/-- For any reads of a client, with no more than the buffer holds in each, and whatever the buffers
hold when it connects, the server sends the same, processes the same commands and ends in the same
way. It does so after each of the reads, so also up to one that ends in an exception. -/
theorem serveClient_leftovers {reads : List SocketRead}
    (hreads : ∀ chunk, .data chunk ∈ reads → chunk.length ≤ chunkSize) {s : ServerConnector}
    (hs : Sized s.buffers) {b : ReceiveBuffers} (hb : Sized b) {before : List SocketRead}
    (hbefore : before <+: reads) :
    Exec.SameAt (fun _ => SameApart) SameApart (serveClient mp world (before.length + 1) before) s
      { s with buffers := b } := by
  rw [serveClient_eq_feed _ _ _ _ (Nat.lt_succ_self _)]
  exact sameAt_feed (fun chunk hc => hreads chunk (hbefore.mem hc)) ⟨⟨rfl, rfl⟩, hs, hb, rfl⟩

/-- A client that announces three bytes, sends one and is gone. -/
theorem serveClient_leftovers_of_short : Exec.SameAt (fun _ => SameApart) SameApart
    (serveClient Session.nullPack (fun _ => .of [] []) 4 [.data [3, 0, 0, 0], .data [1], .eof])
    Session.startedConnector { Session.startedConnector with
      buffers := ⟨List.replicate chunkSize 7, List.replicate maxMsgSize 7⟩ } := by
  refine @serveClient_leftovers _ _ [.data [3, 0, 0, 0], .data [1], .eof] (fun chunk h => ?_) _
    Session.sized_startedConnector _ ⟨List.length_replicate, List.length_replicate⟩ _
    List.prefix_rfl
  simp only [List.mem_cons, SocketRead.data.injEq, reduceCtorEq, List.not_mem_nil, or_false] at h
  rcases h with rfl | rfl <;> decide

end ServerConnector

end UscopeDriver
