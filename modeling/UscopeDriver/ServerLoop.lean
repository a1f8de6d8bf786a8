import UscopeDriver.CommandProcessor
import UscopeDriver.Payload

/-!
# The loop of the server

What `start_server` does for one client : it receives a command, has it processed and sends the
response, until the client is gone. `serveClient` is that loop as it is written, call by call, over
the reads of the client. `onRead` is the same code cut at its calls of `read_some` : where it waits
(`Waits`), and what one read makes of that. The cut code does what the loop does
(`serveClient_eq_feed`).

MessagePack is a library. A blocking send delivers all its bytes.
-/

namespace UscopeDriver

open Bytes

/-- The library that packs the messages. Bytes that it cannot unpack it refuses with an
exception. -/
structure MessagePack where
  toMsgpack : Json → List UInt8
  fromMsgpack : List UInt8 → Option Json
  toMsgpack_ne_nil : ∀ j, toMsgpack j ≠ []

/-- What outlives a client. `answered` counts the commands since the start : the driver's time. -/
structure ServerConnector where
  coreProcessor : CommandProcessor
  buffers : ReceiveBuffers
  answered : Nat

namespace ServerConnector

/-- A call on the processor. -/
def onProcessor {α : Type} (m : Exec Failure CommandProcessor α) : Exec Failure ServerConnector α :=
  Exec.zoom (·.coreProcessor) (fun p s => { s with coreProcessor := p }) m

/-- A call on the buffers. -/
def onBuffers {α : Type} (m : Exec Failure ReceiveBuffers α) : Exec Failure ServerConnector α :=
  Exec.zoom (·.buffers) (fun b s => { s with buffers := b }) m

/-- `asio::buffer("k", 1)` -/
def ackMessage : List UInt8 := [107]

/-- The bytes that are sent in the header loops. -/
def acks (events : List SocketEvent) : List UInt8 :=
  events.flatMap fun
    | .acked => ackMessage
    | .received _ => []

section Loop

variable (mp : MessagePack) (world : Nat → Surroundings)

/-- The packed message becomes a command object, which is answered in the surroundings of its
time. -/
def process (message : List UInt8) : Exec Failure ServerConnector Json := do
  let commandObj ← Exec.require (mp.fromMsgpack message) .jsonError
  let k ← Exec.gets (·.answered)
  modify fun s => { s with answered := k + 1 }
  onProcessor (CommandProcessor.answer (world k) commandObj)

/-! ## The calls as they are written -/

/-- How a call of `receive_command` ends. -/
inductive Received where
  | message (bytes : List UInt8)
  /-- The client is gone. -/
  | closed
  /-- Nothing more has come. -/
  | waiting

/-- The call up to the message as a string, with what it sends and the reads that are left. -/
def receiveCommand (reads : List SocketRead) :
    Exec Failure ServerConnector (Received × List UInt8 × List SocketRead) :=
  let phase := receiveSize reads 0 cleared
  match phase.ended with
  | .closed => pure (.closed, acks phase.events, phase.rest)
  | .failed what => throw (.runtimeError what)
  | .waiting => pure (.waiting, acks phase.events, phase.rest)
  | .size messageSize => do
    let (message, rest) ← onBuffers (receivePayload messageSize phase.rest 0)
    pure (message.elim .waiting .message, acks phase.events, rest)

/-- Whether the ack has come, and the reads that are left. -/
def waitAck : List SocketRead → Nat → Exec Failure ServerConnector (Bool × List SocketRead)
  | [], _ => pure (false, [])
  | .eof :: _, _ => throw (.runtimeError "")
  | .error what :: _, _ => throw (.runtimeError what)
  | .data piece :: reads, curSize =>
    if u32 (curSize + piece.length) < 1 then waitAck reads (u32 (curSize + piece.length))
    else pure (true, reads)

/-- What the server has done with the reads of a client so far. -/
structure Served where
  /-- The client is gone, and the server accepts the next one. -/
  gone : Bool
  rest : List SocketRead
  sent : List UInt8

/-- The same after earlier bytes. -/
def Served.after (sent : List UInt8) (served : Served) : Served :=
  { served with sent := sent ++ served.sent }

/-- The inner loop of `start_server`. Every round takes a read, so there are fewer rounds than
`rounds` when that is more than the reads. -/
def serveClient : (rounds : Nat) → List SocketRead → Exec Failure ServerConnector Served
  | 0, reads => pure ⟨false, reads, []⟩
  | rounds + 1, reads => do
    let (received, acked, rest) ← receiveCommand reads
    match received with
    | .closed => pure ⟨true, rest, acked⟩
    | .waiting => pure ⟨false, rest, acked⟩
    | .message bytes => do
      let response ← process mp world bytes
      let rawResponse := mp.toMsgpack response
      let (isAcked, rest) ← waitAck rest 0
      if isAcked then
        Served.after (acked ++ (header rawResponse.length ++ rawResponse)) <$>
          serveClient rounds rest
      else pure ⟨false, rest, acked ++ header rawResponse.length⟩

/-! ## The code between two reads -/

/-- The calls of `read_some`, with the local variables that are alive there. -/
inductive Waits where
  | header (curSize : Nat) (rawCommandSize : List UInt8)
  | payload (messageSize transferProgressive : Nat)
  | ack (curSize : Nat) (rawResponse : List UInt8)
  deriving DecidableEq, Repr

/-- From one read to the next : where the server waits then, none when the client is gone, and what
it sends before that. -/
def onRead : Waits → SocketRead → Exec Failure ServerConnector (Option Waits × List UInt8)
  | .header _ _, .eof => pure (none, [])
  | .payload _ _, .eof => throw (.runtimeError "")
  | .ack _ _, .eof => throw (.runtimeError "")
  | _, .error what => throw (.runtimeError what)
  | .header curSize rawCommandSize, .data piece =>
    let curSize := u32 (curSize + piece.length)
    let rawCommandSize := overwrite rawCommandSize piece
    if curSize < 4 then pure (some (.header curSize rawCommandSize), [])
    else if ofLittleEndian rawCommandSize = 0 then pure (some (.header curSize cleared), ackMessage)
    else pure (some (.payload (ofLittleEndian rawCommandSize) 0), ackMessage)
  | .payload messageSize transferProgressive, .data chunk => do
    onBuffers (copyChunk chunk transferProgressive)
    let transferProgressive := u32 (transferProgressive + chunk.length)
    if transferProgressive < messageSize then
      pure (some (.payload messageSize transferProgressive), [])
    else do
      let message ← onBuffers (messageString messageSize)
      let response ← process mp world message
      let rawResponse := mp.toMsgpack response
      pure (some (.ack 0 rawResponse), header rawResponse.length)
  | .ack curSize rawResponse, .data piece =>
    let curSize := u32 (curSize + piece.length)
    if curSize < 1 then pure (some (.ack curSize rawResponse), [])
    else pure (some (.header 0 cleared), rawResponse)

/-- The reads of a client one after the other, from where the server waits. -/
def feed : List SocketRead → Waits → Exec Failure ServerConnector Served
  | [], _ => pure ⟨false, [], []⟩
  | read :: reads, waits => do
    let (next, sent) ← onRead mp world waits read
    match next with
    | none => pure ⟨true, reads, sent⟩
    | some waits => Served.after sent <$> feed reads waits

/-! ## The cut code does what the loop does -/

theorem onBuffers_bind {α β : Type} (m : Exec Failure ReceiveBuffers α)
    (f : α → Exec Failure ReceiveBuffers β) :
    onBuffers (m >>= f) = onBuffers m >>= fun a => onBuffers (f a) := by
  unfold onBuffers
  refine Exec.zoom_bind ?_ ?_ m f <;> intros <;> rfl

theorem onBuffers_pure {α : Type} (a : α) : onBuffers (pure a) = pure a := by
  unfold onBuffers
  exact Exec.zoom_pure (fun _ => rfl) a

theorem acks_append (events events' : List SocketEvent) :
    acks (events ++ events') = acks events ++ acks events' := by
  simp [acks]

@[simp] theorem Served.after_after (sent sent' : List UInt8) (served : Served) :
    (served.after sent').after sent = served.after (sent ++ sent') := by
  simp [Served.after]

theorem map_after_nil (m : Exec Failure ServerConnector Served) : Served.after [] <$> m = m :=
  id_map m

/-- What is left of a client once its header loops have ended. -/
def afterHeader (phase : HeaderPhase) : Exec Failure ServerConnector Served :=
  match phase.ended with
  | .closed => pure ⟨true, phase.rest, acks phase.events⟩
  | .failed what => throw (.runtimeError what)
  | .waiting => pure ⟨false, phase.rest, acks phase.events⟩
  | .size messageSize =>
    Served.after (acks phase.events) <$> feed mp world phase.rest (.payload messageSize 0)

/-- Once the payload loop has ended. -/
def afterPayload (received : Option (List UInt8) × List SocketRead) :
    Exec Failure ServerConnector Served :=
  match received.1 with
  | none => pure ⟨false, received.2, []⟩
  | some bytes => do
    let response ← process mp world bytes
    let rawResponse := mp.toMsgpack response
    Served.after (header rawResponse.length) <$> feed mp world received.2 (.ack 0 rawResponse)

/-- Once the wait for the ack has ended. -/
def afterAck (rawResponse : List UInt8) (waited : Bool × List SocketRead) :
    Exec Failure ServerConnector Served :=
  if waited.1 then Served.after rawResponse <$> feed mp world waited.2 (.header 0 cleared)
  else pure ⟨false, waited.2, []⟩

theorem afterHeader_after (events : List SocketEvent) (phase : HeaderPhase) :
    afterHeader mp world (phase.after events) =
      Served.after (acks events) <$> afterHeader mp world phase := by
  obtain ⟨ended, events', rest⟩ := phase
  cases ended with
  | size messageSize => simp [afterHeader, HeaderPhase.after, acks_append]
  | closed => simp [afterHeader, HeaderPhase.after, acks_append, Served.after]
  | failed what => rfl
  | waiting => simp [afterHeader, HeaderPhase.after, acks_append, Served.after]

theorem feed_header (reads : List SocketRead) (curSize : Nat) (raw : List UInt8) :
    feed mp world reads (.header curSize raw) =
      afterHeader mp world (receiveSize reads curSize raw) := by
  induction reads generalizing curSize raw with
  | nil => rfl
  | cons read reads ih =>
    cases read with
    | eof => rfl
    | error what => rfl
    | data piece =>
      rw [feed, onRead, receiveSize]
      simp only
      split_ifs with hlt hzero
      · rw [afterHeader_after, ← ih, pure_bind]
        rfl
      · rw [afterHeader_after, ← ih, pure_bind]
        rfl
      · rw [pure_bind]
        rfl

theorem feed_payload (messageSize : Nat) (reads : List SocketRead) (t : Nat) :
    feed mp world reads (.payload messageSize t) =
      onBuffers (receivePayload messageSize reads t) >>= afterPayload mp world := by
  induction reads generalizing t with
  | nil => rfl
  | cons read reads ih =>
    cases read with
    | eof => rfl
    | error what => rfl
    | data chunk =>
      rw [feed, onRead, receivePayload, onBuffers_bind, bind_assoc, bind_assoc]
      congr 1
      funext u
      simp only
      split_ifs with hlt
      · rw [pure_bind, ← ih]
        exact map_after_nil _
      · rw [onBuffers_bind, bind_assoc, bind_assoc]
        congr 1
        funext bytes
        rw [onBuffers_pure, pure_bind, bind_assoc]
        rfl

theorem feed_ack (rawResponse : List UInt8) (reads : List SocketRead) (curSize : Nat) :
    feed mp world reads (.ack curSize rawResponse) =
      waitAck reads curSize >>= afterAck mp world rawResponse := by
  induction reads generalizing curSize with
  | nil => rfl
  | cons read reads ih =>
    cases read with
    | eof => rfl
    | error what => rfl
    | data piece =>
      rw [feed, onRead, waitAck]
      simp only
      split_ifs with hlt
      · rw [pure_bind, ← ih]
        exact map_after_nil _
      · rw [pure_bind]
        rfl

/-! The calls take reads from the client. -/

theorem length_rest_of_size {reads : List SocketRead} {curSize n : Nat} {raw : List UInt8}
    (h : (receiveSize reads curSize raw).ended = .size n) :
    (receiveSize reads curSize raw).rest.length < reads.length := by
  induction reads generalizing curSize raw with
  | nil => cases h
  | cons read reads ih =>
    cases read with
    | eof => cases h
    | error what => cases h
    | data piece =>
      rw [receiveSize] at h ⊢
      split_ifs at h ⊢ with hlt hzero
      · exact (ih h).trans (Nat.lt_succ_self _)
      · exact (ih h).trans (Nat.lt_succ_self _)
      · exact Nat.lt_succ_self _

theorem length_rest_of_receivePayload {messageSize : Nat} {reads : List SocketRead} {t : Nat}
    {received : Option (List UInt8) × List SocketRead} {b b' : ReceiveBuffers}
    (h : (receivePayload messageSize reads t).run b = .ok received b') :
    received.2.length ≤ reads.length := by
  induction reads generalizing t b with
  | nil =>
    obtain ⟨rfl, -⟩ := Exec.pure_eq_ok.1 h
    exact le_rfl
  | cons read reads ih =>
    cases read with
    | eof => cases h
    | error what => cases h
    | data chunk =>
      rw [receivePayload] at h
      obtain ⟨u, b₁, -, h⟩ := Exec.bind_eq_ok.1 h
      simp only at h
      split_ifs at h with hlt
      · exact (ih h).trans (Nat.le_succ _)
      · obtain ⟨bytes, b₂, -, h⟩ := Exec.bind_eq_ok.1 h
        obtain ⟨rfl, -⟩ := Exec.pure_eq_ok.1 h
        exact Nat.le_succ _

theorem length_rest_of_waitAck {reads : List SocketRead} {curSize : Nat}
    {waited : Bool × List SocketRead} {s s' : ServerConnector}
    (h : (waitAck reads curSize).run s = .ok waited s') : waited.2.length ≤ reads.length := by
  induction reads generalizing curSize with
  | nil =>
    obtain ⟨rfl, -⟩ := Exec.pure_eq_ok.1 h
    exact le_rfl
  | cons read reads ih =>
    cases read with
    | eof => cases h
    | error what => cases h
    | data piece =>
      rw [waitAck] at h
      split_ifs at h with hlt
      · exact (ih h).trans (Nat.le_succ _)
      · obtain ⟨rfl, -⟩ := Exec.pure_eq_ok.1 h
        exact Nat.le_succ _

/-- Whatever a client sends, the loop of the server is the code between its reads, run read by
read. -/
theorem serveClient_eq_feed (rounds : Nat) (reads : List SocketRead)
    (h : reads.length < rounds) :
    serveClient mp world rounds reads = feed mp world reads (.header 0 cleared) := by
  induction rounds generalizing reads with
  | zero => exact absurd h (Nat.not_lt_zero _)
  | succ rounds ih =>
    rw [feed_header, serveClient, receiveCommand, afterHeader]
    cases hended : (receiveSize reads 0 cleared).ended with
    | closed => rfl
    | failed what => rfl
    | waiting => rfl
    | size messageSize =>
      have hheader := length_rest_of_size hended
      simp only [feed_payload, map_bind, bind_assoc, pure_bind]
      refine Exec.bind_congr_of_ok fun received s s' hrun => ?_
      obtain ⟨b', hpayload, -⟩ := Exec.zoom_eq_ok.1 hrun
      have hpayload := length_rest_of_receivePayload hpayload
      obtain ⟨message, rest⟩ := received
      cases message with
      | none => simp [afterPayload, Served.after]
      | some bytes =>
        simp only [afterPayload, Option.elim, feed_ack, map_bind]
        congr 1
        funext response
        refine Exec.bind_congr_of_ok fun waited s s' hrun => ?_
        have hack := length_rest_of_waitAck hrun
        obtain ⟨isAcked, rest'⟩ := waited
        simp only at hpayload hack
        cases isAcked with
        | false => simp [afterAck, Served.after]
        | true =>
          have hrest := ih rest' (by omega)
          simp [afterAck, hrest]

end Loop

end ServerConnector

end UscopeDriver
