import UscopeDriver.Session

/-!
# The steps of a session

The client and the server always are at places of the protocol that belong together (`Stage`). With
what has been processed that makes the invariant of a session (`Agrees`). Every step keeps it, and
brings the session nearer to its end (`agrees_step`).
-/

namespace UscopeDriver

open Bytes ServerConnector CommandProcessor

namespace Session

variable {mp : MessagePack} {world : Nat → Surroundings} {network : Waits → List UInt8 → Prop}

/-! ## What has been processed -/

/-- The commands of messages, each with the surroundings that it finds. -/
def commands (world : Nat → Surroundings) (k : Nat) (ms : List (Message mp)) :
    List (Surroundings × Json) :=
  (ms.zipIdx k).map fun m => (world m.2, m.1.commandObj)

theorem commands_snoc (k : Nat) (ms : List (Message mp)) (m : Message mp) :
    commands world k (ms ++ [m]) =
      commands world k ms ++ [(world (k + ms.length), m.commandObj)] := by
  simp [commands, List.zipIdx_append]

/-- From `c₀` on the server has processed just these messages, with these responses. -/
structure Processed (world : Nat → Surroundings) (c₀ : ServerConnector) (ms : List (Message mp))
    (responses : List Json) (c : ServerConnector) : Prop where
  run : (serve (commands world c₀.answered ms)).run c₀.coreProcessor =
    .ok responses c.coreProcessor
  answered : c.answered = c₀.answered + ms.length
  sized : Sized c.buffers

theorem serve_snoc {messages : List (Surroundings × Json)} {message : Surroundings × Json}
    {responses : List Json} {response : Json} {p p' p'' : CommandProcessor}
    (hserve : (serve messages).run p = .ok responses p')
    (hanswer : (answer message.1 message.2).run p' = .ok response p'') :
    (serve (messages ++ [message])).run p = .ok (responses ++ [response]) p'' := by
  unfold serve at hserve ⊢
  rw [List.mapM_append]
  refine Exec.bind_eq_ok.2 ⟨responses, p', hserve, Exec.bind_eq_ok.2 ⟨[response], p'', ?_, rfl⟩⟩
  rw [List.mapM_cons]
  exact Exec.bind_eq_ok.2 ⟨response, p'', hanswer, rfl⟩

/-- The buffers may change. -/
theorem Processed.of_buffers {c₀ c : ServerConnector} {ms : List (Message mp)}
    {responses : List Json} (h : Processed world c₀ ms responses c) {b : ReceiveBuffers}
    (hb : Sized b) : Processed world c₀ ms responses { c with buffers := b } :=
  ⟨h.run, h.answered, hb⟩

theorem Processed.snoc {c₀ c : ServerConnector} {ms : List (Message mp)} {responses : List Json}
    (h : Processed world c₀ ms responses c) {m : Message mp} {response : Json}
    {p : CommandProcessor}
    (hanswer : (answer (world c.answered) m.commandObj).run c.coreProcessor = .ok response p) :
    Processed world c₀ (ms ++ [m]) (responses ++ [response])
      { c with coreProcessor := p, answered := c.answered + 1 } where
  run := by
    rw [commands_snoc]
    refine serve_snoc h.run ?_
    rw [← h.answered]
    exact hanswer
  answered := by simp [h.answered, Nat.add_assoc]
  sized := h.sized

/-! ## The reads of the server -/

variable {c : ServerConnector}

theorem run_process {bytes : List UInt8} {commandObj : Json}
    (h : mp.fromMsgpack bytes = some commandObj) :
    (process mp world bytes).run c =
      match (answer (world c.answered) commandObj).run c.coreProcessor with
      | .ok response p => .ok response { c with coreProcessor := p, answered := c.answered + 1 }
      | .error e p => .error e { c with coreProcessor := p, answered := c.answered + 1 } := by
  have hrun : (process mp world bytes).run c =
      (onProcessor (answer (world c.answered) commandObj)).run
        { c with answered := c.answered + 1 } := by
    unfold process
    rw [h]
    rfl
  rw [hrun, onProcessor, Exec.run_zoom]
  cases (answer (world c.answered) commandObj).run c.coreProcessor <;> rfl

/-- A header that arrives whole. -/
theorem run_onRead_header {n : Nat} (hn : 0 < n) (hn' : n < 2 ^ 32) :
    (onRead mp world (.header 0 cleared) (.data (header n))).run c =
      .ok (some (.payload n 0), ackMessage) c := by
  have hlength : (header n).length = 4 := length_littleEndian 4 n
  have hraw : overwrite cleared (header n) = header n := by
    rw [overwrite, hlength]
    exact List.append_nil _
  have hvalue : ofLittleEndian (header n) = n := ofLittleEndian_littleEndian hn'
  have hsize : ¬u32 (0 + 4) < 4 := by decide
  simp only [onRead, hlength, hraw, hvalue, if_neg hsize, if_neg hn.ne']
  rfl

theorem run_onRead_ack (raw piece : List UInt8) (hpiece : piece.length = 1) :
    (onRead mp world (.ack 0 raw) (.data piece)).run c = .ok (some (.header 0 cleared), raw) c := by
  have hsize : ¬u32 (0 + 1) < 1 := by decide
  simp only [onRead, hpiece, if_neg hsize]
  rfl

/-- The bytes of a message that have arrived so far are the front of its buffer. -/
structure Received (m : Message mp) (got rest : List UInt8) (b : ReceiveBuffers) : Prop where
  split : m.payload = got ++ rest
  buffer : b.messageBuffer.take got.length = got

/-- A chunk that is not the last one. -/
theorem run_onRead_chunk {m : Message mp} {got piece rest : List UInt8}
    (h : Received m got (piece ++ rest) c.buffers) (hsized : Sized c.buffers)
    (hpiece : piece.length ≤ chunkSize) (hrest : rest ≠ []) :
    ∃ b, Sized b ∧ Received m (got ++ piece) rest b ∧
      (onRead mp world (.payload m.payload.length got.length) (.data piece)).run c =
        .ok (some (.payload m.payload.length (got ++ piece).length), [])
          { c with buffers := b } := by
  have hlength : m.payload.length = got.length + (piece.length + rest.length) := by simp [h.split]
  have hpos := List.length_pos_of_ne_nil hrest
  have hfits := m.fits
  obtain ⟨b, hcopy, hb, hbytes⟩ :=
    copyChunk_of_fits hpiece hsized (t := got.length) (by omega)
  have hmax : maxMsgSize < 2 ^ 32 := by decide
  have hcounter : u32 (got.length + piece.length) = got.length + piece.length :=
    u32_of_lt (by omega)
  refine ⟨b, hb, ⟨by simp [h.split], ?_⟩, ?_⟩
  · rw [List.length_append, hbytes, h.buffer]
  · have hlt : got.length + piece.length < m.payload.length := by omega
    have hrun : (onBuffers (copyChunk piece got.length)).run c = .ok () { c with buffers := b } :=
      Exec.zoom_eq_ok.2 ⟨b, hcopy, rfl⟩
    rw [onRead, EStateM.run_bind, hrun, List.length_append]
    simp only [hcounter, if_pos hlt]
    rfl

/-- The last chunk, after which the message is processed. -/
theorem run_onRead_last {m : Message mp} {got piece : List UInt8}
    (h : Received m got piece c.buffers) (hsized : Sized c.buffers)
    (hpiece : piece.length ≤ chunkSize) :
    ∃ b, Sized b ∧
      (onRead mp world (.payload m.payload.length got.length) (.data piece)).run c =
        match (answer (world c.answered) m.commandObj).run c.coreProcessor with
        | .ok response p =>
          .ok (some (.ack 0 (mp.toMsgpack response)), header (mp.toMsgpack response).length)
            ⟨p, b, c.answered + 1⟩
        | .error e p => .error e ⟨p, b, c.answered + 1⟩ := by
  have hlength : m.payload.length = got.length + piece.length := by simp [h.split]
  have hfits := m.fits
  obtain ⟨b, hcopy, hb, hbytes⟩ :=
    copyChunk_of_fits hpiece hsized (t := got.length) (by omega)
  have hmax : maxMsgSize < 2 ^ 32 := by decide
  have hcounter : u32 (got.length + piece.length) = m.payload.length := by
    rw [u32_of_lt (by omega), hlength]
  refine ⟨b, hb, ?_⟩
  have hrun : (onBuffers (copyChunk piece got.length)).run c = .ok () { c with buffers := b } :=
    Exec.zoom_eq_ok.2 ⟨b, hcopy, rfl⟩
  have hbuffer : b.messageBuffer.take m.payload.length = m.payload := by
    rw [hlength, hbytes, h.buffer, h.split]
  have hstring : (onBuffers (messageString m.payload.length)).run { c with buffers := b } =
      .ok m.payload { c with buffers := b } := by
    refine Exec.zoom_eq_ok.2 ⟨b, messageString_eq_ok.2 ⟨?_, hbuffer.symm, rfl⟩, rfl⟩
    rw [hb.messageBuffer]
    omega
  rw [onRead, EStateM.run_bind, hrun]
  simp only [hcounter, lt_irrefl, if_false]
  rw [EStateM.run_bind, hstring]
  simp only
  rw [EStateM.run_bind, run_process m.unpacks]
  cases (answer (world c.answered) m.commandObj).run c.coreProcessor <;> rfl

/-! ## Places that belong together -/

/-- How far the message under way has come, if there is one. -/
inductive Progress (mp : MessagePack) where
  | none
  | asked (m : Message mp)
  | answered (m : Message mp) (response : Json)
  /-- Something has escaped from its command. -/
  | failed (m : Message mp)

/-- The message under way. -/
def Progress.messages : Progress mp → List (Message mp)
  | .none => []
  | .asked m => [m]
  | .answered m _ => [m]
  | .failed m => [m]

/-- Where `done` are the messages whose responses were read, with their responses. -/
def Progress.Holds (world : Nat → Surroundings) (c₀ : ServerConnector) (done : List (Message mp))
    (responses : List Json) (c : ServerConnector) : Progress mp → Prop
  | .none => Processed world c₀ done responses c
  | .asked _ => Processed world c₀ done responses c
  | .answered m response => Processed world c₀ (done ++ [m]) (responses ++ [response]) c
  | .failed m => ∃ c', Processed world c₀ done responses c' ∧
      ∃ e p, (answer (world c'.answered) m.commandObj).run c'.coreProcessor = .error e p

/-- The places where client, streams, server and its buffers can be at the same time. -/
inductive Stage :
    Client mp → List UInt8 → List UInt8 → Server → ReceiveBuffers → Progress mp → Prop
  | between {b : ReceiveBuffers} : Stage .left [] [] .accepts b .none
  | idle {b : ReceiveBuffers} : Stage .idle [] [] (.waits (.header 0 cleared)) b .none
  | left {b : ReceiveBuffers} : Stage .left [] [] (.waits (.header 0 cleared)) b .none
  | announced {b : ReceiveBuffers} {m : Message mp} :
      Stage (.awaitsAck m) (header m.payload.length) [] (.waits (.header 0 cleared)) b (.asked m)
  | acked {b : ReceiveBuffers} {m : Message mp} :
      Stage (.awaitsAck m) [] ackMessage (.waits (.payload m.payload.length 0)) b (.asked m)
  | sending {b : ReceiveBuffers} {m : Message mp} {got rest : List UInt8}
      (received : Received m got rest b) (more : rest ≠ []) :
      Stage (.readsSize m []) rest [] (.waits (.payload m.payload.length got.length)) b (.asked m)
  | answered {b : ReceiveBuffers} {m : Message mp} {response : Json} {got rest : List UInt8}
      (split : header (mp.toMsgpack response).length = got ++ rest) (more : rest ≠ []) :
      Stage (.readsSize m got) [] rest (.waits (.ack 0 (mp.toMsgpack response))) b
        (.answered m response)
  | told {b : ReceiveBuffers} {m : Message mp} {response : Json} :
      Stage (.readsBody m (mp.toMsgpack response).length []) ackMessage []
        (.waits (.ack 0 (mp.toMsgpack response))) b (.answered m response)
  | returned {b : ReceiveBuffers} {m : Message mp} {response : Json} {got rest : List UInt8}
      (split : mp.toMsgpack response = got ++ rest) (more : rest ≠ []) :
      Stage (.readsBody m (mp.toMsgpack response).length got) [] rest
        (.waits (.header 0 cleared)) b (.answered m response)
  | down {b : ReceiveBuffers} {m : Message mp} :
      Stage (.readsSize m []) [] [] .down b (.failed m)

/-- The invariant of a session of these clients. -/
structure Agrees (world : Nat → Surroundings) (c₀ : ServerConnector)
    (clients : List (List (Message mp))) (s : Session mp) (done : List (Message mp))
    (responses : List Json) (progress : Progress mp) : Prop where
  messages : done ++ (progress.messages ++ (s.todo ++ s.clients.flatten)) = clients.flatten
  log : s.log = done.zip (responses.map mp.toMsgpack)
  length : responses.length = done.length
  gone : s.client = .left → s.todo = []
  holds : progress.Holds world c₀ done responses s.connector
  stage : Stage s.client s.toServer s.toClient s.server s.connector.buffers progress

/-- The sizes of all responses fit their four bytes. -/
def ShortResponses (world : Nat → Surroundings) (c₀ : ServerConnector)
    (messages : List (Message mp)) : Prop :=
  ∀ ms, ms <+: messages → ∀ responses p,
    (serve (commands world c₀.answered ms)).run c₀.coreProcessor = .ok responses p →
      ∀ response ∈ responses, (mp.toMsgpack response).length < 2 ^ 32

/-! ## The way to the end -/

/-- The places before the end of the message under way, or of the client. -/
def placesLeft : Client mp → Server → Nat
  | .awaitsAck _, .waits (.header _ _) => 9
  | .awaitsAck _, _ => 8
  | .readsSize _ _, .waits (.payload _ _) => 7
  | .readsSize _ _, .waits (.ack _ _) => 6
  | .readsSize _ _, _ => 5
  | .readsBody _ _ _, .waits (.ack _ _) => 4
  | .readsBody _ _ _, _ => 3
  | .idle, _ => 2
  | .left, .waits _ => 1
  | .left, _ => 0

/-- The message under way has all places before the ones of the next. -/
theorem placesLeft_bounds (m : Message mp) (size : Nat) (got : List UInt8) (server : Server) :
    (3 ≤ placesLeft (.readsBody m size got) server ∧
      placesLeft (.readsBody m size got) server ≤ 4) ∧
    (5 ≤ placesLeft (.readsSize m got) server ∧ placesLeft (.readsSize m got) server ≤ 7) ∧
    (8 ≤ placesLeft (.awaitsAck m) server ∧ placesLeft (.awaitsAck m) server ≤ 9) := by
  cases server with
  | accepts => simp [placesLeft]
  | down => simp [placesLeft]
  | waits at' => cases at' <;> simp [placesLeft]

theorem placesLeft_left_le (server : Server) : placesLeft (.left : Client mp) server ≤ 1 := by
  cases server <;> simp [placesLeft]

theorem placesLeft_idle (server : Server) : placesLeft (.idle : Client mp) server = 2 := by
  cases server <;> rfl

/-- The places before the end of the session, and the bytes on the streams. -/
def rank (s : Session mp) : Nat × Nat :=
  ((s.clients.map fun todo => 10 * todo.length + 3).sum + 10 * s.todo.length +
    placesLeft s.client s.server, s.toServer.length + s.toClient.length)

/-- Nearer to the end. -/
def Nearer (r' r : Nat × Nat) : Prop := Prod.Lex (· < ·) (· < ·) r' r

theorem wellFounded_nearer : WellFounded Nearer :=
  WellFounded.prod_lex Nat.lt_wfRel.wf Nat.lt_wfRel.wf

theorem nearer_of_lt {a a' b b' : Nat} (h : a' < a) : Nearer (a', b') (a, b) := .left _ _ h

theorem nearer_of_eq {a a' b b' : Nat} (h : a' = a) (hb : b' < b) : Nearer (a', b') (a, b) := by
  subst h
  exact .right _ hb

/-! ## One step -/

section Step

variable {c₀ : ServerConnector} {clients : List (List (Message mp))} {s : Session mp}
  {done : List (Message mp)} {responses : List Json} {progress : Progress mp}

theorem agrees_start (h : Sized c₀.buffers) :
    Agrees world c₀ clients (start c₀ clients) [] [] .none where
  messages := rfl
  log := rfl
  length := rfl
  gone _ := rfl
  holds := ⟨rfl, rfl, h⟩
  stage := .between

theorem agrees_connect (h : Agrees world c₀ clients s done responses progress)
    {todo : List (Message mp)} {rest : List (List (Message mp))} (hserver : s.server = .accepts)
    (hclients : s.clients = todo :: rest) :
    Agrees world c₀ clients { s with
      clients := rest
      todo := todo
      client := .idle
      toServer := []
      toClient := []
      server := .waits (.header 0 cleared) } done responses progress := by
  obtain ⟨clients', todo', client, toServer, toClient, server, c, log⟩ := s
  obtain ⟨hmessages, hlog, hlength, hgone, hholds, hstage⟩ := h
  simp only at hserver hclients hmessages hlog hgone hholds hstage
  subst hserver hclients
  cases hstage with
  | between =>
    rw [hgone rfl] at hmessages
    exact ⟨hmessages, hlog, hlength, (by rintro ⟨⟩), hholds, .idle⟩

theorem agrees_announce (h : Agrees world c₀ clients s done responses progress) {m : Message mp}
    {todo : List (Message mp)} (hclient : s.client = .idle) (htodo : s.todo = m :: todo) :
    Agrees world c₀ clients { s with
      todo := todo
      client := .awaitsAck m
      toServer := s.toServer ++ header m.payload.length } done responses (.asked m) := by
  obtain ⟨clients', todo', client, toServer, toClient, server, c, log⟩ := s
  obtain ⟨hmessages, hlog, hlength, -, hholds, hstage⟩ := h
  simp only at hclient htodo hmessages hlog hholds hstage
  subst hclient htodo
  cases hstage with
  | idle => exact ⟨hmessages, hlog, hlength, (by rintro ⟨⟩), hholds, .announced⟩

theorem agrees_send (h : Agrees world c₀ clients s done responses progress) {m : Message mp}
    {ack : UInt8} {rest : List UInt8} (hclient : s.client = .awaitsAck m)
    (htoClient : s.toClient = ack :: rest) :
    Agrees world c₀ clients { s with
      client := .readsSize m []
      toClient := rest
      toServer := s.toServer ++ m.payload } done responses progress := by
  obtain ⟨clients', todo', client, toServer, toClient, server, c, log⟩ := s
  obtain ⟨hmessages, hlog, hlength, -, hholds, hstage⟩ := h
  simp only at hclient htoClient hmessages hlog hholds hstage
  subst hclient
  cases hstage with
  | announced => cases htoClient
  | acked =>
    cases htoClient
    have hreceived : Received m [] m.payload c.buffers := ⟨rfl, rfl⟩
    exact ⟨hmessages, hlog, hlength, (by rintro ⟨⟩), hholds,
      .sending hreceived (List.ne_nil_of_length_pos m.pos)⟩

/-- A part of what is left to read. -/
theorem append_of_le_length {got rest piece rest' whole : List UInt8} (hsplit : whole = got ++ rest)
    (hrest : rest = piece ++ rest') :
    whole = got ++ piece ++ rest' ∧ (whole.length ≤ (got ++ piece).length ↔ rest' = []) := by
  subst hrest hsplit
  refine ⟨(List.append_assoc ..).symm, ?_⟩
  rw [← List.append_assoc, List.length_append, ← List.length_eq_zero_iff]
  omega

theorem agrees_readSize (hshort : ShortResponses world c₀ clients.flatten)
    (h : Agrees world c₀ clients s done responses progress) {m : Message mp}
    {got piece rest : List UInt8} (hclient : s.client = .readsSize m got)
    (htoClient : s.toClient = piece ++ rest) (hpiece : piece ≠ []) :
    Agrees world c₀ clients (s.clientReadsSize m (got ++ piece) rest) done responses progress := by
  obtain ⟨clients', todo', client, toServer, toClient, server, c, log⟩ := s
  obtain ⟨hmessages, hlog, hlength, -, hholds, hstage⟩ := h
  simp only at hclient htoClient hmessages hlog hholds hstage
  subst hclient
  have hnil : ¬[] = piece ++ rest := by simp [hpiece]
  cases hstage with
  | sending => exact absurd htoClient hnil
  | down => exact absurd htoClient hnil
  | @answered _ _ response _ _ hsplit _ =>
    obtain ⟨hsplit, hall⟩ := append_of_le_length hsplit htoClient
    have hfour : (header (mp.toMsgpack response).length).length = 4 := length_littleEndian 4 _
    rw [hfour] at hall
    unfold clientReadsSize
    split_ifs with hlt
    · refine ⟨hmessages, hlog, hlength, (by rintro ⟨⟩), hholds, .answered hsplit ?_⟩
      exact fun hnil => absurd (hall.2 hnil) (Nat.not_le.2 hlt)
    · obtain rfl := hall.1 (Nat.not_lt.1 hlt)
      have hsize : (mp.toMsgpack response).length < 2 ^ 32 :=
        hshort _ (hmessages ▸ ⟨_, List.append_assoc ..⟩) _ _ hholds.run response (by simp)
      rw [List.append_nil] at hsplit
      rw [← hsplit, header, ofLittleEndian_littleEndian hsize]
      exact ⟨hmessages, hlog, hlength, (by rintro ⟨⟩), hholds, .told⟩

theorem agrees_readBody (h : Agrees world c₀ clients s done responses progress) {m : Message mp}
    {size : Nat} {got piece rest : List UInt8} (hclient : s.client = .readsBody m size got)
    (htoClient : s.toClient = piece ++ rest) (hpiece : piece ≠ []) :
    ∃ done responses progress, Agrees world c₀ clients
      (s.clientReadsBody m size (got ++ piece) rest) done responses progress := by
  obtain ⟨clients', todo', client, toServer, toClient, server, c, log⟩ := s
  obtain ⟨hmessages, hlog, hlength, -, hholds, hstage⟩ := h
  simp only at hclient htoClient hmessages hlog hholds hstage
  subst hclient
  have hnil : ¬[] = piece ++ rest := by simp [hpiece]
  cases hstage with
  | told => exact absurd htoClient hnil
  | @returned _ _ response _ _ hsplit _ =>
    obtain ⟨hsplit, hall⟩ := append_of_le_length hsplit htoClient
    unfold clientReadsBody
    split_ifs with hlt
    · refine ⟨_, _, _, hmessages, hlog, hlength, (by rintro ⟨⟩), hholds, .returned hsplit ?_⟩
      exact fun hnil => absurd (hall.2 hnil) (Nat.not_le.2 hlt)
    · obtain rfl := hall.1 (Nat.not_lt.1 hlt)
      rw [List.append_nil] at hsplit
      refine ⟨done ++ [m], responses ++ [response], .none, ?_, ?_, ?_, (by rintro ⟨⟩), hholds,
        .idle⟩
      · simpa [Progress.messages] using hmessages
      · simp [hlog, ← hsplit, List.zip_append, hlength]
      · simp [hlength]

theorem agrees_leave (h : Agrees world c₀ clients s done responses progress)
    (hclient : s.client = .idle) (htodo : s.todo = []) :
    Agrees world c₀ clients { s with client := .left } done responses progress := by
  obtain ⟨clients', todo', client, toServer, toClient, server, c, log⟩ := s
  obtain ⟨hmessages, hlog, hlength, -, hholds, hstage⟩ := h
  simp only at hclient htodo hmessages hlog hholds hstage
  subst hclient htodo
  cases hstage with
  | idle => exact ⟨hmessages, hlog, hlength, fun _ => rfl, hholds, .left⟩

theorem agrees_eof (h : Agrees world c₀ clients s done responses progress) {at' : Waits}
    (hserver : s.server = .waits at') (hclient : s.client = .left) :
    Agrees world c₀ clients (s.serverReads world at' .eof []) done responses progress := by
  obtain ⟨clients', todo', client, toServer, toClient, server, c, log⟩ := s
  obtain ⟨hmessages, hlog, hlength, hgone, hholds, hstage⟩ := h
  simp only at hserver hclient hmessages hlog hholds hgone hstage
  subst hclient hserver
  cases hstage with
  | left => exact ⟨hmessages, hlog, hlength, hgone, hholds, .between⟩

/-- A read of everything there is. -/
theorem eq_of_length_eq {piece rest whole : List UInt8} (hsplit : whole = piece ++ rest)
    (hlength : piece.length = whole.length) : piece = whole ∧ rest = [] := by
  have hrest : rest = [] := by
    rw [hsplit, List.length_append] at hlength
    exact List.length_eq_zero_iff.1 (by omega)
  exact ⟨by rw [hsplit, hrest, List.append_nil], hrest⟩

/-- A read of the server. -/
theorem agrees_serve (hnetwork : WholeHeaders network)
    (h : Agrees world c₀ clients s done responses progress) {at' : Waits}
    {piece rest : List UInt8} (hserver : s.server = .waits at')
    (htoServer : s.toServer = piece ++ rest) (hread : network at' piece) :
    (∃ progress, Agrees world c₀ clients (s.serverReads world at' (.data piece) rest) done responses
      progress) ∧ Nearer (s.serverReads world at' (.data piece) rest).rank s.rank := by
  obtain ⟨clients', todo', client, toServer, toClient, server, c, log⟩ := s
  obtain ⟨hmessages, hlog, hlength, -, hholds, hstage⟩ := h
  simp only at hserver htoServer hmessages hlog hholds hstage
  subst hserver
  obtain ⟨hpiece, hroom⟩ := hnetwork.arrives hread
  have hpos := List.length_pos_of_ne_nil hpiece
  have hnil : ¬[] = piece ++ rest := by simp [hpiece]
  unfold serverReads
  cases hstage with
  | idle => exact absurd htoServer hnil
  | left => exact absurd htoServer hnil
  | acked => exact absurd htoServer hnil
  | answered => exact absurd htoServer hnil
  | returned => exact absurd htoServer hnil
  | @announced _ m =>
    have hmax : maxMsgSize < 2 ^ 32 := by decide
    have hfits := m.fits
    obtain ⟨rfl, rfl⟩ := eq_of_length_eq htoServer
      ((hnetwork.whole hread).trans (length_littleEndian 4 m.payload.length).symm)
    simp only [run_onRead_header m.pos (by omega)]
    exact ⟨⟨_, hmessages, hlog, hlength, (by rintro ⟨⟩), hholds, .acked⟩,
      nearer_of_lt (Nat.add_lt_add_left (by decide : 8 < 9) _)⟩
  | @sending _ m got _ hreceived _ =>
    subst htoServer
    have hsized : Sized c.buffers := hholds.sized
    by_cases hrest : rest = []
    · subst hrest
      rw [List.append_nil] at hreceived
      obtain ⟨b, hb, hrun⟩ := @run_onRead_last mp world c m got piece hreceived hsized hroom
      simp only [hrun]
      cases hanswer : (answer (world c.answered) m.commandObj).run c.coreProcessor with
      | ok response p =>
        have hmore : header (mp.toMsgpack response).length ≠ [] := by simp [header, littleEndian]
        refine ⟨⟨.answered m response, hmessages, hlog, hlength, (by rintro ⟨⟩), ?_,
            .answered rfl hmore⟩,
          nearer_of_lt (Nat.add_lt_add_left (by decide : 6 < 7) _)⟩
        exact (hholds.snoc hanswer).of_buffers hb
      | error e p =>
        exact ⟨⟨.failed m, hmessages, hlog, hlength, (by rintro ⟨⟩), ⟨c, hholds, e, p, hanswer⟩,
            .down⟩,
          nearer_of_lt (Nat.add_lt_add_left (by decide : 5 < 7) _)⟩
    · obtain ⟨b, hb, hreceived, hrun⟩ :=
        @run_onRead_chunk mp world c m got piece rest hreceived hsized hroom hrest
      simp only [hrun]
      refine ⟨⟨_, hmessages, hlog, hlength, (by rintro ⟨⟩), hholds.of_buffers hb,
        .sending hreceived hrest⟩, nearer_of_eq rfl ?_⟩
      simp
      omega
  | told =>
    have hone : piece.length = 1 := Nat.le_antisymm hroom hpos
    obtain ⟨rfl, rfl⟩ := eq_of_length_eq htoServer hone
    simp only [run_onRead_ack _ _ hone]
    exact ⟨⟨_, hmessages, hlog, hlength, (by rintro ⟨⟩), hholds,
        .returned rfl (mp.toMsgpack_ne_nil _)⟩,
      nearer_of_lt (Nat.add_lt_add_left (by decide : 3 < 4) _)⟩

/-- Every step keeps the invariant and brings the session nearer to its end. -/
theorem agrees_step (hnetwork : WholeHeaders network)
    (hshort : ShortResponses world c₀ clients.flatten)
    (h : Agrees world c₀ clients s done responses progress) {s' : Session mp}
    (hstep : Step world network s s') :
    (∃ done responses progress, Agrees world c₀ clients s' done responses progress) ∧
      Nearer s'.rank s.rank := by
  obtain ⟨clients', todo', client, toServer, toClient, server, c, log⟩ := s
  cases hstep with
  | connect hserver hclients =>
    refine ⟨⟨_, _, _, agrees_connect h hserver hclients⟩, nearer_of_lt ?_⟩
    simp only at hclients
    subst hclients
    simp only [List.map_cons, List.sum_cons, placesLeft]
    omega
  | @announce m todo hclient htodo =>
    refine ⟨⟨_, _, _, agrees_announce h hclient htodo⟩, nearer_of_lt ?_⟩
    have hbounds := placesLeft_bounds m 0 [] server
    simp only at hclient htodo ⊢
    subst hclient htodo
    simp only [List.length_cons, placesLeft] at hbounds ⊢
    omega
  | @send m _ _ hclient htoClient =>
    refine ⟨⟨_, _, _, agrees_send h hclient htoClient⟩, nearer_of_lt ?_⟩
    have hbounds := placesLeft_bounds m 0 [] server
    simp only at hclient ⊢
    subst hclient
    omega
  | @readSize m got piece rest hclient htoClient hpiece hfits =>
    refine ⟨⟨_, _, _, agrees_readSize hshort h hclient htoClient hpiece⟩, ?_⟩
    have hpos := List.length_pos_of_ne_nil hpiece
    simp only at hclient htoClient
    subst hclient htoClient
    unfold clientReadsSize
    split_ifs
    · refine nearer_of_eq ?_ ?_
      · cases server with
        | waits at' => cases at' <;> rfl
        | accepts => rfl
        | down => rfl
      · simp only [List.length_append]
        omega
    · refine nearer_of_lt ?_
      have hgot := placesLeft_bounds m 0 got server
      have hsize := placesLeft_bounds m (ofLittleEndian (got ++ piece)) [] server
      simp only
      omega
  | @readBody m size got piece rest hclient htoClient hpiece hfits =>
    refine ⟨agrees_readBody h hclient htoClient hpiece, ?_⟩
    have hpos := List.length_pos_of_ne_nil hpiece
    simp only at hclient htoClient
    subst hclient htoClient
    unfold clientReadsBody
    split_ifs
    · refine nearer_of_eq ?_ ?_
      · cases server with
        | waits at' => cases at' <;> rfl
        | accepts => rfl
        | down => rfl
      · simp only [List.length_append]
        omega
    · refine nearer_of_lt ?_
      have hgot := placesLeft_bounds m size got server
      simp only [placesLeft_idle]
      omega
  | leave hclient htodo =>
    refine ⟨⟨_, _, _, agrees_leave h hclient htodo⟩, nearer_of_lt ?_⟩
    have hleft := @placesLeft_left_le mp server
    simp only at hclient ⊢
    subst hclient
    simp only [placesLeft_idle]
    omega
  | serve hserver htoServer hread =>
    obtain ⟨⟨progress, hagrees⟩, hnearer⟩ := agrees_serve hnetwork h hserver htoServer hread
    exact ⟨⟨_, _, _, hagrees⟩, hnearer⟩
  | @eof at' hserver htoServer hclient =>
    refine ⟨⟨_, _, _, agrees_eof h hserver hclient⟩, ?_⟩
    simp only at hserver hclient
    subst hserver hclient
    -- at a header the server goes back to `accept`, and elsewhere it is down
    cases at' <;> exact nearer_of_lt (Nat.add_lt_add_left (by decide : 0 < 1) _)

end Step

end Session

end UscopeDriver
