import UscopeDriver.Serving
import UscopeDriver.SessionSteps

/-!
# What a session ends in

On a network that brings headers whole, and in whatever order the parties take their steps, the
server has processed the messages in the order in which they were sent, each once, and every
response that a client has read is the answer to the message that it was read for (`session_safe`).
No session goes on for ever. Where what has come is read in the end, every one that goes as far as
it can has answered all messages, exactly when the driver can answer them one after the other
(`session_completes_iff`).
-/

namespace UscopeDriver

open Bytes ServerConnector CommandProcessor

namespace Session

variable {mp : MessagePack} {world : Nat → Surroundings} {network : Waits → List UInt8 → Prop}
  {connector : ServerConnector} {clients : List (List (Message mp))} {s : Session mp}

/-- Whatever a session reaches, the invariant holds of it. -/
theorem exists_agrees (hnetwork : WholeHeaders network) (hsized : Sized connector.buffers)
    (hshort : ShortResponses world connector clients.flatten)
    (h : Reaches world network (start connector clients) s) :
    ∃ done responses progress, Agrees world connector clients s done responses progress := by
  have keep : ∀ t t' : Session mp,
      (∃ done responses progress, Agrees world connector clients t done responses progress) →
        Step world network t t' →
          ∃ done responses progress, Agrees world connector clients t' done responses progress := by
    rintro t t' ⟨done, responses, progress, ht⟩ hstep
    exact (agrees_step hnetwork hshort ht hstep).1
  exact Transitions.invariant_of_reaches keep h ⟨[], [], .none, agrees_start hsized⟩

theorem Stage.down_iff {client : Client mp} {toServer toClient : List UInt8} {server : Server}
    {b : ReceiveBuffers} {progress : Progress mp}
    (h : Stage client toServer toClient server b progress) :
    server = .down ↔ ∃ m, progress = .failed m := by
  cases h <;> simp

/-! ## The end of a session -/

/-- A session stops when all clients are gone, or when the server is down. -/
theorem stuck_cases (hnetwork : Delivers network) {c₀ : ServerConnector}
    {done : List (Message mp)} {responses : List Json}
    {progress : Progress mp} (h : Agrees world c₀ clients s done responses progress)
    (hstuck : Transitions.Stuck (Step world network) s) :
    progress = .none ∧ s.clients = [] ∧ s.todo = [] ∧ s.server = .accepts ∨
      ∃ m, progress = .failed m := by
  obtain ⟨clients', todo, client, toServer, toClient, server, c, log⟩ := s
  obtain ⟨hmessages, hlog, hlength, hgone, hholds, hstage⟩ := h
  simp only at hgone hstage
  cases hstage with
  | between =>
    cases clients' with
    | nil => exact Or.inl ⟨rfl, rfl, hgone rfl, rfl⟩
    | cons todo' rest => exact absurd (Step.connect rfl rfl) (hstuck _)
  | idle =>
    cases todo with
    | nil => exact absurd (Step.leave rfl rfl) (hstuck _)
    | cons m todo => exact absurd (Step.announce rfl rfl) (hstuck _)
  | left => exact absurd (Step.eof rfl rfl rfl) (hstuck _)
  | @announced _ m =>
    obtain ⟨piece, rest, hsplit, hread⟩ := hnetwork.reads (.header 0 cleared)
      (header m.payload.length) (length_littleEndian 4 m.payload.length).ge
    exact absurd (Step.serve rfl hsplit hread) (hstuck _)
  | acked => exact absurd (Step.send rfl rfl) (hstuck _)
  | @sending _ m got _ hreceived hmore =>
    obtain ⟨piece, rest, hsplit, hread⟩ := hnetwork.reads (.payload m.payload.length got.length)
      toServer (List.length_pos_of_ne_nil hmore)
    exact absurd (Step.serve rfl hsplit hread) (hstuck _)
  | answered hsplit hmore =>
    have hfits := congrArg List.length hsplit
    rw [header, length_littleEndian] at hfits
    exact absurd (Step.readSize rfl (List.append_nil _).symm hmore hfits.ge) (hstuck _)
  | @told _ _ response =>
    obtain ⟨piece, rest, hsplit, hread⟩ := hnetwork.reads (.ack 0 (mp.toMsgpack response))
      ackMessage le_rfl
    exact absurd (Step.serve rfl hsplit hread) (hstuck _)
  | returned hsplit hmore =>
    have hfits := congrArg List.length hsplit
    exact absurd (Step.readBody rfl (List.append_nil _).symm hmore hfits.ge) (hstuck _)
  | down => exact Or.inr ⟨_, rfl⟩

/-- All clients are gone, and have read a response to each of these messages. -/
structure Complete (messages : List (Message mp)) (s : Session mp) : Prop where
  clients : s.clients = []
  todo : s.todo = []
  server : s.server = .accepts
  answered : s.log.map Prod.fst = messages

theorem commands_append_cons (k : Nat) (ms rest : List (Message mp)) (m : Message mp) :
    commands world k (ms ++ m :: rest) = commands world k ms ++
      (world (k + ms.length), m.commandObj) :: commands world (k + ms.length + 1) rest := by
  simp [commands, List.zipIdx_append, List.zipIdx_cons]

/-- A message that fails is not served. -/
theorem not_serves_of_failed {c₀ c : ServerConnector} {done rest : List (Message mp)}
    {m : Message mp} {responses : List Json} (hprocessed : Processed world c₀ done responses c)
    {e : Failure} {p : CommandProcessor}
    (hanswer : (answer (world c.answered) m.commandObj).run c.coreProcessor = .error e p) :
    ¬Serves (commands world c₀.answered (done ++ m :: rest)) c₀.coreProcessor := by
  rintro ⟨responses', p', hserve, -⟩
  have hrun := hprocessed.run
  rw [commands_append_cons, ← hprocessed.answered] at hserve
  unfold serve at hserve hrun
  rw [List.mapM_append] at hserve
  obtain ⟨responses₁, p₁, hdone, hserve⟩ := Exec.bind_eq_ok.1 hserve
  rw [hrun] at hdone
  cases hdone
  obtain ⟨responses₂, p₂, hserve, -⟩ := Exec.bind_eq_ok.1 hserve
  rw [List.mapM_cons] at hserve
  obtain ⟨response, p₃, hok, -⟩ := Exec.bind_eq_ok.1 hserve
  rw [hanswer] at hok
  cases hok

theorem map_fst_log {c₀ : ServerConnector} {done : List (Message mp)} {responses : List Json}
    {progress : Progress mp} (h : Agrees world c₀ clients s done responses progress) :
    s.log.map Prod.fst = done := by
  rw [h.log, List.map_fst_zip]
  simp [h.length]

/-- Every step brings a session nearer to its end. -/
theorem acc_start (hnetwork : WholeHeaders network) (hsized : Sized connector.buffers)
    (hshort : ShortResponses world connector clients.flatten) :
    Acc (fun s' s => Step world network s s') (start connector clients) := by
  refine @Transitions.acc_of_rank _ _ _ (fun s => ∃ done responses progress,
    Agrees world connector clients s done responses progress) _ wellFounded_nearer rank ?_ ?_ _
    ⟨[], [], .none, agrees_start hsized⟩
  · rintro t t' ⟨done, responses, progress, ht⟩ hstep
    exact (agrees_step hnetwork hshort ht hstep).1
  · rintro t t' ⟨done, responses, progress, ht⟩ hstep
    exact (agrees_step hnetwork hshort ht hstep).2

/-- Where the driver can answer all messages, the server does not go down before the end. -/
theorem complete_of_serves (hnetwork : Delivers network) (hsized : Sized connector.buffers)
    (hshort : ShortResponses world connector clients.flatten)
    (hserves : Serves (commands world connector.answered clients.flatten) connector.coreProcessor)
    (hreaches : Reaches world network (start connector clients) s)
    (hstuck : Transitions.Stuck (Step world network) s) : Complete clients.flatten s := by
  obtain ⟨done, responses, progress, hagrees⟩ :=
    exists_agrees hnetwork.toWholeHeaders hsized hshort hreaches
  have hmessages := hagrees.messages
  rcases stuck_cases hnetwork hagrees hstuck with ⟨rfl, hclients, htodo, hserver⟩ | ⟨m, rfl⟩
  · refine ⟨hclients, htodo, hserver, ?_⟩
    rw [map_fst_log hagrees, ← hmessages, hclients, htodo]
    simp [Progress.messages]
  · obtain ⟨c', hprocessed, e, p', hanswer⟩ := hagrees.holds
    rw [← hmessages] at hserves
    exact absurd hserves (not_serves_of_failed hprocessed hanswer)

/-! ## Safety -/

/-- What is on the way to the server is what it waits for, or what is left of it. -/
def ServerFinds (client : Client mp) : Server → List UInt8 → Prop
  | .waits (.header _ _), bytes =>
    bytes = [] ∨ ∃ m, client = .awaitsAck m ∧ bytes = header m.payload.length
  | .waits (.payload messageSize t), bytes => bytes = [] ∨ ∃ m got, client = .readsSize m [] ∧
    m.payload = got ++ bytes ∧ messageSize = m.payload.length ∧ t = got.length
  | .waits (.ack _ _), bytes => bytes = [] ∨ bytes = ackMessage
  | .accepts, bytes | .down, bytes => bytes = []

/-- The same for a client. The response that it reads is the last one there is. -/
def ClientFinds (responses : List Json) : Client mp → List UInt8 → Prop
  | .awaitsAck _, bytes => bytes = [] ∨ bytes = ackMessage
  | .readsSize _ got, bytes => bytes = [] ∨ ∃ response, responses.getLast? = some response ∧
    header (mp.toMsgpack response).length = got ++ bytes
  | .readsBody _ size got, bytes => bytes = [] ∨ ∃ response, responses.getLast? = some response ∧
    mp.toMsgpack response = got ++ bytes ∧ size = (mp.toMsgpack response).length
  | .idle, bytes | .left, bytes => bytes = []

section Stage

variable {client : Client mp} {toServer toClient : List UInt8} {server : Server}
  {b : ReceiveBuffers} {progress : Progress mp}

theorem Stage.serverFinds (h : Stage client toServer toClient server b progress) :
    ServerFinds client server toServer := by
  cases h with
  | between => exact rfl
  | idle => exact Or.inl rfl
  | left => exact Or.inl rfl
  | @announced _ m => exact Or.inr ⟨m, rfl, rfl⟩
  | acked => exact Or.inl rfl
  | @sending _ m got rest received more => exact Or.inr ⟨m, got, rfl, received.split, rfl, rfl⟩
  | answered split more => exact Or.inl rfl
  | told => exact Or.inr rfl
  | returned split more => exact Or.inl rfl
  | down => exact rfl

theorem Stage.clientFinds {responses : List Json}
    (h : Stage client toServer toClient server b progress)
    (hlast : ∀ m response, progress = .answered m response → responses.getLast? = some response) :
    ClientFinds responses client toClient := by
  cases h with
  | between => exact rfl
  | idle => exact rfl
  | left => exact rfl
  | announced => exact Or.inl rfl
  | acked => exact Or.inr rfl
  | sending received more => exact Or.inl rfl
  | answered split more => exact Or.inr ⟨_, hlast _ _ rfl, split⟩
  | told => exact Or.inl rfl
  | returned split more => exact Or.inr ⟨_, hlast _ _ rfl, split, rfl⟩
  | down => exact Or.inl rfl

end Stage

/-- The server has processed just the messages `served`, and is in the state `p` that they lead to.
The clients have read the responses to all of these but perhaps the last. Nobody finds bytes of
another phase of the protocol. -/
structure Faithful (world : Nat → Surroundings) (connector : ServerConnector)
    (clients : List (List (Message mp))) (s : Session mp) (served : List (Message mp))
    (responses : List Json) (p : CommandProcessor) : Prop where
  inOrder : served <+: clients.flatten
  once : (serve (commands world connector.answered served)).run connector.coreProcessor =
    .ok responses p
  processor : s.server ≠ .down → s.connector.coreProcessor = p
  /-- The server only goes down in the command of the next message. -/
  failure : s.server = .down → ∃ m, served ++ [m] <+: clients.flatten ∧
    ∃ e p', (answer (world (connector.answered + served.length)) m.commandObj).run p = .error e p'
  answers : s.log <+: served.zip (responses.map mp.toMsgpack)
  pending : served.length ≤ s.log.length + 1
  serverFinds : ServerFinds s.client s.server s.toServer
  clientFinds : ClientFinds responses s.client s.toClient

theorem prefix_of_append_eq {α : Type} {xs ys zs : List α} (h : xs ++ ys = zs) : xs <+: zs :=
  ⟨ys, h⟩

/-- In every state that a session reaches, for any clients, any order of the steps and any network
that brings headers whole, the server and the clients agree on what has been processed and
answered. -/
theorem session_safe (hnetwork : WholeHeaders network) (hsized : Sized connector.buffers)
    (hshort : ShortResponses world connector clients.flatten)
    (h : Reaches world network (start connector clients) s) :
    ∃ served responses p, Faithful world connector clients s served responses p := by
  obtain ⟨done, responses, progress, hagrees⟩ := exists_agrees hnetwork hsized hshort h
  have hmessages := hagrees.messages
  have hholds := hagrees.holds
  have hlog : s.log.length = done.length := by simp [hagrees.log, hagrees.length]
  have hdown := hagrees.stage.down_iff
  have hserver := hagrees.stage.serverFinds
  cases progress with
  | none =>
    exact ⟨done, responses, _, prefix_of_append_eq hmessages, hholds.run, fun _ => rfl,
      fun h => by simpa using hdown.1 h, hagrees.log ▸ List.prefix_rfl, by omega, hserver,
      hagrees.stage.clientFinds nofun⟩
  | asked m =>
    exact ⟨done, responses, _, prefix_of_append_eq hmessages, hholds.run, fun _ => rfl,
      fun h => by simpa using hdown.1 h, hagrees.log ▸ List.prefix_rfl, by omega, hserver,
      hagrees.stage.clientFinds nofun⟩
  | answered m response =>
    rw [← List.append_assoc] at hmessages
    have hclient : ClientFinds (responses ++ [response]) s.client s.toClient :=
      hagrees.stage.clientFinds fun m' response' heq => by
        cases heq
        exact List.getLast?_concat
    refine ⟨done ++ [m], responses ++ [response], _, prefix_of_append_eq hmessages, hholds.run,
      fun _ => rfl, fun h => by simpa using hdown.1 h, ?_, by simp [hlog], hserver, hclient⟩
    rw [hagrees.log, List.map_append, List.zip_append (by simp [hagrees.length])]
    exact List.prefix_append _ _
  | failed m =>
    obtain ⟨c', hprocessed, e, p', hanswer⟩ := hholds
    rw [← List.append_assoc] at hmessages
    exact ⟨done, responses, _, prefix_of_append_eq ((List.append_assoc ..).symm.trans hmessages),
      hprocessed.run, fun h => absurd (hdown.2 ⟨m, rfl⟩) h,
      fun _ => ⟨m, prefix_of_append_eq hmessages, e, p', hprocessed.answered ▸ hanswer⟩,
      hagrees.log ▸ List.prefix_rfl, by omega, hserver, hagrees.stage.clientFinds nofun⟩

/-! A client with one message, to a driver that was just started. -/

/-- `{"args" : {}, "cmd" : "null"}`, packed. -/
def nullPayload : List UInt8 :=
  [130, 164, 97, 114, 103, 115, 128, 163, 99, 109, 100, 164, 110, 117, 108, 108]

/-- The command that only asks whether the driver is there. -/
def nullCommand : Json := .object [("args", .object []), ("cmd", .string "null")]

/-- It unpacks that message only, and packs the response to it,
`{"body" : {"response_code" : 1}, "cmd" : "null"}`. -/
def nullPack : MessagePack where
  toMsgpack _ := [130, 164, 98, 111, 100, 121, 129, 173, 114, 101, 115, 112, 111, 110, 115, 101, 95,
    99, 111, 100, 101, 1, 163, 99, 109, 100, 164, 110, 117, 108, 108]
  fromMsgpack bytes := if bytes = nullPayload then some nullCommand else none
  toMsgpack_ne_nil _ := List.cons_ne_nil _ _

/-- The message of that command. -/
def nullMessage : Message nullPack where
  payload := nullPayload
  commandObj := nullCommand
  unpacks := rfl
  pos := by decide
  fits := by decide

/-- The connector of a driver that has just started. -/
def startedConnector : ServerConnector where
  coreProcessor := started
  buffers := ⟨List.replicate chunkSize 0, List.replicate maxMsgSize 0⟩
  answered := 0

theorem sized_startedConnector : Sized startedConnector.buffers :=
  ⟨List.length_replicate, List.length_replicate⟩

theorem short_nullPack (world : Nat → Surroundings) (messages : List (Message nullPack)) :
    ShortResponses world startedConnector messages :=
  fun _ _ _ _ _ _ _ => (by decide : 31 < 2 ^ 32)

/-- A network that brings everything as it was sent. -/
def atOnce (at' : Waits) (piece : List UInt8) : Prop :=
  needed at' ≤ piece.length ∧ piece.length ≤ room at'

theorem delivers_atOnce : Delivers atOnce where
  arrives := by
    intro at' piece h
    refine ⟨List.ne_nil_of_length_pos (Nat.lt_of_lt_of_le ?_ h.1), h.2⟩
    cases at' <;> exact Nat.zero_lt_succ _
  whole h := Nat.le_antisymm h.2 h.1
  reads := by
    intro at' stream h
    have hroom : needed at' ≤ room at' := by
      cases at' with
      | header curSize raw => exact le_rfl
      | payload messageSize t => exact Nat.succ_le_of_lt (by decide : 0 < chunkSize)
      | ack curSize raw => exact le_rfl
    refine ⟨stream.take (room at'), stream.drop (room at'), (List.take_append_drop _ _).symm, ?_⟩
    rw [atOnce, List.length_take]
    omega

/-- The client with one message can get its response. -/
theorem exists_complete_null : ∃ s : Session nullPack,
    Reaches (fun _ => .of [] []) atOnce (start startedConnector [[nullMessage]]) s ∧
      Transitions.Stuck (Step (fun _ => .of [] []) atOnce) s ∧ Complete [nullMessage] s := by
  have hshort := short_nullPack (fun _ => .of [] []) [[nullMessage]].flatten
  obtain ⟨s, hreaches, hstuck⟩ := Transitions.exists_stuck_of_acc
    (acc_start delivers_atOnce.toWholeHeaders sized_startedConnector hshort)
  exact ⟨s, hreaches, hstuck, complete_of_serves delivers_atOnce sized_startedConnector hshort
    ⟨[_], _, rfl, rfl⟩ hreaches hstuck⟩

theorem session_safe_of_answered : ∃ s : Session nullPack, s.log.map Prod.fst = [nullMessage] ∧
    ∃ served responses p, Faithful (fun _ => .of [] []) startedConnector [[nullMessage]] s served
      responses p := by
  obtain ⟨s, hreaches, -, hcomplete⟩ := exists_complete_null
  exact ⟨s, hcomplete.answered, session_safe delivers_atOnce.toWholeHeaders
    sized_startedConnector (short_nullPack _ _) hreaches⟩

/-! ## Completion -/

/-- For any clients, and any network that brings headers whole, a session does not go on for ever.
If the network lets the server read in the end what has come, every way in which the session can
end has answered all messages exactly when the driver answers them one after the other. -/
theorem session_completes_iff (hnetwork : Delivers network) (hsized : Sized connector.buffers)
    (hshort : ShortResponses world connector clients.flatten) :
    Acc (fun s' s => Step world network s s') (start connector clients) ∧
      ((∀ s, Reaches world network (start connector clients) s →
          Transitions.Stuck (Step world network) s → Complete clients.flatten s) ↔
        Serves (commands world connector.answered clients.flatten) connector.coreProcessor) := by
  have hacc := @acc_start _ world _ _ clients hnetwork.toWholeHeaders hsized hshort
  refine ⟨hacc, fun hcomplete => ?_,
    fun hserves s => complete_of_serves hnetwork hsized hshort hserves⟩
  obtain ⟨s, hreaches, hstuck⟩ := Transitions.exists_stuck_of_acc hacc
  have hs := hcomplete s hreaches hstuck
  obtain ⟨done, responses, progress, hagrees⟩ :=
    exists_agrees hnetwork.toWholeHeaders hsized hshort hreaches
  have hdone : done = clients.flatten := (map_fst_log hagrees).symm.trans hs.answered
  rcases stuck_cases hnetwork hagrees hstuck with ⟨rfl, -⟩ | ⟨m, rfl⟩
  · have hrun := hagrees.holds.run
    rw [hdone] at hrun
    exact ⟨responses, _, hrun, by simp [commands, hagrees.length, hdone]⟩
  · have hdown := hagrees.stage.down_iff.2 ⟨m, rfl⟩
    rw [hs.server] at hdown
    cases hdown

/-- The client with one message gets its response. -/
theorem session_completes_of_null : ∃ s : Session nullPack,
    Reaches (fun _ => .of [] []) atOnce (start startedConnector [[nullMessage]]) s ∧
      Transitions.Stuck (Step (fun _ => .of [] []) atOnce) s ∧ Complete [nullMessage] s := by
  obtain ⟨hacc, hcompletes⟩ := session_completes_iff delivers_atOnce sized_startedConnector
    (short_nullPack (fun _ => .of [] []) [[nullMessage]].flatten)
  obtain ⟨s, hreaches, hstuck⟩ := Transitions.exists_stuck_of_acc hacc
  exact ⟨s, hreaches, hstuck, hcompletes.2 ⟨[_], _, rfl, rfl⟩ s hreaches hstuck⟩

end Session

end UscopeDriver
