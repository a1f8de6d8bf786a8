import UscopeDriver.Library.Transitions
import UscopeDriver.ServerLoop

/-!
# Clients and the server

Clients come one after the other. A client announces the size of each message, waits for the ack,
sends the message, reads the size of the response, acks it and reads the response. Between the
client and the server are two streams of bytes, and a read takes from the front of its stream any
number of bytes that fit. `Session.Step` is a step of any of the parties, in any order.

Which reads of the server happen is up to the network. It may well bring a header in pieces, but
`receiveSize` misreads it then. What is shown of sessions is for a network that brings headers whole
(`WholeHeaders`).
-/

namespace UscopeDriver

open Bytes ServerConnector

/-- A message of a client : bytes that stand for a command object, and no more than the server has
room for. -/
structure Message (mp : MessagePack) where
  payload : List UInt8
  commandObj : Json
  unpacks : mp.fromMsgpack payload = some commandObj
  pos : 0 < payload.length
  fits : payload.length + chunkSize ≤ maxMsgSize

/-- What a client is doing, and the message that it has under way. -/
inductive Client (mp : MessagePack) where
  | idle
  | awaitsAck (m : Message mp)
  | readsSize (m : Message mp) (got : List UInt8)
  | readsBody (m : Message mp) (size : Nat) (got : List UInt8)
  /-- The socket is closed. -/
  | left

/-- What the server is doing. -/
inductive Server where
  | accepts
  | waits (at' : Waits)
  /-- Something has escaped from `start_server`. -/
  | down

/-- A client and the server with the bytes between them. -/
structure Session (mp : MessagePack) where
  /-- The messages of the clients to come. -/
  clients : List (List (Message mp))
  /-- What the client still has to send. -/
  todo : List (Message mp)
  client : Client mp
  toServer : List UInt8
  toClient : List UInt8
  server : Server
  connector : ServerConnector
  /-- The messages that were sent, each with the response that was read for it. -/
  log : List (Message mp × List UInt8)

namespace Session

variable {mp : MessagePack}

/-- The server before the first client. -/
def start (connector : ServerConnector) (clients : List (List (Message mp))) : Session mp where
  clients := clients
  todo := []
  client := .left
  toServer := []
  toClient := []
  server := .accepts
  connector := connector
  log := []

/-- The bytes of the buffer that a read goes to. -/
def room : Waits → Nat
  | .header _ _ => 4
  | .payload _ _ => chunkSize
  | .ack _ _ => 1

/-- The bytes that one read can take. -/
def Arrives (at' : Waits) (piece : List UInt8) : Prop :=
  piece ≠ [] ∧ piece.length ≤ room at'

/-- The reads of a network that never splits a header. -/
structure WholeHeaders (network : Waits → List UInt8 → Prop) : Prop where
  arrives : ∀ {at' piece}, network at' piece → Arrives at' piece
  whole : ∀ {curSize raw piece}, network (.header curSize raw) piece → piece.length = 4

/-- What has to have come before there is a read. -/
def needed : Waits → Nat
  | .header _ _ => 4
  | .payload _ _ => 1
  | .ack _ _ => 1

/-- Whatever has come, such a network lets the server read some of it in the end. -/
structure Delivers (network : Waits → List UInt8 → Prop) : Prop extends WholeHeaders network where
  reads : ∀ at' stream, needed at' ≤ stream.length →
    ∃ piece rest, stream = piece ++ rest ∧ network at' piece

/-- The server gets this read, and goes on to the next one. -/
def serverReads (world : Nat → Surroundings) (s : Session mp) (at' : Waits) (read : SocketRead)
    (rest : List UInt8) : Session mp :=
  match (onRead mp world at' read).run s.connector with
  | .ok (next, sent) connector =>
    { s with
      toServer := rest
      toClient := s.toClient ++ sent
      server := next.elim .accepts .waits
      connector := connector }
  | .error _ connector => { s with toServer := rest, server := .down, connector := connector }

/-- The client has these bytes of the size of the response. -/
def clientReadsSize (s : Session mp) (m : Message mp) (got rest : List UInt8) : Session mp :=
  if got.length < 4 then { s with toClient := rest, client := .readsSize m got }
  else
    { s with
      toClient := rest
      client := .readsBody m (ofLittleEndian got) []
      toServer := s.toServer ++ ackMessage }

/-- The client has these bytes of the response. -/
def clientReadsBody (s : Session mp) (m : Message mp) (size : Nat) (got rest : List UInt8) :
    Session mp :=
  if got.length < size then { s with toClient := rest, client := .readsBody m size got }
  else { s with toClient := rest, client := .idle, log := s.log ++ [(m, got)] }

/-- A step of one of the parties. -/
inductive Step (world : Nat → Surroundings) (network : Waits → List UInt8 → Prop) :
    Session mp → Session mp → Prop
  | connect {s : Session mp} {todo : List (Message mp)} {clients : List (List (Message mp))}
      (hserver : s.server = .accepts) (hclients : s.clients = todo :: clients) :
      Step world network s { s with
        clients := clients
        todo := todo
        client := .idle
        toServer := []
        toClient := []
        server := .waits (.header 0 cleared) }
  | announce {s : Session mp} {m : Message mp} {todo : List (Message mp)}
      (hclient : s.client = .idle) (htodo : s.todo = m :: todo) :
      Step world network s { s with
        todo := todo
        client := .awaitsAck m
        toServer := s.toServer ++ header m.payload.length }
  | send {s : Session mp} {m : Message mp} {ack : UInt8} {rest : List UInt8}
      (hclient : s.client = .awaitsAck m) (htoClient : s.toClient = ack :: rest) :
      Step world network s { s with
        client := .readsSize m []
        toClient := rest
        toServer := s.toServer ++ m.payload }
  | readSize {s : Session mp} {m : Message mp} {got piece rest : List UInt8}
      (hclient : s.client = .readsSize m got) (htoClient : s.toClient = piece ++ rest)
      (hpiece : piece ≠ []) (hfits : (got ++ piece).length ≤ 4) :
      Step world network s (s.clientReadsSize m (got ++ piece) rest)
  | readBody {s : Session mp} {m : Message mp} {size : Nat} {got piece rest : List UInt8}
      (hclient : s.client = .readsBody m size got) (htoClient : s.toClient = piece ++ rest)
      (hpiece : piece ≠ []) (hfits : (got ++ piece).length ≤ size) :
      Step world network s (s.clientReadsBody m size (got ++ piece) rest)
  | leave {s : Session mp} (hclient : s.client = .idle) (htodo : s.todo = []) :
      Step world network s { s with client := .left }
  | serve {s : Session mp} {at' : Waits} {piece rest : List UInt8}
      (hserver : s.server = .waits at') (htoServer : s.toServer = piece ++ rest)
      (hread : network at' piece) :
      Step world network s (s.serverReads world at' (.data piece) rest)
  | eof {s : Session mp} {at' : Waits}
      (hserver : s.server = .waits at') (htoServer : s.toServer = []) (hclient : s.client = .left) :
      Step world network s (s.serverReads world at' .eof [])

/-- One party after the other, in any order. -/
def Reaches (world : Nat → Surroundings) (network : Waits → List UInt8 → Prop) :
    Session mp → Session mp → Prop :=
  Relation.ReflTransGen (Step world network)

end Session

end UscopeDriver
