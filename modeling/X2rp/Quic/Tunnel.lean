import X2rp.Lts
import X2rp.Proto.Reader
import X2rp.Relay

/-! One QUIC tunnel: `quic_tunnel` at the server and `splice_data_stream` at the connector, with a
stream between them each way, the client behind the one and the backend behind the other.

The steps take the following from the libraries. A quinn stream delivers what was written to it
in order, and its end behind that. Dropping the sending half finishes it, dropping the receiving
half stops it. A write to a stream that was stopped fails; `finish` of one returns `Ok`, and so does
`shutdown` of the joined halves. The peer may accept a stream once it is open. Each direction of
tokio's `copy_bidirectional_with_sizes` reads ahead into one buffer of the given size, writes all of
it, and after the end of its source flushes and shuts down its sink; the call returns when both
directions have, or with the first error of one. -/
namespace X2rp.Quic

open Proto Relay

/-- Where `quic_tunnel` stands. -/
inductive ServerPhase
  /-- At `open_bi`. -/
  | opening
  /-- It writes what is left of the `Connect`. -/
  | connecting (rest : Bytes)
  /-- `read_frame` has `got` of the answer. -/
  | awaiting (got : Bytes)
  | splicing (sending receiving : Transfer UInt8)
  | ended (whole : Bool)
deriving DecidableEq, Repr

/-- Where `splice_data_stream` stands. -/
inductive ConnectorPhase
  /-- The stream has not been accepted. -/
  | absent
  /-- `read_frame` has `got` of the `Connect`. -/
  | accepting (got : Bytes)
  | dialling (id : UInt32) (target : String)
  /-- It writes what is left of its answer. -/
  | replying (rest : Bytes) (connected : Bool)
  | splicing (sending receiving : Transfer UInt8)
  | ended (whole : Bool)
deriving DecidableEq, Repr

/-- Everything that an end has to send has gone out. -/
def ServerPhase.whole : ServerPhase → Bool
  | .splicing sending _ => decide (sending = .done)
  | _ => false

def ConnectorPhase.whole : ConnectorPhase → Bool
  | .splicing sending _ => decide (sending = .done)
  | _ => false

/-- `fwd` runs to the connector and `bwd` back. The last three fields are history: the frames that
the two ends have sent, and what the connector has dialled. -/
structure Tunnel where
  target : String
  server : ServerPhase := .opening
  connector : ConnectorPhase := .absent
  fwd : Stream UInt8 := {}
  bwd : Stream UInt8 := {}
  client : Outside UInt8 := {}
  backend : Outside UInt8 := {}
  hello : Bytes := []
  reply : Bytes := []
  dialled : Option String := none

/-- Who makes a step: the server's task, the connector's task on its own, or the connector's task
with its backend. A `fault` is a timeout, an error of a socket or the loss of the connection. -/
inductive Event
  | opened
  | server
  | connector
  | backend
  | fault
deriving DecidableEq, Repr

namespace Tunnel

/-- Both streams are dropped, which finishes the one and stops the other. -/
def serverEnds (t : Tunnel) (whole : Bool) : Tunnel :=
  { t with server := .ended whole, fwd := t.fwd.finish, bwd := t.bwd.stop }

def connectorEnds (t : Tunnel) (whole : Bool) : Tunnel :=
  { t with connector := .ended whole, bwd := t.bwd.finish, fwd := t.fwd.stop }

/-- The server's end of the copy. -/
def serverSite (t : Tunnel) (sending receiving : Transfer UInt8) : Site UInt8 :=
  ⟨sending, receiving, t.client, t.fwd, t.bwd⟩

def connectorSite (t : Tunnel) (sending receiving : Transfer UInt8) : Site UInt8 :=
  ⟨sending, receiving, t.backend, t.bwd, t.fwd⟩

/-- Whether a move of the connector's copy waits for the backend. -/
def moveEvent : Site.Move UInt8 → Event
  | .sending (.read _) | .sending .eof | .receiving (.write _) => .backend
  | _ => .connector

/-- A fresh copy in both directions. -/
def idle : Transfer UInt8 := .running [] false

inductive Step : Tunnel → Event → Tunnel → Prop
  | opened {t : Tunnel} {id : UInt32} {f : Bytes} (hp : t.server = .opening)
      (hf : (Message.connect id t.target).frame = .ok f) :
      Step t .opened { t with server := .connecting f, hello := f }
  | connectWrite {t : Tunnel} {p rest : Bytes} (hp : t.server = .connecting (p ++ rest))
      (hne : p ≠ []) (hw : t.fwd.Writable) :
      Step t .server { t with server := .connecting rest, fwd := t.fwd.write p }
  | connectSent {t : Tunnel} (hp : t.server = .connecting []) :
      Step t .server { t with server := .awaiting [] }
  | awaitRead {t : Tunnel} {got p : Bytes} (hp : t.server = .awaiting got) (hne : p ≠ [])
      (hm : p.length ≤ missing got) (hf : p <+: t.bwd.flight) :
      Step t .server { t with server := .awaiting (got ++ p), bwd := t.bwd.take p.length }
  | accepted {t : Tunnel} {got : Bytes} {id : UInt32} (hp : t.server = .awaiting got)
      (hm : missing got = 0) (hr : readFrame got = .ok (.connectOk id, [])) :
      Step t .server { t with server := .splicing idle idle }
  | refused {t : Tunnel} {got : Bytes} (hp : t.server = .awaiting got) (hm : missing got = 0)
      (hr : ∀ id, readFrame got ≠ .ok (.connectOk id, [])) : Step t .server (t.serverEnds false)
  | serverCopy {t : Tunnel} {S R : Transfer UInt8} {e : Site.Move UInt8} {s : Site UInt8}
      (hp : t.server = .splicing S R) (hs : Site.Step tunnelReadChunk (t.serverSite S R) e s) :
      Step t .server { t with
        server := .splicing s.sending s.receiving
        client := s.outside
        fwd := s.tx
        bwd := s.rx }
  | serverDone {t : Tunnel} (hp : t.server = .splicing .done .done) :
      Step t .server (t.serverEnds true)
  -- Timed out, an error of the client's pipe or of a stream, or a target that does not fit.
  | serverFailed {t : Tunnel} (hp : ∀ whole, t.server ≠ .ended whole) :
      Step t .fault (t.serverEnds t.server.whole)
  | accept {t : Tunnel} (hp : t.connector = .absent) (ho : t.hello ≠ []) :
      Step t .connector { t with connector := .accepting [] }
  | acceptRead {t : Tunnel} {got p : Bytes} (hp : t.connector = .accepting got) (hne : p ≠ [])
      (hm : p.length ≤ missing got) (hf : p <+: t.fwd.flight) :
      Step t .connector { t with connector := .accepting (got ++ p), fwd := t.fwd.take p.length }
  | connect {t : Tunnel} {got : Bytes} {id : UInt32} {target : String}
      (hp : t.connector = .accepting got) (hm : missing got = 0)
      (hr : readFrame got = .ok (.connect id target, [])) :
      Step t .connector { t with connector := .dialling id target, dialled := some target }
  -- Another message, or none: the stream is at its end before the frame is.
  | noConnect {t : Tunnel} {got : Bytes} (hp : t.connector = .accepting got)
      (hm : missing got = 0 ∨ t.fwd.flight = [] ∧ t.fwd.finished = true)
      (hr : ∀ id target, readFrame got ≠ .ok (.connect id target, [])) :
      Step t .connector (t.connectorEnds false)
  | connectOk {t : Tunnel} {id : UInt32} {target : String} {f : Bytes}
      (hp : t.connector = .dialling id target) (hf : (Message.connectOk id).frame = .ok f) :
      Step t .backend { t with connector := .replying f true, reply := f }
  | connectErr {t : Tunnel} {id : UInt32} {target error : String} {f : Bytes}
      (hp : t.connector = .dialling id target) (hf : (Message.connectErr id error).frame = .ok f) :
      Step t .backend { t with connector := .replying f false, reply := f }
  | replyWrite {t : Tunnel} {p rest : Bytes} {connected : Bool}
      (hp : t.connector = .replying (p ++ rest) connected) (hne : p ≠ []) (hw : t.bwd.Writable) :
      Step t .connector { t with connector := .replying rest connected, bwd := t.bwd.write p }
  | replyRefused {t : Tunnel} {rest : Bytes} {connected : Bool}
      (hp : t.connector = .replying rest connected) (hne : rest ≠ []) (hw : t.bwd.stopped = true) :
      Step t .connector (t.connectorEnds false)
  | splice {t : Tunnel} (hp : t.connector = .replying [] true) :
      Step t .connector { t with connector := .splicing idle idle }
  | noSplice {t : Tunnel} (hp : t.connector = .replying [] false) :
      Step t .connector (t.connectorEnds false)
  | connectorCopy {t : Tunnel} {S R : Transfer UInt8} {e : Site.Move UInt8} {s : Site UInt8}
      (hp : t.connector = .splicing S R)
      (hs : Site.Step tunnelReadChunk (t.connectorSite S R) e s) :
      Step t (moveEvent e) { t with
        connector := .splicing s.sending s.receiving
        backend := s.outside
        bwd := s.tx
        fwd := s.rx }
  -- A stream that nobody reads any more takes no data.
  | copyRefused {t : Tunnel} {S R : Transfer UInt8} (hp : t.connector = .splicing S R)
      (hS : S.pending ≠ []) (hw : t.bwd.stopped = true) :
      Step t .connector (t.connectorEnds false)
  | connectorDone {t : Tunnel} (hp : t.connector = .splicing .done .done) :
      Step t .connector (t.connectorEnds true)
  | connectorFailed {t : Tunnel} (hp : ∀ whole, t.connector ≠ .ended whole)
      (ha : t.connector ≠ .absent) :
      Step t .fault (t.connectorEnds t.connector.whole)

def system : LTS Tunnel Event where
  Init t := ∃ target, t = { target }
  Tr := Step

end Tunnel

end X2rp.Quic
