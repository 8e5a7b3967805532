import X2rp.Proto.Codec
import X2rp.Wss.SessionManager
import X2rp.Wss.Slots

/-! This server and this connector joined by a reliable FIFO channel each way. -/
namespace X2rp.Wss

open Proto

/-- `up` holds the messages on their way to the connector and `down` those on their way to the
server, oldest first, as the receiver will decode them. -/
structure Mux where
  server : ConnectorManager := {}
  connector : SessionManager := {}
  up : List Message := []
  down : List Message := []

namespace Mux

variable {s s' : Mux} {chunk : Nat}

/-- Any interleaving of the two ends, up to the end of the session. -/
inductive Step (chunk : Nat) : Mux → Unit → Mux → Prop
  | serverTask {s : Mux} {M : ConnectorManager}
      (h : ConnectorManager.Step chunk s.server .internal M) :
      Step chunk s () { s with server := M }
  | serverDeliver {s : Mux} {M : ConnectorManager}
      (h : ConnectorManager.Step chunk s.server .deliver M) :
      Step chunk s () { s with server := M }
  | serverSend {s : Mux} {M : ConnectorManager} {m : Message}
      (h : ConnectorManager.Step chunk s.server (.output m) M) :
      Step chunk s () { s with server := M, up := s.up ++ [m.truncated] }
  | serverRecv {s : Mux} {M : ConnectorManager} {m : Message} {rest : List Message}
      (hd : s.down = m :: rest) (h : ConnectorManager.Step chunk s.server (.input m) M) :
      Step chunk s () { s with server := M, down := rest }
  | connectorTask {s : Mux} {C : SessionManager}
      (h : SessionManager.Step chunk s.connector .internal C) :
      Step chunk s () { s with connector := C }
  | connectorSend {s : Mux} {C : SessionManager} {m : Message}
      (h : SessionManager.Step chunk s.connector (.output m) C) :
      Step chunk s () { s with connector := C, down := s.down ++ [m.truncated] }
  | connectorRecv {s : Mux} {C : SessionManager} {m : Message} {rest : List Message}
      (hu : s.up = m :: rest) (h : SessionManager.Step chunk s.connector (.input m) C) :
      Step chunk s () { s with connector := C, up := rest }

def lts (chunk : Nat) : LTS Mux Unit where
  Init s := s = {}
  Tr := Step chunk

/-- What one step of the session asks of the server. -/
theorem server_step (h : Step chunk s () s') : s'.server = s.server ∨
    ∃ e, ConnectorManager.Step chunk s.server e s'.server ∧ e ≠ .hangup ∧
      ∀ m, e = .input m → m ∈ s.down := by
  cases h with
  | serverTask h => exact .inr ⟨_, h, by simp⟩
  | serverDeliver h => exact .inr ⟨_, h, by simp⟩
  | serverSend h => exact .inr ⟨_, h, by simp⟩
  | serverRecv hd h => exact .inr ⟨_, h, by simp [hd]⟩
  | connectorTask h => exact .inl rfl
  | connectorSend h => exact .inl rfl
  | connectorRecv hu h => exact .inl rfl

theorem step_started (h : Step chunk s () s') : s.server.started ≤ s'.server.started := by
  rcases server_step h with he | ⟨e, hs, -⟩
  · rw [he]
  · exact ConnectorManager.step_started hs

/-- The server of a mux run is a manager run: the other end is one connector among all. -/
theorem server_reachable (h : (lts chunk).Reachable s) :
    (ConnectorManager.lts chunk).Reachable s.server := by
  induction h with
  | init h =>
    cases h
    exact .init rfl
  | step _ ht ih =>
    rcases server_step ht with he | ⟨e, h, -⟩
    · rwa [he]
    · exact ih.step h

end Mux

end X2rp.Wss
