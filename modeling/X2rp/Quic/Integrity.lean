import X2rp.Quic.Tunnel

/-! What goes in at one side of a QUIC tunnel comes out at the other, and nothing else does. -/
namespace X2rp.Quic

open Proto Relay

/-- What the server goes on after. -/
def Accepting (head : Bytes) : Prop := ∃ id, readFrame head = .ok (.connectOk id, [])

/-- What the connector goes on after. -/
def Connecting (head : Bytes) : Prop := ∃ id target, readFrame head = .ok (.connect id target, [])

def ServerPhase.stage : ServerPhase → Stage UInt8
  | .opening | .awaiting _ => .early []
  | .connecting rest => .early rest
  | .splicing sending receiving => .copying sending receiving
  | .ended whole => .ended whole

def ConnectorPhase.stage : ConnectorPhase → Stage UInt8
  | .absent | .accepting _ | .dialling _ _ => .early []
  | .replying rest _ => .early rest
  | .splicing sending receiving => .copying sending receiving
  | .ended whole => .ended whole

namespace Tunnel

variable {t t' : Tunnel} {e : Event}

/-- The connector has a backend. -/
def Connected (t : Tunnel) : Prop := ∃ id, (Message.connectOk id).frame = .ok t.reply

/-- The server has asked for its target. -/
def Greeted (t : Tunnel) : Prop := ∃ id, (Message.connect id t.target).frame = .ok t.hello

/-- What the server has asked and read before it copies. -/
def ServerRead (t : Tunnel) : Prop :=
  match t.server with
  | .opening => t.hello = [] ∧ t.bwd.taken = []
  | .connecting _ => t.Greeted ∧ t.bwd.taken = []
  | .awaiting got => t.Greeted ∧ t.bwd.taken = got
  | .splicing _ _ => t.Greeted
  | .ended _ => True

/-- What the connector has read and decided before it copies. -/
def ConnectorRead (t : Tunnel) : Prop :=
  match t.connector with
  | .absent => t.reply = [] ∧ t.fwd.taken = []
  | .accepting got => t.reply = [] ∧ t.fwd.taken = got
  | .dialling _ _ => t.reply = [] ∧ Connecting t.fwd.taken
  | .replying _ connected => Connecting t.fwd.taken ∧ (connected = true → t.Connected)
  | .splicing _ _ => t.Connected
  | .ended _ => True

/-- Each end keeps to its part, the frames are what they should be, and the client is not heard
before the backend is there. -/
structure Sound (t : Tunnel) : Prop where
  server : t.server.stage.Keeps Accepting t.hello t.client t.fwd t.bwd
  connector : t.connector.stage.Keeps Connecting t.reply t.backend t.bwd t.fwd
  serverRead : t.ServerRead
  connectorRead : t.ConnectorRead
  hello : t.hello = [] ∧ t.client = {} ∨ t.Greeted
  reply : t.reply = [] ∧ t.backend = {} ∨ ∃ m, m.kind ≠ .data ∧ Message.frame m = .ok t.reply
  client : t.client ≠ {} → t.Connected
  backend : t.backend ≠ {} → t.Connected
  dialled : ∀ target, t.dialled = some target → target = t.target

theorem length_frame_le {m : Message} {f : Bytes} (hf : m.frame = .ok f) (hk : m.kind ≠ .data) :
    f.length ≤ 4 + maxFrameBodyLen := by
  obtain ⟨body, hb, rfl⟩ := Message.frame_eq_ok_iff.mp hf
  have := Message.length_encode_control hb hk
  rw [List.length_append, length_toBeBytes32]
  omega

theorem frame_ne_nil {m : Message} {f : Bytes} (hf : m.frame = .ok f) (hk : m.kind ≠ .data) :
    f ≠ [] := by
  have := (fromBeBytes32_frame hf (length_frame_le hf hk)).2
  rintro rfl
  simp at this

theorem Sound.delimits_hello (h : Sound t) : Delimits Connecting t.hello t.client.read := by
  rintro head ⟨id', target', hr⟩ hp
  rcases h.hello with ⟨he, hc⟩ | ⟨id, hf⟩
  · rw [he, hc] at hp
    rw [he]
    exact List.prefix_nil.mp hp
  · exact (frame_delimits hf (length_frame_le hf (by simp [Message.kind])) hr hp).1

theorem Sound.delimits_reply (h : Sound t) : Delimits Accepting t.reply t.backend.read := by
  rintro head ⟨id', hr⟩ hp
  rcases h.reply with ⟨he, hc⟩ | ⟨m, hk, hf⟩
  · rw [he, hc] at hp
    rw [he]
    exact List.prefix_nil.mp hp
  · exact (frame_delimits hf (length_frame_le hf hk) hr hp).1

/-- The answer that the server goes on after is the connector's. -/
theorem Sound.connected {head : Bytes} (h : Sound t) (hg : Accepting head)
    (hp : head <+: t.bwd.taken) : t.Connected := by
  have hall := (hp.trans Stream.taken_prefix_sent).trans h.connector.sent
  obtain rfl := h.delimits_reply head hg hall
  obtain ⟨id, hr⟩ := hg
  obtain ⟨-, f, hf, -, he⟩ := readFrame_eq_ok_iff.mp hr
  rw [List.append_nil] at he
  exact ⟨id, he ▸ hf⟩

/-- The request that the connector serves is the server's. -/
theorem Sound.requested {id : UInt32} {target : String} (h : Sound t)
    (hr : readFrame t.fwd.taken = .ok (.connect id target, [])) : target = t.target := by
  have hall := Stream.taken_prefix_sent.trans h.server.sent
  rcases h.hello with ⟨he, hc⟩ | ⟨id', hf⟩
  · rw [he, hc] at hall
    rw [List.prefix_nil.mp hall] at hr
    cases hr
  · have := (frame_delimits hf (length_frame_le hf (by simp [Message.kind])) hr hall).2
    simp only [Message.truncated, Message.connect.injEq] at this
    exact this.2

/-- A step of the server's end leaves the connector's end as it is. -/
theorem Sound.of_server {server : ServerPhase} {hello : Bytes} {client : Outside UInt8}
    {fwd bwd : Stream UInt8} (h : Sound t) (hk : server.stage.Keeps Accepting hello client fwd bwd)
    (hw : t.fwd.ByWriter fwd) (hr : t.bwd.ByReader bwd)
    (hread : ServerRead { t with server, hello, client, fwd, bwd })
    (hh : hello = [] ∧ client = {} ∨ ∃ id, (Message.connect id t.target).frame = .ok hello)
    (hc : client ≠ {} → t.Connected) : Sound { t with server, hello, client, fwd, bwd } where
  server := hk
  connector := h.connector.peer hr hw
  serverRead := hread
  connectorRead := by
    have := h.connectorRead
    unfold ConnectorRead at this ⊢
    dsimp only
    rw [hw.taken]
    exact this
  hello := hh
  reply := h.reply
  client := hc
  backend := h.backend
  dialled := h.dialled

/-- A step of the connector's end leaves the server's end as it is. -/
theorem Sound.of_connector {connector : ConnectorPhase} {reply : Bytes} {backend : Outside UInt8}
    {fwd bwd : Stream UInt8} {dialled : Option String} (h : Sound t)
    (hk : connector.stage.Keeps Connecting reply backend bwd fwd) (hw : t.bwd.ByWriter bwd)
    (hr : t.fwd.ByReader fwd)
    (hread : ConnectorRead { t with connector, reply, backend, fwd, bwd, dialled })
    (hreply : reply = [] ∧ backend = {} ∨ ∃ m, m.kind ≠ .data ∧ Message.frame m = .ok reply)
    (hc : t.client ≠ {} → reply = t.reply) (hb : backend ≠ {} → t.Connected ∧ reply = t.reply)
    (hd : ∀ target, dialled = some target → target = t.target) :
    Sound { t with connector, reply, backend, fwd, bwd, dialled } where
  server := h.server.peer hr hw
  connector := hk
  serverRead := by
    have := h.serverRead
    unfold ServerRead at this ⊢
    dsimp only
    rw [hw.taken]
    exact this
  connectorRead := hread
  hello := h.hello
  reply := hreply
  client hne := by
    obtain ⟨id, hf⟩ := h.client hne
    exact ⟨id, hc hne ▸ hf⟩
  backend hne := by
    obtain ⟨⟨id, hf⟩, he⟩ := hb hne
    exact ⟨id, he ▸ hf⟩
  dialled := hd

theorem serverEnds_sound (h : Sound t) (hp : ∀ whole, t.server ≠ .ended whole) :
    Sound (t.serverEnds t.server.whole) := by
  refine h.of_server ?_ Stream.byWriter_finish Stream.byReader_stop trivial h.hello h.client
  have hk := h.server
  cases hs : t.server with
  | ended whole => exact absurd hs (hp whole)
  | splicing S R =>
    rw [hs] at hk
    exact hk.leave_copying
  | _ =>
    rw [hs] at hk
    exact hk.leave_early

theorem connectorEnds_sound (h : Sound t) (hp : ∀ whole, t.connector ≠ .ended whole) :
    Sound (t.connectorEnds t.connector.whole) := by
  refine h.of_connector ?_ Stream.byWriter_finish Stream.byReader_stop trivial h.reply (fun _ => rfl)
    (fun hne => ⟨h.backend hne, rfl⟩) h.dialled
  have hk := h.connector
  cases hs : t.connector with
  | ended whole => exact absurd hs (hp whole)
  | splicing S R =>
    rw [hs] at hk
    exact hk.leave_copying
  | _ =>
    rw [hs] at hk
    exact hk.leave_early

theorem Sound.replied {id : UInt32} {target : String} {m : Message} {f : Bytes} {connected : Bool}
    (h : Sound t) (hp : t.connector = .dialling id target) (hf : m.frame = .ok f)
    (hk : m.kind ≠ .data) (hc : connected = true → ∃ id, (Message.connectOk id).frame = .ok f) :
    Sound { t with connector := .replying f connected, reply := f } := by
  have hconnector := h.connector
  have hcr := h.connectorRead
  unfold ConnectorRead at hcr
  rw [hp] at hconnector hcr
  obtain ⟨hsent, hfin, hb⟩ := hconnector
  rw [hcr.1, List.append_nil] at hsent
  refine h.of_connector ⟨by rw [hsent, List.nil_append], hfin, hb⟩ .refl .refl ⟨hcr.2, hc⟩
    (.inr ⟨m, hk, hf⟩) (fun hne => ?_) (fun hne => absurd hb hne) h.dialled
  -- No client is heard before there is an answer.
  obtain ⟨id', hf'⟩ := h.client hne
  exact absurd hcr.1 (frame_ne_nil hf' (by simp [Message.kind]))

theorem sound_step (h : Sound t) (hs : Step t e t') : Sound t' := by
  have hserver := h.server
  have hconnector := h.connector
  have hsr := h.serverRead
  have hcr := h.connectorRead
  unfold ServerRead at hsr
  unfold ConnectorRead at hcr
  cases hs with
  | @opened id f hp hf =>
    rw [hp] at hserver hsr
    obtain ⟨hsent, hfin, hcl⟩ := hserver
    rw [hsr.1, List.append_nil] at hsent
    refine h.of_server ⟨?_, hfin, hcl⟩ .refl .refl ⟨⟨id, hf⟩, hsr.2⟩ (.inr ⟨id, hf⟩) h.client
    rw [hsent, List.nil_append]
  | @connectWrite p rest hp hne hw =>
    rw [hp] at hserver hsr
    obtain ⟨hsent, hfin, hcl⟩ := hserver
    refine h.of_server ⟨?_, hfin, hcl⟩ (Stream.byWriter_write hfin) .refl hsr h.hello h.client
    rw [Stream.sent_write, List.append_assoc, hsent]
  | connectSent hp =>
    rw [hp] at hserver hsr
    exact h.of_server hserver .refl .refl hsr h.hello h.client
  | @awaitRead got p hp hne hm hf =>
    rw [hp] at hserver hsr
    refine h.of_server hserver .refl Stream.byReader_take ⟨hsr.1, ?_⟩ h.hello h.client
    change t.bwd.taken ++ t.bwd.flight.take p.length = got ++ p
    rw [hsr.2, ← List.prefix_iff_eq_take.mp hf]
  | @accepted got id hp hm hr =>
    rw [hp] at hserver hsr
    refine h.of_server (hserver.start ⟨id, ?_⟩) .refl .refl hsr.1 h.hello h.client
    rw [hsr.2]
    exact hr
  | @refused got hp hm hr =>
    have := serverEnds_sound h (by simp [hp])
    rwa [hp] at this
  | @serverCopy S R m s hp hs =>
    rw [hp] at hserver hsr
    have hk := hserver.copy hs
    have hcl : t.Connected := by
      obtain ⟨head, hg, hc⟩ := hserver
      exact h.connected hg ⟨_, by rw [hc.receives.conserved, List.append_assoc]⟩
    exact h.of_server hk hs.byWriter hs.byReader hsr (.inr hsr) fun _ => hcl
  | serverDone hp =>
    have := serverEnds_sound h (by simp [hp])
    rwa [hp] at this
  | serverFailed hp => exact serverEnds_sound h hp
  | accept hp ho =>
    rw [hp] at hconnector hcr
    exact h.of_connector hconnector .refl .refl hcr h.reply (fun _ => rfl)
      (fun hne => ⟨h.backend hne, rfl⟩) h.dialled
  | @acceptRead got p hp hne hm hf =>
    rw [hp] at hconnector hcr
    refine h.of_connector hconnector .refl Stream.byReader_take ⟨hcr.1, ?_⟩
      h.reply (fun _ => rfl) (fun hne => ⟨h.backend hne, rfl⟩) h.dialled
    change t.fwd.taken ++ t.fwd.flight.take p.length = got ++ p
    rw [hcr.2, ← List.prefix_iff_eq_take.mp hf]
  | @connect got id target hp hm hr =>
    rw [hp] at hconnector hcr
    rw [← hcr.2] at hr
    refine h.of_connector hconnector .refl .refl ⟨hcr.1, id, target, hr⟩ h.reply (fun _ => rfl)
      (fun hne => ⟨h.backend hne, rfl⟩) ?_
    intro target' he
    cases he
    exact h.requested hr
  | @noConnect got hp hm hr =>
    have := connectorEnds_sound h (by simp [hp])
    rwa [hp] at this
  | @connectOk id target f hp hf =>
    exact h.replied hp hf (by simp [Message.kind]) fun _ => ⟨id, hf⟩
  | @connectErr id target error f hp hf =>
    exact h.replied hp hf (by simp [Message.kind]) (by simp)
  | @replyWrite p rest connected hp hne hw =>
    rw [hp] at hconnector hcr
    obtain ⟨hsent, hfin, hb⟩ := hconnector
    refine h.of_connector ⟨?_, hfin, hb⟩ (Stream.byWriter_write hfin) .refl hcr h.reply
      (fun _ => rfl) (fun hne => ⟨h.backend hne, rfl⟩) h.dialled
    rw [Stream.sent_write, List.append_assoc, hsent]
  | replyRefused hp hne hw =>
    have := connectorEnds_sound h (by simp [hp])
    rwa [hp] at this
  | splice hp =>
    rw [hp] at hconnector hcr
    exact h.of_connector (hconnector.start hcr.1) .refl .refl (hcr.2 rfl) h.reply (fun _ => rfl)
      (fun hne => ⟨h.backend hne, rfl⟩) h.dialled
  | noSplice hp =>
    have := connectorEnds_sound h (by simp [hp])
    rwa [hp] at this
  | @connectorCopy S R m s hp hs =>
    rw [hp] at hconnector hcr
    refine h.of_connector (hconnector.copy hs) hs.byWriter hs.byReader hcr ?_ (fun _ => rfl)
      (fun _ => ⟨hcr, rfl⟩) h.dialled
    obtain ⟨id, hf⟩ := hcr
    exact .inr ⟨_, by simp [Message.kind], hf⟩
  | @copyRefused S R hp hS hw =>
    have := connectorEnds_sound h (by simp [hp])
    have hwhole : t.connector.whole = false := by
      rw [hp, ConnectorPhase.whole, decide_eq_false_iff_not]
      rintro rfl
      simp [Transfer.pending] at hS
    rwa [hwhole] at this
  | connectorDone hp =>
    have := connectorEnds_sound h (by simp [hp])
    rwa [hp] at this
  | connectorFailed hp ha => exact connectorEnds_sound h hp

theorem sound_of_reachable (h : system.Reachable t) : Sound t := by
  refine h.invariant ?_ fun _ _ _ hi hs => sound_step hi hs
  rintro _ ⟨target, rfl⟩
  refine ⟨⟨rfl, rfl, rfl⟩, ⟨rfl, rfl, rfl⟩, ⟨rfl, rfl⟩, ⟨rfl, rfl⟩, .inl ⟨rfl, rfl⟩,
    .inl ⟨rfl, rfl⟩, fun hne => absurd rfl hne, fun hne => absurd rfl hne, by simp⟩

/-- What each side gets is the beginning of what the other side has sent. -/
theorem Sound.inOrder (h : Sound t) :
    t.backend.got <+: t.client.read ∧ t.client.got <+: t.backend.read :=
  ⟨h.connector.got.inOrder h.delimits_hello h.server.sent,
    h.server.got.inOrder h.delimits_reply h.connector.sent⟩

/-- The client's side is shut down after all of the response, unless the connector was broken off
before it had sent that. -/
theorem Sound.client_shut (h : Sound t) (hs : t.client.shut = true) :
    t.connector = .ended false ∨ t.client.got = t.backend.read ∧ t.backend.eof = true := by
  rcases h.connector.finished (h.server.got.finished hs) with he | ⟨hsent, heof⟩
  · left
    cases hc : t.connector <;> simp_all [ConnectorPhase.stage]
  · exact .inr ⟨h.server.got.all hs h.delimits_reply hsent, heof⟩

theorem Sound.backend_shut (h : Sound t) (hs : t.backend.shut = true) :
    t.server = .ended false ∨ t.backend.got = t.client.read ∧ t.client.eof = true := by
  rcases h.server.finished (h.connector.got.finished hs) with he | ⟨hsent, heof⟩
  · left
    cases hc : t.server <;> simp_all [ServerPhase.stage]
  · exact .inr ⟨h.connector.got.all hs h.delimits_hello hsent, heof⟩

/-- The `Connect` for the target `a`. -/
def helloA : Bytes := [0, 0, 0, 8, 1, 0, 0, 0, 0, 0, 1, 97]

def okA : Bytes := [0, 0, 0, 5, 2, 0, 0, 0, 0]

/-- A tunnel to `a` with both ends at the copy. -/
def openA : Tunnel where
  target := "a"
  server := .splicing idle idle
  connector := .splicing idle idle
  fwd := { taken := helloA }
  bwd := { taken := okA }
  hello := helloA
  reply := okA
  dialled := some "a"

theorem reachable_openA : system.Reachable openA := by
  have h0 : system.Reachable { target := "a" } := .init ⟨_, rfl⟩
  have h1 := h0.step (@Step.opened _ 0 helloA rfl (by decide))
  have h2 := h1.step (@Step.connectWrite _ helloA [] rfl (by decide) ⟨rfl, rfl⟩)
  have h3 : system.Reachable
      { target := "a", server := .awaiting [], hello := helloA, fwd := { flight := helloA } } :=
    h2.step (.connectSent rfl)
  have h4 := h3.step (.accept rfl (by decide))
  -- The request comes in two pieces.
  have h5 := h4.step (@Step.acceptRead _ _ [0, 0, 0, 8] rfl (by decide) (by decide) ⟨_, rfl⟩)
  have h6 := h5.step (@Step.acceptRead _ _ [1, 0, 0, 0, 0, 0, 1, 97] rfl (by decide) (by decide)
    ⟨_, rfl⟩)
  have h7 : system.Reachable
      { target := "a", server := .awaiting [], connector := .dialling 0 "a", hello := helloA,
        dialled := some "a", fwd := { taken := helloA } } :=
    h6.step (@Step.connect _ _ 0 "a" rfl (by decide) (by decide))
  have h8 := h7.step (@Step.connectOk _ _ _ okA rfl (by decide))
  have h9 := h8.step (@Step.replyWrite _ okA [] _ rfl (by decide) ⟨rfl, rfl⟩)
  have h10 := h9.step (.splice rfl)
  have h11 := h10.step (@Step.awaitRead _ _ [0, 0, 0, 5] rfl (by decide) (by decide) ⟨_, rfl⟩)
  have h12 := h11.step (@Step.awaitRead _ _ [2, 0, 0, 0, 0] rfl (by decide) (by decide) ⟨_, rfl⟩)
  exact h12.step (@Step.accepted _ _ 0 rfl (by decide) (by decide))

/-- One byte up, one byte down and then the backend's end. -/
def echoA : Tunnel :=
  { openA with
    server := .splicing idle .done
    connector := .splicing .done idle
    fwd := { taken := helloA ++ [71] }
    bwd := { taken := okA ++ [72], finished := true }
    client := { read := [71], got := [72], shut := true }
    backend := { read := [72], eof := true, got := [71] } }

theorem reachable_echoA : system.Reachable echoA := by
  have h1 := reachable_openA.step (.serverCopy rfl
    (.sending (.read (p := [71]) (by decide) (by decide)) trivial))
  have h2 : system.Reachable { openA with
      fwd := { taken := helloA, flight := [71] }, client := { read := [71] } } :=
    h1.step (.serverCopy rfl
      (.sending (@Transfer.Step.write _ _ [71] [] _ (by decide)) ⟨rfl, rfl⟩))
  have h3 := h2.step (.connectorCopy rfl
    (.receiving (.read (p := [71]) (by decide) (by decide)) ⟨_, rfl⟩))
  have h4 : system.Reachable { openA with
      fwd := { taken := helloA ++ [71] }, client := { read := [71] }, backend := { got := [71] } } :=
    h3.step (.connectorCopy rfl
      (.receiving (@Transfer.Step.write _ _ [71] [] _ (by decide)) trivial))
  have h5 := h4.step (.connectorCopy rfl
    (.sending (.read (p := [72]) (by decide) (by decide)) trivial))
  have h6 := h5.step (.connectorCopy rfl (.sending .eof trivial))
  have h7 := h6.step (.connectorCopy rfl
    (.sending (@Transfer.Step.write _ _ [72] [] _ (by decide)) ⟨rfl, rfl⟩))
  have h8 := h7.step (.connectorCopy rfl (.sending .flush trivial))
  have h9 : system.Reachable { openA with
      connector := .splicing .done idle
      fwd := { taken := helloA ++ [71] }
      bwd := { taken := okA, flight := [72], finished := true }
      client := { read := [71] }
      backend := { read := [72], eof := true, got := [71] } } :=
    h8.step (.connectorCopy rfl (.sending .shutdown trivial))
  have h10 := h9.step (.serverCopy rfl
    (.receiving (.read (p := [72]) (by decide) (by decide)) ⟨_, rfl⟩))
  have h11 := h10.step (.serverCopy rfl
    (.receiving (@Transfer.Step.write _ _ [72] [] _ (by decide)) trivial))
  have h12 := h11.step (.serverCopy rfl (.receiving .eof ⟨rfl, rfl⟩))
  have h13 := h12.step (.serverCopy rfl (.receiving .flush trivial))
  exact h13.step (.serverCopy rfl (.receiving .shutdown trivial))

end Tunnel

end X2rp.Quic
