import X2rp.Wss.ConnectorEnd
import X2rp.Wss.ServerEnd

/-! Flow control over one stream: in each direction the window is conserved. -/
namespace X2rp.Wss

open Proto Exchange

namespace ConnectorEnd

variable {C C' : ConnectorEnd} {chunk : Nat} {q : Port} {Q : ConnectorEnd → Prop}
  {ins outs : List Body}

/-- The accounts of the newest task. Before there is one, its credit is untouched. -/
def payer (C : ConnectorEnd) : Account :=
  match C.handlers with
  | [] => ⟨streamRecvWindow, true⟩
  | H :: _ => ⟨H.download.funds, C.entry⟩

def payee (C : ConnectorEnd) : Account :=
  match C.handlers with
  | [] => ⟨0, true⟩
  | H :: _ => ⟨H.upload.owed, C.entry⟩

/-- The end is not in the way of the server's bytes: a backend that is not up has none queued,
and none arrive where there is no task or its request side is closed. -/
structure Ready (C : ConnectorEnd) (q : Port) : Prop where
  once : ∀ target, q = .input (.connect target) → C = {}
  queue : ∀ H ∈ C.handlers, H.pre = true → H.upload.queue = []
  none : C.handlers = [] → bytesIn q = 0
  half : ∀ H ∈ C.handlers, C.entry = true → H.requestOpen = false → bytesIn q = 0

theorem payer_step (hc : Course chunk Q ins outs C) (hs : Step chunk C q C') (hr : Ready C q)
    (hcap : C.payer.value + grantsIn q ≤ streamRecvWindow) :
    C.payer.Step (grantsIn q) (bytesOut q) C'.payer := by
  by_cases hq : ∃ target, q = .input (.connect target)
  · obtain ⟨target, rfl⟩ := hq
    have hC := hr.once target rfl
    subst hC
    rcases step_connect hs with rfl | rfl
    · exact .of_eq (by simp [payer]) (by simp [payer, Entry.toEnd, Sender.wf_init.funds_nonneg])
        (by simp [payer, Entry.toEnd, grantsIn, bytesOut, Body.granted, Sender.funds,
          Sender.acquired, SendCredit.new])
    · exact .of_eq (by simp [payer]) (by simp [payer])
        (by simp [payer, grantsIn, bytesOut, Body.granted])
  · have hq' : ∀ target, q ≠ .input (.connect target) := fun target h => hq ⟨target, h⟩
    have hnone : ∀ n, C = { refusals := n } → C.payer.Step (grantsIn q) (bytesOut q) C'.payer := by
      rintro n rfl
      have hg : grantsIn q = 0 := by
        simp only [payer] at hcap
        omega
      have ho : bytesOut q = 0 := by
        cases hs with
        | handlerSend ht _ => simp at ht
        | _ => rfl
      rcases step_none hs hq' with rfl | ⟨k, -, -, rfl⟩ <;>
        exact .of_eq (by simp [payer]) (by simp [payer]) (by simp [payer, hg, ho])
    cases hc with
    | idle hi => exact hnone 0 rfl
    | refused hi ho => exact hnone _ rfl
    | entry hb h =>
      obtain ⟨E', hE, rfl⟩ := step_entry hs hq'
      exact Entry.payer_step (Entry.sound_of_run h) hE hcap

theorem payee_step (hc : Course chunk Q ins outs C) (hs : Step chunk C q C') (hr : Ready C q)
    (hcap : C.payee.value + bytesIn q ≤ streamRecvWindow) :
    C.payee.Step (bytesIn q) (grantsOut q) C'.payee := by
  by_cases hq : ∃ target, q = .input (.connect target)
  · obtain ⟨target, rfl⟩ := hq
    have hC := hr.once target rfl
    subst hC
    rcases step_connect hs with rfl | rfl <;>
      exact .of_eq (by simp [payee]) (by simp [payee, Entry.toEnd])
        (by simp [payee, Entry.toEnd, bytesIn, grantsOut, Body.payload, Drain.owed, Drain.held,
          Drain.queued, Drain.writing, Drain.lost, Drain.granting])
  · have hq' : ∀ target, q ≠ .input (.connect target) := fun target h => hq ⟨target, h⟩
    have hnone : ∀ n, C = { refusals := n } → C.payee.Step (bytesIn q) (grantsOut q) C'.payee := by
      rintro n rfl
      have hg : bytesIn q = 0 := hr.none rfl
      have ho : grantsOut q = 0 := by
        cases hs with
        | handlerSend ht _ => simp at ht
        | _ => rfl
      rcases step_none hs hq' with rfl | ⟨k, -, -, rfl⟩ <;>
        exact .of_eq (by simp [payee]) (by simp [payee]) (by simp [payee, hg, ho])
    cases hc with
    | idle hi => exact hnone 0 rfl
    | refused hi ho => exact hnone _ rfl
    | @entry before ins outs E hb h =>
      obtain ⟨E', hE, rfl⟩ := step_entry hs hq'
      have hmem : E.task ∈ E.toEnd.handlers := List.mem_singleton_self _
      exact Entry.payee_step (Entry.sound_of_run h) hE hcap
        (fun hp => hr.queue _ hmem (by simp [Handler.pre, hp])) (hr.half _ hmem)

end ConnectorEnd

namespace Stream

variable {s s' : Stream} {chunk : Nat} {P : ServerEnd → Prop} {Q : ConnectorEnd → Prop}
  {sIns sOuts cIns cOuts : List Body} {b : Body} {q : Port}

/-- The server's one `Connect` keeps the connector to one course. -/
theorem Runs.course (h : Runs chunk P Q s sIns sOuts cIns cOuts) :
    ConnectorEnd.Course chunk Q cIns cOuts s.connector := by
  refine ConnectorEnd.course_of_run h.connector ?_
  have := ServerEnd.connect_once h.server
  rw [← h.up, List.countP_append] at this
  omega

/-- Until the connector has said `ConnectOk`, the server sends nothing but its `Connect` and
a `Reset`. -/
theorem Runs.not_spliced (h : Runs chunk P Q s sIns sOuts cIns cOuts)
    (ho : Body.connectOk ∉ cOuts) : ∀ b ∈ sOuts, b.spliced = false := by
  refine (ServerEnd.unanswered_of_run h.server fun hm => ho ?_).outs
  exact (mem_map_truncated rfl).mp (h.down ▸ List.mem_append_left _ hm)

theorem payload_of_not_spliced (hb : b.spliced = false) : b.payload = [] := by
  cases b <;> simp_all [Body.spliced, Body.payload]

theorem Runs.ready (h : Runs chunk P Q s sIns sOuts cIns cOuts)
    (hq : ∀ b, q = .input b → b ∈ s.up) : s.connector.Ready q := by
  have hmem : ∀ b, q = .input b → b ∈ sOuts := fun b hb =>
    h.up ▸ List.mem_append_right _ (hq b hb)
  have hzero : (∀ b, q = .input b → b.payload = []) → bytesIn q = 0 := by
    intro hb
    cases q with
    | input b => simp [bytesIn, hb b rfl]
    | _ => rfl
  have hquiet : Body.connectOk ∉ cOuts → bytesIn q = 0 := fun ho =>
    hzero fun b hb => payload_of_not_spliced (h.not_spliced ho b (hmem b hb))
  have hc := h.course
  refine ⟨fun target ht => ?_, fun H hH hp => ?_, fun hn => ?_, fun H hH he ho => ?_⟩
  · have hpos : 0 < s.up.countP Body.isConnect :=
      List.countP_pos_iff.mpr ⟨_, hq _ ht, rfl⟩
    have hle := ServerEnd.connect_once h.server
    rw [← h.up, List.countP_append] at hle
    have hi : ∀ b ∈ cIns, b.isConnect = false := by
      have : cIns.countP Body.isConnect = 0 := by omega
      simpa [List.countP_eq_zero] using this
    generalize s.connector = C at hc
    cases hc with
    | idle _ => rfl
    | refused hex _ =>
      obtain ⟨b, hb, hcb⟩ := hex
      simp [hi b hb] at hcb
    | entry _ _ => simpa [Body.isConnect] using hi _ (List.mem_append_right _ List.mem_cons_self)
  · have hsub : ∀ b ∈ cIns, b ∈ sOuts := fun b hb => h.up ▸ List.mem_append_left _ hb
    obtain ⟨before, ins, E, rfl, -, hr, -, rfl⟩ := hc.of_task hH
    have hout := Entry.silent_of_pre hr hp
    exact Entry.queue_of_pre hr hp fun b hb => h.not_spliced (by simp [hout]) b
      (hsub b (List.mem_append_right _ (List.mem_cons_of_mem _ hb)))
  · generalize s.connector = C at hc hn
    cases hc with
    | idle _ => exact hquiet (by simp)
    | refused _ ho => exact hquiet (by rcases ho with ⟨-, rfl⟩ | ⟨-, rfl⟩ <;> simp)
    | entry _ _ => simp [Entry.toEnd] at hn
  · have hlast := (ServerEnd.closing_of_run h.server).last
    rw [← h.up] at hlast
    obtain ⟨before, ins, E, rfl, -, hr, hC, rfl⟩ := hc.of_task hH
    rw [hC] at he
    have hab := (Entry.sound_of_run hr).listed he
    have hclose := (Entry.half_of_run hr ho).resolve_left (by simp [hab])
    refine hzero fun b hb => ?_
    exact (List.pairwise_append.mp hlast).2.2 _
      (List.mem_append_right _ (List.mem_cons_of_mem _ hclose)) b (hq b hb) rfl

/-- In both directions the window is somewhere between the two ends. -/
structure Conserved (s : Stream) : Prop where
  download : Balanced streamRecvWindow s.connector.payer s.server.payee (payloads s.down).length
    (grants s.up)
  upload : Balanced streamRecvWindow s.server.payer s.connector.payee (payloads s.up).length
    (grants s.down)

theorem conserved_init (h : (lts chunk).Init s) : Conserved s := by
  obtain ⟨target, id, rfl⟩ := h
  constructor <;> constructor <;>
    simp [ConnectorEnd.payer, ConnectorEnd.payee, ServerEnd.payer, ServerEnd.payee,
      ServerEnd.handed, Sender.funds, Sender.acquired, SendCredit.new, Drain.owed, Drain.held,
      Drain.queued, Drain.writing, Drain.lost, Drain.granting]

theorem Conserved.step (h : Conserved s) (hr : Runs chunk P Q s sIns sOuts cIns cOuts)
    (hs : Step chunk s () s') : Conserved s' := by
  obtain ⟨hdown, hup⟩ := h
  have hS := ServerEnd.sound_of_run hr.server
  have hC := hr.course
  cases hs with
  | server hs =>
    have h1 := ServerEnd.payee_step hS hs (by simpa [bytesIn] using hdown.symm.le_left)
    have h2 := ServerEnd.payer_step hS hs (by simpa [grantsIn] using hup.le_left)
    exact ⟨(hdown.symm.send h1).symm, hup.send h2⟩
  | @serverSend S b hs =>
    have h1 := ServerEnd.payee_step hS hs (by simpa [bytesIn] using hdown.symm.le_left)
    have h2 := ServerEnd.payer_step hS hs (by simpa [grantsIn] using hup.le_left)
    constructor
    · simpa [grantsOut] using (hdown.symm.send h1).symm
    · simpa [bytesOut] using hup.send h2
  | @serverRecv S b rest hd hs =>
    simp only [hd, payloads_cons, List.length_append, grants_cons] at hdown hup
    have h1 := ServerEnd.payee_step hS hs hdown.symm.take_le
    have h2 := ServerEnd.payer_step hS hs hup.take_le
    exact ⟨(hdown.symm.recv h1).symm, hup.recv h2⟩
  | connector hs =>
    have hready := hr.ready (q := .internal) (by simp)
    have h1 := ConnectorEnd.payer_step hC hs hready (by simpa [grantsIn] using hdown.le_left)
    have h2 := ConnectorEnd.payee_step hC hs hready (by simpa [bytesIn] using hup.symm.le_left)
    exact ⟨hdown.send h1, (hup.symm.send h2).symm⟩
  | @connectorSend C b hs =>
    have hready := hr.ready (q := .output b) (by simp)
    have h1 := ConnectorEnd.payer_step hC hs hready (by simpa [grantsIn] using hdown.le_left)
    have h2 := ConnectorEnd.payee_step hC hs hready (by simpa [bytesIn] using hup.symm.le_left)
    constructor
    · simpa [bytesOut] using hdown.send h1
    · simpa [grantsOut] using (hup.symm.send h2).symm
  | @connectorRecv C b rest hu hs =>
    have hready := hr.ready (q := .input b) (by simp [hu])
    simp only [hu, payloads_cons, List.length_append, grants_cons] at hdown hup
    have h1 := ConnectorEnd.payer_step hC hs hready hdown.take_le
    have h2 := ConnectorEnd.payee_step hC hs hready hup.symm.take_le
    exact ⟨hdown.recv h1, (hup.symm.recv h2).symm⟩

theorem conserved_of_reachable (h : (lts chunk).Reachable s) : Conserved s := by
  induction h with
  | init h => exact conserved_init h
  | step hr hs ih =>
    obtain ⟨sIns, sOuts, cIns, cOuts, hruns⟩ :=
      runs_of_reachable (P := fun _ => True) (Q := fun _ => True) hr (by simp) (by simp)
    exact ih.step hruns hs

/-- A payload on its way to a registered stream fits what is left of its window. -/
theorem Conserved.fits {p : Bytes} {rest : List Body} (h : Conserved s) (hS : s.server.Sound)
    (hd : s.down = .data p :: rest) (hr : s.server.registered = true) :
    s.server.tunnel.outstanding + p.length ≤ streamRecvWindow := by
  have hb := h.download.symm
  simp only [hd, payloads_cons, List.length_append, Body.payload] at hb
  have := hb.take_le
  have := hS.counted hr
  simp only [ServerEnd.payee, Drain.owed] at *
  omega

theorem within_of_reachable (h : (lts chunk).Reachable s) : s.server.resets = 0 ∧
    s.server.tunnel.outstanding ≤ streamRecvWindow := by
  induction h with
  | init h =>
    obtain ⟨target, id, rfl⟩ := h
    simp
  | @step s s' e hr hs ih =>
    have hc := conserved_of_reachable hr
    obtain ⟨sIns, sOuts, cIns, cOuts, hruns⟩ :=
      runs_of_reachable (P := fun _ => True) (Q := fun _ => True) hr (by simp) (by simp)
    have hS := ServerEnd.sound_of_run hruns.server
    cases hs with
    | server hs => exact ServerEnd.step_within hS hs ih.1 ih.2 (by simp)
    | serverSend hs => exact ServerEnd.step_within hS hs ih.1 ih.2 (by simp)
    | serverRecv hd hs =>
      refine ServerEnd.step_within hS hs ih.1 ih.2 fun p hp hreg => ?_
      cases hp
      exact hc.fits hS hd hreg
    | connector hs => exact ih
    | connectorSend hs => exact ih
    | connectorRecv hu hs => exact ih

/-- Neither end has torn the stream down, and `H` is its task. -/
structure Live (s : Stream) (H : Handler) : Prop where
  registered : s.server.registered = true
  entry : s.connector.entry = true
  task : s.connector.handlers = [H]

/-- Where the window of the download is: the handler's credit, what it has acquired and not
sent, the `Data` in flight, what the server has received and not drained, what it has drained
and not granted, and the grants decided or in flight. -/
def downloadWindow (s : Stream) (H : Handler) : Int :=
  H.download.credit.credit + H.download.acquired + (payloads s.down).length +
    (s.server.handed.length + s.server.tunnel.download.queued +
      s.server.tunnel.download.writing : Nat) +
    s.server.tunnel.download.drained + (s.server.tunnel.download.granting + grants s.up : Nat)

/-- The same for the upload, whose sender is the tunnel. -/
def uploadWindow (s : Stream) (H : Handler) : Int :=
  s.server.tunnel.upload.credit.credit + s.server.tunnel.upload.acquired +
    (payloads s.up).length + (H.upload.queued + H.upload.writing : Nat) +
    H.upload.drained + (H.upload.granting + grants s.down : Nat)

variable {H : Handler}

theorem downloadWindow_lost (h : (lts chunk).Reachable s) (hl : Live s H) :
    s.downloadWindow H + s.server.tunnel.download.lost = streamRecvWindow := by
  have := (conserved_of_reachable h).download.eq (by simp [ConnectorEnd.payer, hl.task, hl.entry])
    hl.registered
  simp only [ConnectorEnd.payer, hl.task, Sender.funds, ServerEnd.payee, Drain.owed,
    Drain.held] at this
  unfold downloadWindow
  omega

theorem uploadWindow_lost (h : (lts chunk).Reachable s) (hl : Live s H) :
    s.uploadWindow H + H.upload.lost = streamRecvWindow := by
  have := (conserved_of_reachable h).upload.eq hl.registered
    (by simp [ConnectorEnd.payee, hl.task, hl.entry])
  simp only [ConnectorEnd.payee, hl.task, Sender.funds, ServerEnd.payer, Drain.owed,
    Drain.held] at this
  unfold uploadWindow
  omega

/-- A grant that is next on its way is credited in full. -/
theorem add_unclipped {U : Sender} {n : Nat} (hw : U.WF) (h : U.funds + n ≤ streamRecvWindow) :
    (U.credit.add n).credit = U.credit.credit + n := by
  have := hw.funds_add h
  simp only [Sender.funds, Sender.acquired] at this
  omega

/-- Flow-control conservation. As long as the stream is up and no write has failed, the window
is accounted for in each direction; no grant is ever clipped, and the server never sees its
window exceeded. -/
theorem flow_control (h : (lts chunk).Reachable s) :
    (∀ H, Live s H →
      (s.server.tunnel.download.failed = none → s.downloadWindow H = streamRecvWindow) ∧
      (H.upload.failed = none → s.uploadWindow H = streamRecvWindow)) ∧
    (∀ H ∈ s.connector.handlers, ∀ bytes rest, s.up = .windowUpdate bytes :: rest →
      (H.download.credit.add bytes.toNat).credit = H.download.credit.credit + bytes.toNat) ∧
    (∀ bytes rest, s.down = .windowUpdate bytes :: rest →
      (s.server.tunnel.upload.credit.add bytes.toNat).credit =
        s.server.tunnel.upload.credit.credit + bytes.toNat) ∧
    s.server.tunnel.outstanding ≤ streamRecvWindow ∧
    (∀ p rest, s.down = .data p :: rest → s.server.registered = true →
      s.server.tunnel.outstanding + p.length ≤ streamRecvWindow) ∧
    s.server.resets = 0 := by
  have hc := conserved_of_reachable h
  obtain ⟨sIns, sOuts, cIns, cOuts, hruns⟩ :=
    runs_of_reachable (P := fun _ => True) (Q := fun _ => True) h (by simp) (by simp)
  have hS := ServerEnd.sound_of_run hruns.server
  refine ⟨fun H hl => ⟨fun hf => ?_, fun hf => ?_⟩, fun H hH bytes rest hu => ?_,
    fun bytes rest hd => ?_, (within_of_reachable h).2, fun p rest hd hr => hc.fits hS hd hr,
    (within_of_reachable h).1⟩
  · simpa [Drain.lost, hf] using downloadWindow_lost h hl
  · simpa [Drain.lost, hf] using uploadWindow_lost h hl
  · have hb := hc.download
    obtain ⟨before, ins, E, -, -, hr, hC, rfl⟩ := hruns.course.of_task hH
    simp only [hu, grants_cons, Body.granted, hC] at hb
    exact add_unclipped (Entry.sound_of_run hr).download hb.take_le
  · have hb := hc.upload
    simp only [hd, grants_cons, Body.granted] at hb
    exact add_unclipped hS.upload hb.take_le

/-- A stream whose connect has been answered and whose channels are empty again. -/
theorem spliced_reachable (chunk : Nat) (target : String) : (lts chunk).Reachable
    { server := { tunnel := { target := target, id := 1, phase := .splice, answer := some .ok }
                  waiting := false }
      connector := { entry := true, handlers := [{ target := target, pc := .splice }] } } := by
  have h0 : (lts chunk).Reachable
      { server := { tunnel := { target := target, id := 1, phase := .sendConnect } } } :=
    .init ⟨target, 1, rfl⟩
  have h1 := h0.step (.serverSend (.tunnelSend (.connectSent rfl)))
  have h2 := h1.step (.connectorRecv rfl .accept)
  have h3 := h2.step (.connector (ConnectorEnd.step_task rfl (.backendUp rfl rfl rfl)))
  have h4 := h3.step (.connectorSend (ConnectorEnd.step_taskSend rfl (.okSent rfl)))
  have h5 := h4.step (.serverRecv rfl (.recv rfl))
  exact h5.step (.server (.tunnel (.connected rfl rfl)))

/-- The backend has sent `k` payloads and the server has taken none of them. -/
theorem sending_reachable (chunk : Nat) {p : Bytes} (h0 : p ≠ []) (hp : p.length ≤ chunk) {k : Nat}
    (hk : k * p.length ≤ streamRecvWindow) : ∃ s H, (lts chunk).Reachable s ∧ Live s H ∧
      H.pc = .splice ∧ H.download.pc = .read ∧
      H.download.credit = { SendCredit.new streamRecvWindow with
        credit := streamRecvWindow - (k * p.length : Nat) } ∧
      s.server.tunnel.download = {} ∧ s.server.hand = none ∧ s.up = [] ∧
      s.down = List.replicate k (.data p) := by
  induction k with
  | zero =>
    exact ⟨_, _, spliced_reachable chunk "http://localhost:80", ⟨rfl, rfl, rfl⟩, rfl, rfl,
      by simp [SendCredit.new], rfl, rfl, rfl, rfl⟩
  | succ k ih =>
    rw [Nat.add_mul, Nat.one_mul] at hk
    obtain ⟨s, H, hr, hl, hpc, hd, hc, hT, hh, hu, hdown⟩ := ih (by omega)
    have h1 := hr.step (.connector (ConnectorEnd.step_task hl.task (.download hpc (.readData hd h0 hp))))
    have h2 := h1.step (.connector (ConnectorEnd.step_task rfl
      (.download rfl (.acquireOpen rfl (by simp [hc, SendCredit.new])))))
    have h3 := h2.step (.connector (ConnectorEnd.step_task rfl (.download rfl
      (.reserve (c := { SendCredit.new streamRecvWindow with
        credit := streamRecvWindow - (k * p.length : Nat) - p.length }) rfl
        (by simp [hc, SendCredit.tryReserve]; omega)))))
    have h4 := h3.step (.connectorSend (ConnectorEnd.step_taskSend rfl
      (.download rfl (.sendData rfl))))
    refine ⟨_, _, h4, ⟨hl.registered, hl.entry, rfl⟩, rfl, rfl, ?_, hT, hh, hu, ?_⟩
    · simp [Nat.add_mul]
      omega
    · simp [hdown, List.replicate_succ', Body.truncated]

theorem flow_control_sending : ∃ s H, (lts tunnelReadChunk).Reachable s ∧ Live s H ∧
    (payloads s.down).length = 6 ∧ s.downloadWindow H = streamRecvWindow := by
  obtain ⟨s, H, hr, hl, -, -, -, hT, -, -, hd⟩ :=
    sending_reachable tunnelReadChunk (p := [1, 2, 3]) (k := 2) (by simp) (by decide) (by decide)
  exact ⟨s, H, hr, hl, by simp [hd, Body.payload],
    ((flow_control hr).1 H hl).1 (by rw [hT])⟩

end Stream

/-- The loop waits in `acquire` for more credit than there is. -/
def Sender.starved (U : Sender) : Prop :=
  ∃ p, (U.pc = .acquire p ∨ U.pc = .reserve p ∨ U.pc = .park p) ∧ U.credit.credit < p.length

/-- The loop has something to write or to grant. -/
def Drain.busy (D : Drain) : Prop :=
  D.queue ≠ [] ∨ (∃ rest size, D.pc = .write rest size) ∨ ∃ n, D.pc = .grant n

theorem Sender.acquired_eq_zero {U : Sender} (h : ∀ p, U.pc ≠ .sendData p) : U.acquired = 0 := by
  unfold acquired
  split
  · rename_i p hp
    exact absurd hp (h p)
  · rfl

theorem Sender.starved_acquired {U : Sender} (h : U.starved) : U.acquired = 0 := by
  obtain ⟨p, hp, -⟩ := h
  rcases hp with hp | hp | hp <;> simp [acquired, hp]

theorem Sender.starved_lt {U : Sender} (h : U.starved) : U.credit.credit < U.pending.length := by
  obtain ⟨p, hp, hc⟩ := h
  rcases hp with hp | hp | hp <;> simpa [pending, hp] using hc

theorem Drain.not_busy {D : Drain} (h : ¬ D.busy) : D.queued = 0 ∧ D.writing = 0 ∧
    D.granting = 0 := by
  simp only [busy, not_or, not_not, not_exists] at h
  obtain ⟨hq, hw, hg⟩ := h
  refine ⟨by simp [queued, hq], ?_, ?_⟩
  · unfold writing
    split
    · exact absurd ‹_› (hw _ _)
    · rfl
  · unfold granting
    split
    · exact absurd ‹_› (hg _)
    · rfl

theorem payloads_eq_nil {l : List Body} (h : ∀ p, .data p ∉ l) : payloads l = [] := by
  induction l with
  | nil => rfl
  | cons b l ih =>
    have hb : b.payload = [] := by
      cases b with
      | data p => exact absurd List.mem_cons_self (h p)
      | _ => rfl
    simp [hb, ih fun p hp => h p (List.mem_cons_of_mem _ hp)]

theorem grants_eq_zero {l : List Body} (h : ∀ n, .windowUpdate n ∉ l) : grants l = 0 := by
  induction l with
  | nil => rfl
  | cons b l ih =>
    have hb : b.granted = 0 := by
      cases b with
      | windowUpdate n => exact absurd List.mem_cons_self (h n)
      | _ => rfl
    simp [hb, ih fun n hn => h n (List.mem_cons_of_mem _ hn)]

namespace Stream

variable {s : Stream} {chunk : Nat} {H : Handler}

/-- No payload in the stream is larger than one read. -/
theorem small_of_reachable (h : (lts chunk).Reachable s) (hl : Live s H) :
    (H.download.pending.length ≤ chunk ∧ H.upload.Small chunk ∧ H.upload.WF) ∧
    s.server.tunnel.upload.pending.length ≤ chunk ∧ s.server.tunnel.download.Small chunk ∧
      s.server.tunnel.download.WF := by
  obtain ⟨sIns, sOuts, cIns, cOuts, hruns⟩ :=
    runs_of_reachable (P := fun _ => True) (Q := fun _ => True) h (by simp) (by simp)
  have hS := ServerEnd.small_sent hruns.server
  have hsub : ∀ b ∈ cIns, b.payload.length ≤ chunk := fun b hb =>
    hS.2 b (hruns.up ▸ List.mem_append_left _ hb)
  have hin : (∀ b ∈ cOuts, b.payload.length ≤ chunk) → ∀ b ∈ sIns, b.payload.length ≤ chunk := by
    intro ho b hb
    have hb : b ∈ cOuts.map Body.truncated := hruns.down ▸ List.mem_append_left _ hb
    obtain ⟨c, hc, rfl⟩ := List.mem_map.mp hb
    simpa using ho c hc
  obtain ⟨-, -, htask⟩ := hl
  obtain ⟨before, ins, E, rfl, -, hr, -, rfl⟩ :=
    hruns.course.of_task (htask ▸ List.mem_singleton_self H)
  have hout := Entry.small_sent hr
  have hheld := Entry.small_held hr fun b hb =>
    hsub b (List.mem_append_right _ (List.mem_cons_of_mem _ hb))
  exact ⟨⟨hout.1, hheld, (Entry.sound_of_run hr).upload⟩, hS.1,
    (ServerEnd.small_held hruns.server (hin hout.2)).1, (ServerEnd.sound_of_run hruns.server).download⟩

/-- Credit never starves a stream: a sender that waits for credit has bytes on their way to be
drained or a grant on its way back, for once nothing is, less than a threshold is withheld. -/
theorem credit_never_starves (h : (lts tunnelReadChunk).Reachable s) (hl : Live s H) :
    (H.download.starved → (∃ p, .data p ∈ s.down) ∨ s.server.hand ≠ none ∨
      s.server.tunnel.download.busy ∨ ∃ n, .windowUpdate n ∈ s.up) ∧
    (s.server.tunnel.upload.starved → (∃ p, .data p ∈ s.up) ∨ H.upload.busy ∨
      ∃ n, .windowUpdate n ∈ s.down) ∧
    ((∀ p, .data p ∉ s.down) → s.server.hand = none → ¬ s.server.tunnel.download.busy →
      s.server.tunnel.download.failed = none → (∀ n, .windowUpdate n ∉ s.up) →
      streamRecvWindow - (windowUpdateThreshold - 1) ≤
        H.download.credit.credit + H.download.acquired ∧
      ((∀ p, H.download.pc ≠ .sendData p) →
        streamRecvWindow - (windowUpdateThreshold - 1) ≤ H.download.credit.credit)) ∧
    ((∀ p, .data p ∉ s.up) → ¬ H.upload.busy → H.upload.failed = none →
      (∀ n, .windowUpdate n ∉ s.down) →
      streamRecvWindow - (windowUpdateThreshold - 1) ≤
        s.server.tunnel.upload.credit.credit + s.server.tunnel.upload.acquired ∧
      ((∀ p, s.server.tunnel.upload.pc ≠ .sendData p) →
        streamRecvWindow - (windowUpdateThreshold - 1) ≤ s.server.tunnel.upload.credit.credit)) ∧
    tunnelReadChunk ≤ streamRecvWindow - (windowUpdateThreshold - 1) := by
  have hd := downloadWindow_lost h hl
  have hu := uploadWindow_lost h hl
  obtain ⟨⟨hHp, hHs, hHw⟩, hTp, hTs, hTw⟩ := small_of_reachable h hl
  have hHl := hHs.lost
  have hTl := hTs.lost
  have hHd := hHw.drained
  have hTd := hTw.drained
  have hwin : streamRecvWindow = 262144 := by decide
  have hthr : windowUpdateThreshold = 131072 := by decide
  have hchunk : tunnelReadChunk = 32768 := by decide
  have hdown : (∀ p, .data p ∉ s.down) → s.server.hand = none →
      ¬ s.server.tunnel.download.busy → (∀ n, .windowUpdate n ∉ s.up) →
      H.download.credit.credit + H.download.acquired + s.server.tunnel.download.drained +
        s.server.tunnel.download.lost = streamRecvWindow := by
    intro h1 h2 h3 h4
    obtain ⟨hq, hw, hg⟩ := Drain.not_busy h3
    simpa [downloadWindow, payloads_eq_nil h1, ServerEnd.handed, h2, hq, hw, hg,
      grants_eq_zero h4] using hd
  have hup : (∀ p, .data p ∉ s.up) → ¬ H.upload.busy → (∀ n, .windowUpdate n ∉ s.down) →
      s.server.tunnel.upload.credit.credit + s.server.tunnel.upload.acquired +
        H.upload.drained + H.upload.lost = streamRecvWindow := by
    intro h1 h2 h3
    obtain ⟨hq, hw, hg⟩ := Drain.not_busy h2
    simpa [uploadWindow, payloads_eq_nil h1, hq, hw, hg, grants_eq_zero h3] using hu
  refine ⟨fun hst => ?_, fun hst => ?_, fun h1 h2 h3 hf h4 => ?_, fun h1 h2 hf h3 => ?_, ?_⟩
  · by_contra hn
    simp only [not_or, not_exists, not_not] at hn
    have := hdown hn.1 hn.2.1 hn.2.2.1 hn.2.2.2
    have := Sender.starved_lt hst
    have := Sender.starved_acquired hst
    omega
  · by_contra hn
    simp only [not_or, not_exists] at hn
    have := hup hn.1 hn.2.1 hn.2.2
    have := Sender.starved_lt hst
    have := Sender.starved_acquired hst
    omega
  · have := hdown h1 h2 h3 h4
    simp only [Drain.lost, hf] at this
    refine ⟨by omega, fun hpc => ?_⟩
    rw [Sender.acquired_eq_zero hpc] at this
    omega
  · have := hup h1 h2 h3
    simp only [Drain.lost, hf] at this
    refine ⟨by omega, fun hpc => ?_⟩
    rw [Sender.acquired_eq_zero hpc] at this
    omega
  · omega

theorem credit_never_starves_parked : ∃ s H, (lts tunnelReadChunk).Reachable s ∧ Live s H ∧
    H.download.starved ∧ ((∃ p, .data p ∈ s.down) ∨ s.server.hand ≠ none ∨
      s.server.tunnel.download.busy ∨ ∃ n, .windowUpdate n ∈ s.up) := by
  obtain ⟨p, hlen⟩ : ∃ p : Bytes, p.length = tunnelReadChunk :=
    ⟨List.replicate tunnelReadChunk 0, List.length_replicate⟩
  have h0 : p ≠ [] := by
    rintro rfl
    simp [tunnelReadChunk] at hlen
  obtain ⟨s, H, hr, hl, hpc, hd, hc, -⟩ :=
    sending_reachable tunnelReadChunk (k := 8) h0 hlen.le (by rw [hlen]; decide)
  rw [hlen] at hc
  have h1 := hr.step (.connector (ConnectorEnd.step_task hl.task (.download hpc (.readData hd h0 hlen.le))))
  have h2 := h1.step (.connector (ConnectorEnd.step_task rfl
    (.download rfl (.acquireOpen rfl (by simp [hc, SendCredit.new])))))
  have h3 := h2.step (.connector (ConnectorEnd.step_task rfl (.download rfl (.reserveShort rfl
    (by simp [hc, SendCredit.tryReserve, hlen, streamRecvWindow, tunnelReadChunk])))))
  refine ⟨_, _, h3, ⟨hl.registered, hl.entry, rfl⟩, ?starved,
    (credit_never_starves h3 ⟨hl.registered, hl.entry, rfl⟩).1 ?starved⟩
  exact ⟨_, .inr (.inr rfl), by
    simp [hc, hlen, streamRecvWindow, tunnelReadChunk]⟩

end Stream

end X2rp.Wss
