import X2rp.Quic.Session

/-! When the server's task of a tunnel is over, so is the connector's, but for what its backend
still owes. -/
namespace X2rp.Quic

open Proto Relay

namespace Tunnel

variable {t t' : Tunnel} {e : Event} {whole : Bool}

/-- The server's task has ended, and both of its streams are dropped. -/
structure Dropped (t : Tunnel) : Prop where
  ended : ∃ whole, t.server = .ended whole
  finished : t.fwd.finished = true
  stopped : t.bwd.stopped = true

/-- The connector's own moves leave the streams dropped. -/
theorem Dropped.step (h : Dropped t) (hs : Step t e t') : Dropped t' := by
  obtain ⟨⟨whole, he⟩, hf, hw⟩ := h
  cases hs with
  | serverFailed hp => exact absurd he (hp whole)
  | opened hp | connectWrite hp | connectSent hp | awaitRead hp | accepted hp | refused hp
  | serverCopy hp | serverDone hp => simp [hp] at he
  | connectorCopy hp hs =>
    exact ⟨⟨whole, he⟩, hs.byReader.finished.trans hf, hs.byWriter.stopped.trans hw⟩
  | _ => exact ⟨⟨whole, he⟩, hf, hw⟩

theorem dropped_of_reachable (h : system.Reachable t) (he : t.server = .ended whole) :
    Dropped t := by
  have hinv : (∃ whole, t.server = .ended whole) → Dropped t := by
    refine h.invariant (P := fun t => (∃ whole, t.server = .ended whole) → Dropped t) ?_ ?_
    · rintro _ ⟨target, rfl⟩ ⟨whole, he⟩
      cases he
    · intro s e t ih hs hend
      by_cases hs' : ∃ whole, s.server = .ended whole
      · exact (ih hs').step hs
      · -- This is the step that drops them.
        obtain ⟨whole, he⟩ := hend
        cases hs with
        | refused hp | serverDone hp | serverFailed hp => exact ⟨⟨_, rfl⟩, rfl, rfl⟩
        | opened | connectWrite | connectSent | awaitRead | accepted | serverCopy => cases he
        | _ => exact absurd ⟨whole, he⟩ hs'
  exact hinv ⟨whole, he⟩

/-- How many steps a copy is from its end when nothing more comes in. -/
def rank : Transfer UInt8 → Nat
  | .running _ false => 3
  | .running _ true => 2
  | .shuttingDown => 1
  | .done => 0

/-- What the connector's task has left to do for itself. -/
def work (t : Tunnel) : Nat :=
  t.fwd.flight.length + match t.connector with
    | .absent => 12
    | .accepting _ => 11
    | .dialling _ _ => 10
    | .replying _ _ => 9
    | .splicing S R => 1 + rank S + rank R
    | .ended _ => 0

theorem length_take_lt {c : Stream UInt8} {p : Bytes} (hne : p ≠ []) (hp : p <+: c.flight) :
    (c.take p.length).flight.length < c.flight.length := by
  have h0 := List.length_pos_iff.mpr hne
  have hle := hp.length_le
  simp only [Stream.take, List.length_drop]
  omega

/-- A copy whose stream nobody reads can only empty the other one. -/
theorem copy_work {S R : Transfer UInt8} {m : Site.Move UInt8} {s : Site UInt8}
    (hw : t.bwd.stopped = true) (hs : Site.Step tunnelReadChunk (t.connectorSite S R) m s)
    (hm : moveEvent m = .connector) :
    s.rx.flight.length + rank s.sending + rank s.receiving <
      t.fwd.flight.length + rank S + rank R := by
  cases hs with
  | sending ht ha =>
    cases ht with
    | write hp => exact absurd (ha.2.symm.trans hw) (by simp)
    | shutdown =>
      change t.fwd.flight.length + 0 + rank R < t.fwd.flight.length + 1 + rank R
      omega
    | flush =>
      change t.fwd.flight.length + 1 + rank R < t.fwd.flight.length + 2 + rank R
      omega
    | _ => cases hm
  | receiving ht ha =>
    cases ht with
    | write hp => cases hm
    | @read buf p hne hc =>
      have := length_take_lt (c := t.fwd) hne ha
      change (t.fwd.take p.length).flight.length + rank S + 3 < t.fwd.flight.length + rank S + 3
      omega
    | eof =>
      change t.fwd.flight.length + rank S + 2 < t.fwd.flight.length + rank S + 3
      omega
    | flush =>
      change t.fwd.flight.length + rank S + 1 < t.fwd.flight.length + rank S + 2
      omega
    | shutdown =>
      change t.fwd.flight.length + rank S + 0 < t.fwd.flight.length + rank S + 1
      omega

theorem work_step (h : Dropped t) (hs : Step t .connector t') : t'.work < t.work := by
  generalize he : Event.connector = e at hs
  cases hs with
  | opened | connectWrite | connectSent | awaitRead | accepted | refused | serverCopy | serverDone
  | serverFailed | connectOk | connectErr | connectorFailed => cases he
  | accept hp ho =>
    simp only [work, hp]
    omega
  | acceptRead hp hne hm hf =>
    have := length_take_lt hne hf
    simp only [work, hp]
    omega
  | connect hp hm hr =>
    simp only [work, hp]
    omega
  | replyWrite hp hne hw => exact absurd (hw.2.symm.trans h.stopped) (by simp)
  | splice hp =>
    simp only [work, hp, idle, rank]
    omega
  | connectorCopy hp hs =>
    have := copy_work h.stopped hs he.symm
    simp only [work, hp]
    omega
  | noConnect hp | replyRefused hp | noSplice hp | copyRefused hp | connectorDone hp =>
    simp only [work, hp, connectorEnds, Stream.stop]
    omega

/-- The connector's task is about to hear from its backend or to be heard by it, and has nothing
else to do. -/
def WaitsForBackend (t : Tunnel) : Prop :=
  (∃ id target, t.connector = .dialling id target) ∨ ∃ S R, t.connector = .splicing S R ∧
    (S = .running [] false ∨ S = .done) ∧ (R.pending ≠ [] ∨ R = .done) ∧ ¬(S = .done ∧ R = .done)

theorem accepting_step {got : Bytes} (h : Dropped t) (hp : t.connector = .accepting got) :
    ∃ t', Step t .connector t' := by
  by_cases hm : missing got = 0
  · by_cases hr : ∃ id target, readFrame got = .ok (.connect id target, [])
    · obtain ⟨id, target, hr⟩ := hr
      exact ⟨_, .connect hp hm hr⟩
    · exact ⟨_, .noConnect hp (.inl hm) fun id target he => hr ⟨id, target, he⟩⟩
  · cases hf : t.fwd.flight with
    | nil =>
      refine ⟨_, .noConnect hp (.inr ⟨hf, h.finished⟩) fun id target he => ?_⟩
      rw [readFrame_of_missing hm] at he
      cases he
    | cons b rest =>
      refine ⟨_, @Step.acceptRead _ _ [b] hp (by simp) ?_ ⟨rest, by rw [hf]; rfl⟩⟩
      rw [List.length_singleton]
      omega

/-- The direction to the backend moves on its own as long as its buffer is empty. -/
theorem receiving_step {S R : Transfer UInt8} (h : Dropped t) (hp : t.connector = .splicing S R)
    (hR : R.pending = []) (hd : R ≠ .done) : ∃ t', Step t .connector t' := by
  cases R with
  | done => exact absurd rfl hd
  | shuttingDown => exact ⟨_, .connectorCopy hp (.receiving .shutdown trivial)⟩
  | running buf readDone =>
    obtain rfl : buf = [] := hR
    cases readDone with
    | true => exact ⟨_, .connectorCopy hp (.receiving .flush trivial)⟩
    | false =>
      cases hf : t.fwd.flight with
      | nil => exact ⟨_, .connectorCopy hp (.receiving .eof ⟨hf, h.finished⟩)⟩
      | cons b rest =>
        have hread : [b] <+: t.fwd.flight := ⟨rest, by rw [hf]; rfl⟩
        exact ⟨_, .connectorCopy hp (.receiving (.read (by simp) (by simp [tunnelReadChunk])) hread)⟩

/-- The direction from the backend ends as soon as it has anything to pass on. -/
theorem sending_step {S R : Transfer UInt8} (h : Dropped t) (hp : t.connector = .splicing S R)
    (hi : S ≠ .running [] false) (hd : S ≠ .done) : ∃ t', Step t .connector t' := by
  cases S with
  | done => exact absurd rfl hd
  | shuttingDown => exact ⟨_, .connectorCopy hp (.sending .shutdown trivial)⟩
  | running buf readDone =>
    by_cases hb : buf = []
    · subst hb
      cases readDone with
      | false => exact absurd rfl hi
      | true => exact ⟨_, .connectorCopy hp (.sending .flush trivial)⟩
    · exact ⟨_, .copyRefused hp hb h.stopped⟩

theorem stuck (h : Dropped t) (hstuck : ∀ t', ¬ Step t .connector t') :
    t.hello = [] ∨ (∃ whole, t.connector = .ended whole) ∨ t.WaitsForBackend := by
  cases hp : t.connector with
  | absent =>
    left
    by_contra hne
    exact hstuck _ (.accept hp hne)
  | accepting got =>
    obtain ⟨t', hs⟩ := accepting_step h hp
    exact absurd hs (hstuck t')
  | dialling id target => exact .inr (.inr (.inl ⟨id, target, hp⟩))
  | replying rest connected =>
    by_cases hr : rest = []
    · subst hr
      cases connected with
      | true => exact absurd (.splice hp) (hstuck _)
      | false => exact absurd (.noSplice hp) (hstuck _)
    · exact absurd (.replyRefused hp hr h.stopped) (hstuck _)
  | splicing S R =>
    refine .inr (.inr (.inr ⟨S, R, hp, ?_, ?_, ?_⟩))
    · by_contra hS
      rw [not_or] at hS
      obtain ⟨t', hs⟩ := sending_step h hp hS.1 hS.2
      exact hstuck t' hs
    · by_contra hR
      rw [not_or, not_not] at hR
      obtain ⟨t', hs⟩ := receiving_step h hp hR.1 hR.2
      exact hstuck t' hs
    · rintro ⟨rfl, rfl⟩
      exact hstuck _ (.connectorDone hp)
  | ended whole => exact .inr (.inl ⟨whole, rfl⟩)

/-- Once the server's task of a tunnel has ended, for whatever reason, the connector's task has
only so many steps to make by itself, and when it can make none it has ended as well or it waits
for its backend to connect, to speak or to listen. -/
theorem connector_lets_go (h : system.Reachable t) (he : t.server = .ended whole) :
    (∀ es t', (system.restrict fun _ e _ => e = .connector).MTr t es t' → es.length ≤ t.work) ∧
    ((∀ t', ¬ Step t .connector t') →
      t.hello = [] ∨ (∃ whole, t.connector = .ended whole) ∨ t.WaitsForBackend) := by
  have hd := dropped_of_reachable h he
  refine ⟨fun es t' hrun => ?_, stuck hd⟩
  clear h he
  induction hrun with
  | refl => exact Nat.zero_le _
  | stepL hs _ ih =>
    obtain ⟨hs, rfl⟩ := hs
    have hlt := work_step hd hs
    have hle := ih (hd.step hs)
    rw [List.length_cons]
    omega

/-- The client is gone, and the backend has not ended yet. -/
theorem connector_lets_go_open : ∃ t, system.Reachable t ∧ t.server = .ended false ∧
    ∀ es t', (system.restrict fun _ e _ => e = .connector).MTr t es t' → es.length ≤ 7 := by
  have hr := reachable_openA.step (.serverFailed (by simp [openA]))
  exact ⟨_, hr, rfl, (connector_lets_go hr rfl).1⟩

end Tunnel

end X2rp.Quic
