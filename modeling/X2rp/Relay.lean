import Mathlib.Data.List.Infix
import Mathlib.Data.List.TakeDrop

/-! One-way streams whose ends come and go, and the loop that copies between a pair of them and
an outside, in both directions at once. -/
namespace Relay

variable {β : Type*}

/-- What the reader has taken, what is on its way, whether the writer has put an end to it and
whether the reader is gone. -/
structure Stream (β : Type*) where
  taken : List β := []
  flight : List β := []
  finished : Bool := false
  stopped : Bool := false
deriving DecidableEq, Repr

namespace Stream

variable {c c' : Stream β} {p : List β} {k : Nat}

def sent (c : Stream β) : List β := c.taken ++ c.flight

/-- The writer may go on. -/
def Writable (c : Stream β) : Prop := c.finished = false ∧ c.stopped = false

def write (c : Stream β) (p : List β) : Stream β := { c with flight := c.flight ++ p }

def take (c : Stream β) (k : Nat) : Stream β :=
  { c with taken := c.taken ++ c.flight.take k, flight := c.flight.drop k }

def finish (c : Stream β) : Stream β := { c with finished := true }

def stop (c : Stream β) : Stream β := { c with stopped := true }

@[simp] theorem sent_write : (c.write p).sent = c.sent ++ p := by simp [sent, write]

@[simp] theorem sent_take : (c.take k).sent = c.sent := by simp [sent, take]

theorem taken_prefix_sent : c.taken <+: c.sent := List.prefix_append ..

/-- What a writer can do to a stream. -/
structure ByWriter (c c' : Stream β) : Prop where
  taken : c'.taken = c.taken
  sent : c.sent <+: c'.sent
  stopped : c'.stopped = c.stopped
  final : c.finished = true → c'.finished = true ∧ c'.flight = c.flight

/-- What a reader can do to a stream. -/
structure ByReader (c c' : Stream β) : Prop where
  sent : c'.sent = c.sent
  taken : c.taken <+: c'.taken
  finished : c'.finished = c.finished

theorem ByWriter.refl : ByWriter c c := ⟨rfl, List.prefix_rfl, rfl, fun h => ⟨h, rfl⟩⟩

theorem byWriter_write (h : c.finished = false) : ByWriter c (c.write p) where
  taken := rfl
  sent := by simp
  stopped := rfl
  final hf := by simp [h] at hf

theorem byWriter_finish : ByWriter c c.finish := ⟨rfl, List.prefix_rfl, rfl, fun _ => ⟨rfl, rfl⟩⟩

theorem ByReader.refl : ByReader c c := ⟨rfl, List.prefix_rfl, rfl⟩

theorem byReader_take : ByReader c (c.take k) := ⟨sent_take, List.prefix_append .., rfl⟩

theorem byReader_stop : ByReader c c.stop := ⟨rfl, List.prefix_rfl, rfl⟩

end Stream

/-- One direction of a copy: it reads ahead into a buffer until its source ends, writes all of
that, and then shuts its sink down. -/
inductive Transfer (β : Type*)
  | running (buf : List β) (readDone : Bool)
  | shuttingDown
  | done
deriving DecidableEq, Repr

namespace Transfer

inductive Act (β : Type*)
  | read (p : List β)
  | eof
  | write (p : List β)
  | flush
  | shutdown

/-- A buffer holds `cap` bytes. -/
inductive Step (cap : Nat) : Transfer β → Act β → Transfer β → Prop
  | read {buf p : List β} (hp : p ≠ []) (hc : buf.length + p.length ≤ cap) :
      Step cap (.running buf false) (.read p) (.running (buf ++ p) false)
  | eof {buf : List β} : Step cap (.running buf false) .eof (.running buf true)
  | write {p rest : List β} {readDone : Bool} (hp : p ≠ []) :
      Step cap (.running (p ++ rest) readDone) (.write p) (.running rest readDone)
  | flush : Step cap (.running [] true) .flush .shuttingDown
  | shutdown : Step cap .shuttingDown .shutdown .done

/-- What has been read and not written. -/
def pending : Transfer β → List β
  | .running buf _ => buf
  | _ => []

/-- The source has ended. -/
def sourceDone : Transfer β → Bool
  | .running _ readDone => readDone
  | _ => true

end Transfer

/-- What a copy has read from its outside and written to it, and the ends it has seen and made
there. -/
structure Outside (β : Type*) where
  read : List β := []
  eof : Bool := false
  got : List β := []
  shut : Bool := false
deriving DecidableEq, Repr

namespace Outside

def source (o : Outside β) : Transfer.Act β → Outside β
  | .read p => { o with read := o.read ++ p }
  | .eof => { o with eof := true }
  | _ => o

def sink (o : Outside β) : Transfer.Act β → Outside β
  | .write p => { o with got := o.got ++ p }
  | .shutdown => { o with shut := true }
  | _ => o

end Outside

namespace Stream

variable {c : Stream β} {a : Transfer.Act β}

/-- The stream has what the act is to take from it. -/
def Yields (c : Stream β) : Transfer.Act β → Prop
  | .read p => p <+: c.flight
  | .eof => c.flight = [] ∧ c.finished = true
  | _ => True

def source (c : Stream β) : Transfer.Act β → Stream β
  | .read p => c.take p.length
  | _ => c

/-- The stream lets the act happen to it. An end is taken also when nobody reads any more. -/
def Accepts (c : Stream β) : Transfer.Act β → Prop
  | .write _ => c.Writable
  | _ => True

def sink (c : Stream β) : Transfer.Act β → Stream β
  | .write p => c.write p
  | .shutdown => c.finish
  | _ => c

theorem byWriter_sink (h : c.Accepts a) : c.ByWriter (c.sink a) := by
  cases a with
  | write p => exact byWriter_write h.1
  | shutdown => exact byWriter_finish
  | _ => exact .refl

theorem byReader_source : c.ByReader (c.source a) := by
  cases a with
  | read p => exact byReader_take
  | _ => exact .refl

end Stream

/-- A copy from the outside into a stream: after `head`, the stream has what was read, and it ends
where the outside has ended. -/
structure Sends (head : List β) (T : Transfer β) (o : Outside β) (c : Stream β) : Prop where
  conserved : c.sent ++ T.pending = head ++ o.read
  eof : T.sourceDone = true → o.eof = true
  finished : c.finished = true → T = .done

/-- A copy from a stream to the outside: after `head`, what was taken has gone there, and the
outside is shut down where the stream has ended. -/
structure Receives (head : List β) (T : Transfer β) (o : Outside β) (c : Stream β) : Prop where
  conserved : c.taken = head ++ o.got ++ T.pending
  eof : T.sourceDone = true → c.flight = [] ∧ c.finished = true
  shut : o.shut = true → T = .done

section Halves

variable {cap : Nat} {head : List β} {T T' : Transfer β} {o : Outside β} {c c' : Stream β}
  {a : Transfer.Act β}

theorem Sends.step (h : Sends head T o c) (ht : Transfer.Step cap T a T') (ha : c.Accepts a) :
    Sends head T' (o.source a) (c.sink a) := by
  have hc := h.conserved
  have hd := h.finished
  cases ht with
  | @read buf p hp hcap =>
    refine ⟨?_, fun he => ?_, fun hf => ?_⟩
    · change c.sent ++ (buf ++ p) = head ++ (o.read ++ p)
      rw [← List.append_assoc, ← List.append_assoc, ← hc]
      rfl
    · cases he
    · cases hd hf
  | eof => exact ⟨hc, fun _ => rfl, fun hf => by cases hd hf⟩
  | @write p rest readDone hp =>
    refine ⟨?_, h.eof, fun hf => by cases hd hf⟩
    change (c.write p).sent ++ rest = head ++ o.read
    rw [Stream.sent_write, List.append_assoc]
    exact hc
  | flush => exact ⟨hc, fun _ => h.eof rfl, fun hf => by cases hd hf⟩
  | shutdown => exact ⟨hc, fun _ => h.eof rfl, fun _ => rfl⟩

theorem Receives.step (h : Receives head T o c) (ht : Transfer.Step cap T a T')
    (ha : c.Yields a) : Receives head T' (o.sink a) (c.source a) := by
  have hc := h.conserved
  have hd := h.shut
  cases ht with
  | @read buf p hp hcap =>
    refine ⟨?_, fun he => ?_, fun hf => ?_⟩
    · change c.taken ++ c.flight.take p.length = head ++ o.got ++ (buf ++ p)
      rw [← List.prefix_iff_eq_take.mp ha, hc, List.append_assoc, List.append_assoc]
      simp [Transfer.pending]
    · cases he
    · cases hd hf
  | eof => exact ⟨hc, fun _ => ha, fun hf => by cases hd hf⟩
  | @write p rest readDone hp =>
    refine ⟨?_, h.eof, fun hf => by cases hd hf⟩
    change c.taken = head ++ (o.got ++ p) ++ rest
    rw [hc]
    simp [Transfer.pending]
  | flush => exact ⟨hc, fun _ => h.eof rfl, fun hf => by cases hd hf⟩
  | shutdown => exact ⟨hc, fun _ => h.eof rfl, fun _ => rfl⟩

theorem Sends.byReader (h : Sends head T o c) (hc : c.ByReader c') : Sends head T o c' where
  conserved := by rw [hc.sent, h.conserved]
  eof := h.eof
  finished hf := h.finished (hc.finished ▸ hf)

theorem Receives.byWriter (h : Receives head T o c) (hc : c.ByWriter c') :
    Receives head T o c' where
  conserved := by rw [hc.taken, h.conserved]
  eof hd := by
    obtain ⟨he, hf⟩ := h.eof hd
    obtain ⟨hf', he'⟩ := hc.final hf
    exact ⟨he'.trans he, hf'⟩
  shut := h.shut

end Halves

/-- A copy from the outside into one stream and from another stream to the outside. -/
structure Site (β : Type*) where
  sending : Transfer β := .running [] false
  receiving : Transfer β := .running [] false
  outside : Outside β := {}
  tx : Stream β := {}
  rx : Stream β := {}

namespace Site

/-- A move of one of the two directions. -/
inductive Move (β : Type*)
  | sending (a : Transfer.Act β)
  | receiving (a : Transfer.Act β)

inductive Step (cap : Nat) : Site β → Move β → Site β → Prop
  | sending {s : Site β} {a : Transfer.Act β} {T : Transfer β}
      (ht : Transfer.Step cap s.sending a T) (ha : s.tx.Accepts a) :
      Step cap s (.sending a)
        { s with sending := T, outside := s.outside.source a, tx := s.tx.sink a }
  | receiving {s : Site β} {a : Transfer.Act β} {T : Transfer β}
      (ht : Transfer.Step cap s.receiving a T) (ha : s.rx.Yields a) :
      Step cap s (.receiving a)
        { s with receiving := T, outside := s.outside.sink a, rx := s.rx.source a }

variable {cap : Nat} {s s' : Site β} {e : Move β} {txHead rxHead : List β} {tx rx : Stream β}

theorem Step.byWriter (h : Step cap s e s') : s.tx.ByWriter s'.tx := by
  cases h with
  | sending _ ha => exact Stream.byWriter_sink ha
  | receiving _ _ => exact .refl

theorem Step.byReader (h : Step cap s e s') : s.rx.ByReader s'.rx := by
  cases h with
  | sending _ _ => exact .refl
  | receiving _ _ => exact Stream.byReader_source

/-- Both directions at once. -/
structure Carries (txHead rxHead : List β) (s : Site β) : Prop where
  sends : Sends txHead s.sending s.outside s.tx
  receives : Receives rxHead s.receiving s.outside s.rx

theorem Carries.step (h : s.Carries txHead rxHead) (hs : Step cap s e s') :
    s'.Carries txHead rxHead := by
  -- A direction does not see what the other one does to the outside.
  cases hs with
  | @sending a T ht ha =>
    refine ⟨h.sends.step ht ha, ?_⟩
    cases a <;> exact ⟨h.receives.conserved, h.receives.eof, h.receives.shut⟩
  | @receiving a T ht ha =>
    refine ⟨?_, h.receives.step ht ha⟩
    cases a <;> exact ⟨h.sends.conserved, h.sends.eof, h.sends.finished⟩

/-- The other ends of the streams may move as well. -/
theorem Carries.peer (h : s.Carries txHead rxHead) (ht : s.tx.ByReader tx)
    (hr : s.rx.ByWriter rx) : Carries txHead rxHead { s with tx, rx } :=
  ⟨h.sends.byReader ht, h.receives.byWriter hr⟩

/-- A copy that begins right after the heads. -/
theorem Carries.start (ht : s.tx.sent = txHead) (hr : s.rx.taken = rxHead)
    (hf : s.tx.finished = false) (hs : s.sending = .running [] false)
    (hv : s.receiving = .running [] false) (ho : s.outside = {}) : s.Carries txHead rxHead where
  sends := by
    rw [hs, ho]
    exact ⟨by simp [Transfer.pending, ht], by simp [Transfer.sourceDone], by simp [hf]⟩
  receives := by
    rw [hv, ho]
    exact ⟨by simp [Transfer.pending, hr], by simp [Transfer.sourceDone], by simp⟩

end Site

/-- How far a party to a tunnel has come: it has to send the rest of its head, it copies, or it is
gone. `whole` is whether all of its outside had been sent by then, with its end. -/
inductive Stage (β : Type*)
  | early (rest : List β)
  | copying (sending receiving : Transfer β)
  | ended (whole : Bool)

/-- The outside has only got what follows a good head on the stream. -/
def Got (Good : List β → Prop) (o : Outside β) (c : Stream β) : Prop :=
  (o.got = [] ∧ o.shut = false) ∨ ∃ head, Good head ∧ head ++ o.got <+: c.taken ∧
    (o.shut = true → c.taken = head ++ o.got ∧ c.flight = [] ∧ c.finished = true)

/-- What a party keeps to: it sends `txHead` and then its outside, and it copies nothing out
before a good head has come in. -/
def Stage.Keeps (Good : List β → Prop) (txHead : List β) (o : Outside β) (tx rx : Stream β) :
    Stage β → Prop
  | .early rest => tx.sent ++ rest = txHead ∧ tx.finished = false ∧ o = {}
  | .copying sending receiving => ∃ rxHead, Good rxHead ∧
      Site.Carries txHead rxHead ⟨sending, receiving, o, tx, rx⟩
  | .ended whole => tx.sent <+: txHead ++ o.read ∧
      (whole = true → tx.sent = txHead ++ o.read ∧ o.eof = true) ∧ Got Good o rx

section Party

variable {Good : List β → Prop} {txHead rxHead rest read : List β} {o : Outside β}
  {tx tx' rx rx' : Stream β} {σ : Stage β} {S R : Transfer β}

theorem Got.byWriter (h : Got Good o rx) (hr : rx.ByWriter rx') : Got Good o rx' := by
  rcases h with h | ⟨head, hg, hp, hs⟩
  · exact .inl h
  · refine .inr ⟨head, hg, hr.taken ▸ hp, fun hshut => ?_⟩
    obtain ⟨ht, he, hf⟩ := hs hshut
    obtain ⟨hf', he'⟩ := hr.final hf
    exact ⟨hr.taken.trans ht, he'.trans he, hf'⟩

theorem Got.stop (h : Got Good o rx) : Got Good o rx.stop := h

/-- The far ends of its streams do not disturb a party. -/
theorem Stage.Keeps.peer (h : σ.Keeps Good txHead o tx rx) (ht : tx.ByReader tx')
    (hr : rx.ByWriter rx') : σ.Keeps Good txHead o tx' rx' := by
  cases σ with
  | early rest => exact ⟨ht.sent ▸ h.1, ht.finished.trans h.2.1, h.2.2⟩
  | copying S R =>
    obtain ⟨head, hg, hc⟩ := h
    exact ⟨head, hg, hc.peer ht hr⟩
  | ended whole => exact ⟨ht.sent ▸ h.1, fun hw => ht.sent ▸ h.2.1 hw, h.2.2.byWriter hr⟩

theorem Site.Carries.got {s : Site β} (h : s.Carries txHead rxHead) (hg : Good rxHead) :
    Got Good s.outside s.rx := by
  have hc := h.receives.conserved
  refine .inr ⟨rxHead, hg, ⟨_, hc.symm⟩, fun hshut => ?_⟩
  have hd := h.receives.shut hshut
  obtain ⟨he, hf⟩ := h.receives.eof (by rw [hd]; rfl)
  rw [hd] at hc
  exact ⟨by simpa [Transfer.pending] using hc, he, hf⟩

theorem Site.Carries.sent_prefix {s : Site β} (h : s.Carries txHead rxHead) :
    s.tx.sent <+: txHead ++ s.outside.read := ⟨_, h.sends.conserved⟩

theorem Site.Carries.whole {s : Site β} (h : s.Carries txHead rxHead) (hd : s.sending = .done) :
    s.tx.sent = txHead ++ s.outside.read ∧ s.outside.eof = true := by
  have hc := h.sends.conserved
  have he := h.sends.eof
  rw [hd] at hc he
  exact ⟨by simpa [Transfer.pending] using hc, he rfl⟩

theorem Stage.Keeps.sent (h : σ.Keeps Good txHead o tx rx) : tx.sent <+: txHead ++ o.read := by
  cases σ with
  | early rest =>
    obtain ⟨hs, -, rfl⟩ := h
    exact ⟨rest, by simpa using hs⟩
  | copying S R =>
    obtain ⟨head, -, hc⟩ := h
    exact hc.sent_prefix
  | ended whole => exact h.1

theorem Stage.Keeps.got (h : σ.Keeps Good txHead o tx rx) : Got Good o rx := by
  cases σ with
  | early rest =>
    obtain ⟨-, -, rfl⟩ := h
    exact .inl ⟨rfl, rfl⟩
  | copying S R =>
    obtain ⟨head, hg, hc⟩ := h
    exact hc.got hg
  | ended whole => exact h.2.2

/-- An end of the stream that was not made by going away comes after all of the outside. -/
theorem Stage.Keeps.finished (h : σ.Keeps Good txHead o tx rx) (hf : tx.finished = true) :
    σ = .ended false ∨ tx.sent = txHead ++ o.read ∧ o.eof = true := by
  cases σ with
  | early rest => exact absurd (h.2.1.symm.trans hf) (by simp)
  | copying S R =>
    obtain ⟨head, -, hc⟩ := h
    exact .inr (hc.whole (hc.sends.finished hf))
  | ended whole =>
    cases whole with
    | false => exact .inl rfl
    | true => exact .inr (h.2.1 rfl)

/-- A party that goes away drops both of its streams. -/
theorem Stage.Keeps.leave_early (h : (Stage.early rest).Keeps Good txHead o tx rx) :
    (Stage.ended false).Keeps Good txHead o tx.finish rx.stop :=
  ⟨h.sent, by simp, h.got⟩

theorem Stage.Keeps.leave_copying [DecidableEq β]
    (h : (Stage.copying S R).Keeps Good txHead o tx rx) :
    (Stage.ended (decide (S = .done))).Keeps Good txHead o tx.finish rx.stop := by
  refine ⟨h.sent, fun hw => ?_, h.got⟩
  obtain ⟨head, -, hc⟩ := h
  exact hc.whole (of_decide_eq_true hw)

theorem Stage.Keeps.copy {cap : Nat} {e : Site.Move β} {s' : Site β}
    (h : (Stage.copying S R).Keeps Good txHead o tx rx)
    (hs : Site.Step cap ⟨S, R, o, tx, rx⟩ e s') :
    (Stage.copying s'.sending s'.receiving).Keeps Good txHead s'.outside s'.tx s'.rx := by
  obtain ⟨head, hg, hc⟩ := h
  exact ⟨head, hg, hc.step hs⟩

theorem Stage.Keeps.start (h : (Stage.early []).Keeps Good txHead o tx rx) (hg : Good rx.taken) :
    (Stage.copying (.running [] false) (.running [] false)).Keeps Good txHead o tx rx := by
  obtain ⟨hs, hf, rfl⟩ := h
  exact ⟨rx.taken, hg, .start (by simpa using hs) rfl hf rfl rfl rfl⟩

/-- The head is told apart from what follows it: nothing else in front of that is good. -/
def Delimits (Good : List β → Prop) (head read : List β) : Prop :=
  ∀ h, Good h → h <+: head ++ read → h = head

/-- What comes out at one side went in at the other, in order and from the beginning. -/
theorem Got.inOrder (h : Got Good o rx) (hd : Delimits Good txHead read)
    (hs : rx.sent <+: txHead ++ read) : o.got <+: read := by
  rcases h with ⟨hg, -⟩ | ⟨head, hg, hp, -⟩
  · rw [hg]
    exact List.nil_prefix
  · have hall : head ++ o.got <+: txHead ++ read := (hp.trans Stream.taken_prefix_sent).trans hs
    obtain rfl := hd head hg ((List.prefix_append ..).trans hall)
    exact (List.prefix_append_right_inj _).mp hall

/-- An outside that was shut down has all of it. -/
theorem Got.all (h : Got Good o rx) (hshut : o.shut = true) (hd : Delimits Good txHead read)
    (hs : rx.sent = txHead ++ read) : o.got = read := by
  rcases h with ⟨-, hn⟩ | ⟨head, hg, -, hall⟩
  · exact absurd (hn.symm.trans hshut) (by simp)
  · obtain ⟨ht, he, -⟩ := hall hshut
    rw [Stream.sent, he, List.append_nil, ht] at hs
    obtain rfl := hd head hg ⟨_, hs⟩
    exact List.append_cancel_left hs

theorem Got.finished (h : Got Good o rx) (hshut : o.shut = true) : rx.finished = true := by
  rcases h with ⟨-, hn⟩ | ⟨head, -, -, hall⟩
  · exact absurd (hn.symm.trans hshut) (by simp)
  · exact (hall hshut).2.2

end Party

end Relay
