import X2rp.Tls.Certs

/-! The certificate in service: a start of the server, its daily renewal task, and what both
listeners hand out meanwhile. -/
namespace X2rp.Tls

open Admin Files

/-- Times are in seconds. -/
def day : Int := 86400

/-- `served` is the certificate file that `CertStore` was last filled from, for as long as the
process is up. The task's check, or the start's, began at `began`, and the next is due at `nextTick`.
`misses` counts the checks that have failed since the last that did not. -/
structure Node (β : Type) where
  vault : Vault β
  served : Option (List β) := none
  began : Int := 0
  nextTick : Int := 0
  misses : Nat := 0

namespace Node

variable {β : Type} {P : Pki β}

inductive Event
  | internal
  | exit
deriving DecidableEq

/-- A process with a certificate in service runs `ensure_certs` once a day, one without is about to
start. Nothing bounds how long a check takes. The process may end anywhere; it does if a start fails
or if a renewed certificate does not load. -/
inductive Step (P : Pki β) : Node β → Event → Node β → Prop
  | wait {s : Node β} {now : Int} (hn : s.vault.now ≤ now) :
      Step P s .internal { s with vault := { s.vault with now } }
  | start {s : Node β} {e : Vault.Event} {v : Vault β} (hd : s.served = none)
      (hi : s.vault.phase = .idle) (hs : Vault.Step P s.vault e v) (hv : v.phase ≠ .idle) :
      Step P s .internal { s with vault := v, began := s.vault.now }
  | check {s : Node β} {e : Vault.Event} {v : Vault β} (hu : s.served ≠ none)
      (ht : s.nextTick ≤ s.vault.now) (hi : s.vault.phase = .idle)
      (hs : Vault.Step P s.vault e v) (hv : v.phase ≠ .idle) :
      Step P s .internal
        { s with vault := v, began := s.vault.now, nextTick := s.nextTick + day }
  | work {s : Node β} {e : Vault.Event} {v : Vault β} (hi : s.vault.phase ≠ .idle)
      (hs : Vault.Step P s.vault e v) (hv : v.phase ≠ .idle) (hn : v.now = s.vault.now) :
      Step P s .internal { s with vault := v }
  | boot {s : Node β} {renewed : Bool} {pair : P.Chain × P.Key} {pem : List β} (hd : s.served = none)
      (hp : s.vault.phase = .returned (.ok renewed)) (hl : loadCertifiedKey P s.vault.disk = .ok pair)
      (hc : s.vault.disk certFile = some pem) :
      Step P s .internal
        { s with
          vault := { s.vault with phase := .idle }
          served := some pem
          nextTick := s.vault.now + day
          misses := 0 }
  | reload {s : Node β} {pair : P.Chain × P.Key} {pem : List β} (hu : s.served ≠ none)
      (hp : s.vault.phase = .returned (.ok true)) (hl : loadCertifiedKey P s.vault.disk = .ok pair)
      (hc : s.vault.disk certFile = some pem) :
      Step P s .internal
        { s with vault := { s.vault with phase := .idle }, served := some pem, misses := 0 }
  | content {s : Node β} (hu : s.served ≠ none) (hp : s.vault.phase = .returned (.ok false)) :
      Step P s .internal { s with vault := { s.vault with phase := .idle }, misses := 0 }
  | failed {s : Node β} (hu : s.served ≠ none) (hp : s.vault.phase = .returned (.error ())) :
      Step P s .internal { s with vault := { s.vault with phase := .idle }, misses := s.misses + 1 }
  | exit {s : Node β} {e : Vault.Event} {v : Vault β} (hs : Vault.Step P s.vault e v)
      (hv : v.phase = .idle) (hn : v.now = s.vault.now) :
      Step P s .exit { s with vault := v, served := none }

/-- Any disk to start with. -/
def system (P : Pki β) : LTS (Node β) Event where
  Init s := s.served = none ∧ s.vault.phase = .idle
  Tr := Step P

/-- What the authority, the disk and the clock are held to: a certificate is good for thirty days when
it is issued, a save of one that fails has not replaced the file, a check takes no longer than a day,
and the task wakes up on time. -/
structure Sane (P : Pki β) (s : Node β) (_ : Event) (t : Node β) : Prop where
  valid : s.vault.phase = .ordering → ∀ key cert, t.vault.phase = .issued key cert →
    ∃ n, P.notAfter cert = some n ∧ s.vault.now + 30 * day ≤ n
  whole : ∀ cert, s.vault.phase = .keySaved cert → t.vault.phase = .returned (.error ()) →
    t.vault.disk certFile = s.vault.disk certFile
  prompt : t.vault.phase ≠ .idle → t.vault.now ≤ t.began + day
  punctual : t.served ≠ none → t.vault.now ≤ t.nextTick

variable {s t : Node β} {e : Event} {pem : List β}

/-- A certificate file that is good for thirty days from the time `began`. -/
def GoodFrom (P : Pki β) (began : Int) (pem : List β) : Prop :=
  ∃ n, P.notAfter pem = some n ∧ began + 30 * day ≤ n

/-- What a check has in its hands. -/
def Pending (P : Pki β) (began : Int) (disk : Disk String β) : Phase β → Prop
  | .idle | .ordering | .returned (.error _) => True
  | .issued _ cert | .keySaved cert => GoodFrom P began cert
  | .returned (.ok _) => ∀ pem, disk certFile = some pem → GoodFrom P began pem

/-- What is known of the certificate in service: when it ends, next to the checks to come. -/
structure InService (P : Pki β) (s : Node β) (pem : List β) : Prop where
  expiry : ∃ n, P.notAfter pem = some n ∧ s.nextTick + 27 * day ≤ n + s.misses * day ∧
    (s.vault.phase = .idle → s.nextTick + 28 * day ≤ n + s.misses * day)
  ticks : s.vault.now ≤ s.nextTick
  began : s.vault.phase ≠ .idle → s.nextTick ≤ s.began + day
  disk : s.vault.phase ≠ .returned (.ok true) → s.vault.disk certFile = some pem

structure Timely (P : Pki β) (s : Node β) : Prop where
  began : s.vault.phase ≠ .idle → s.began ≤ s.vault.now ∧ s.vault.now ≤ s.began + day
  pending : Pending P s.began s.vault.disk s.vault.phase
  served : ∀ pem, s.served = some pem → InService P s pem

/-- How a check begins: it is content with what is there, or it goes for a new certificate. -/
theorem begins {v v' : Vault β} {e : Vault.Event} (hs : Vault.Step P v e v') (hi : v.phase = .idle)
    (hv : v'.phase ≠ .idle) : v'.now = v.now ∧ v'.disk = v.disk ∧
      (v'.phase = .ordering ∨ v'.phase = .returned (.ok false) ∧ upToDate P v.now v.disk = true) := by
  cases hs with
  | tick => exact absurd hi hv
  | skip hp hu => exact ⟨rfl, rfl, .inr ⟨rfl, hu⟩⟩
  | obtain | misread => exact ⟨rfl, rfl, .inl rfl⟩
  | crash => exact absurd rfl hv
  | crashInKey => exact absurd rfl hv
  | crashInCert => exact absurd rfl hv
  | _ hp => cases hi.symm.trans hp

theorem goodFrom_of_upToDate {now : Int} {d : Disk String β} (h : upToDate P now d = true)
    (hc : d certFile = some pem) : GoodFrom P now pem := by
  have hdue := (not_due_of_upToDate h).1
  simp only [Due, not_forall, not_lt] at hdue
  obtain ⟨days, hdays, hle⟩ := hdue
  obtain ⟨pem', n, hc', hn, rfl⟩ := daysUntilExpiry_eq_some.mp hdays
  obtain rfl := Option.some_inj.mp (hc.symm.trans hc')
  refine ⟨n, hn, ?_⟩
  have := mt tdiv_lt_threshold.mpr (not_lt.mpr hle)
  unfold day
  omega

theorem upToDate_of_goodFrom {now : Int} {d : Disk String β} (hc : d certFile = some pem)
    (hk : d keyFile ≠ none) (h : GoodFrom P now pem) : upToDate P now d = true := by
  obtain ⟨n, hn, hle⟩ := h
  have hdays : daysUntilExpiry P now d = some ((n - now).tdiv 86400) :=
    daysUntilExpiry_eq_some.mpr ⟨pem, n, hc, hn, rfl⟩
  have hthreshold : renewalThresholdDays ≤ (n - now).tdiv 86400 := by
    refine not_lt.mp (mt tdiv_lt_threshold.mp ?_)
    unfold day at hle
    omega
  simp [upToDate, hdays, hthreshold, Option.isSome_iff_ne_none, hk]

theorem pending_begin {v v' : Vault β} {e : Vault.Event} (hs : Vault.Step P v e v')
    (hi : v.phase = .idle) (hv : v'.phase ≠ .idle) : Pending P v.now v'.disk v'.phase := by
  obtain ⟨-, hdisk, hp | ⟨hp, hu⟩⟩ := begins hs hi hv
  · rw [hp]
    trivial
  · rw [hp, hdisk]
    exact fun pem hc => goodFrom_of_upToDate hu hc

/-- How a check goes on. The certificate file changes at the last save alone. -/
theorem works {v v' : Vault β} {e : Vault.Event} (hs : Vault.Step P v e v') (hi : v.phase ≠ .idle)
    (hv : v'.phase ≠ .idle) : v'.phase = v.phase ∧ v'.disk = v.disk ∨
      v.phase = .ordering ∧ v'.disk certFile = v.disk certFile ∧
        (v'.phase = .returned (.error ()) ∨ ∃ key cert, v'.phase = .issued key cert) ∨
      (∃ key cert, v.phase = .issued key cert ∧ v'.disk certFile = v.disk certFile ∧
        (v'.phase = .keySaved cert ∨ v'.phase = .returned (.error ()))) ∨
      ∃ cert, v.phase = .keySaved cert ∧
        (v'.disk certFile = some cert ∧ v'.phase = .returned (.ok true) ∨
          v'.phase = .returned (.error ())) := by
  cases hs with
  | tick => exact .inl ⟨rfl, rfl⟩
  | skip hp | obtain hp | misread hp => exact absurd hp hi
  | orderFailed hp => exact .inr (.inl ⟨hp, rfl, .inl rfl⟩)
  | @issue key cert hp hk => exact .inr (.inl ⟨hp, rfl, .inr ⟨key, cert, rfl⟩⟩)
  | @saveKey key cert w hp =>
    obtain ⟨-, hcert, hkey⟩ :=
      Vault.save_cases w key (.keySaved cert) v (by decide) (certFile_ne_tmpPath w)
    refine .inr (.inr (.inl ⟨key, cert, hp, hcert, ?_⟩))
    rcases hkey with ⟨-, hph⟩ | ⟨-, hph⟩
    · exact hph
    · exact .inr hph
  | @saveCert cert w hp =>
    obtain ⟨-, -, hcert⟩ :=
      Vault.save_cases w cert (.returned (.ok true)) v (by decide) (keyFile_ne_tmpPath w)
    refine .inr (.inr (.inr ⟨cert, hp, ?_⟩))
    rcases hcert with ⟨hc, hph | hph⟩ | ⟨-, hph⟩
    · exact .inl ⟨hc, hph⟩
    · exact .inr hph
    · exact .inr hph
  | crash => exact absurd rfl hv
  | crashInKey => exact absurd rfl hv
  | crashInCert => exact absurd rfl hv

theorem pending_work {v : Vault β} {e' : Vault.Event} (h : Timely P s)
    (hs : Vault.Step P s.vault e' v) (hi : s.vault.phase ≠ .idle) (hv : v.phase ≠ .idle)
    (hsane : Sane P s e { s with vault := v }) :
    Pending P s.began v.disk v.phase ∧ (v.phase ≠ .returned (.ok true) →
      s.vault.phase ≠ .returned (.ok true) ∧ v.disk certFile = s.vault.disk certFile) := by
  have hpend := h.pending
  rcases works hs hi hv with ⟨hp, hd⟩ | ⟨hp, hd, hp'⟩ | ⟨key, cert, hp, hd, hp'⟩ | ⟨cert, hp, hp'⟩
  · rw [hp, hd]
    exact ⟨hpend, fun hne => ⟨hne, rfl⟩⟩
  · refine ⟨?_, fun _ => ⟨by simp [hp], hd⟩⟩
    rcases hp' with hp' | ⟨key, cert, hp'⟩
    · rw [hp']
      trivial
    · rw [hp']
      obtain ⟨n, hn, hle⟩ := hsane.valid hp key cert hp'
      have := (h.began hi).1
      exact ⟨n, hn, by omega⟩
  · rw [hp] at hpend
    refine ⟨?_, fun _ => ⟨by simp [hp], hd⟩⟩
    rcases hp' with hp' | hp' <;> rw [hp']
    · exact hpend
    · trivial
  · rw [hp] at hpend
    rcases hp' with ⟨hd, hp'⟩ | hp'
    · rw [hp']
      refine ⟨fun pem hc => ?_, fun hne => absurd rfl hne⟩
      obtain rfl := Option.some_inj.mp (hd.symm.trans hc)
      exact hpend
    · rw [hp']
      exact ⟨trivial, fun _ => ⟨by simp [hp], hsane.whole cert hp hp'⟩⟩

theorem Timely.goodFrom {renewed : Bool} (h : Timely P s)
    (hp : s.vault.phase = .returned (.ok renewed)) (hc : s.vault.disk certFile = some pem) :
    GoodFrom P s.began pem := by
  have hpend := h.pending
  rw [hp] at hpend
  exact hpend pem hc

/-- A check that found what is in service, or a reload, starts the count over. -/
theorem inService_of_goodFrom {s : Node β} {misses : Nat} (hg : GoodFrom P s.began pem)
    (hticks : s.vault.now ≤ s.nextTick) (hb : s.nextTick ≤ s.began + 2 * day)
    (hc : s.vault.disk certFile = some pem) :
    InService P { s with vault := { s.vault with phase := .idle }, served := some pem, misses } pem := by
  obtain ⟨n, hn, hle⟩ := hg
  have hnext : s.nextTick + 28 * day ≤ n + misses * day := by
    unfold day at *
    omega
  refine ⟨⟨n, hn, ?_, fun _ => hnext⟩, hticks, fun h => absurd rfl h, fun _ => hc⟩
  dsimp only
  unfold day at *
  omega

theorem Timely.step (h : Timely P s) (hs : Step P s e t) (hsane : Sane P s e t) : Timely P t := by
  cases hs with
  | wait hn =>
    refine ⟨fun hi => ?_, h.pending, fun pem hp => ?_⟩
    · exact ⟨(h.began hi).1.trans hn, hsane.prompt hi⟩
    · have hin := h.served pem hp
      have hup := hsane.punctual (Option.ne_none_iff_exists'.mpr ⟨pem, hp⟩)
      exact ⟨hin.expiry, hup, hin.began, hin.disk⟩
  | start hd hi hs hv =>
    obtain ⟨hnow, -⟩ := begins hs hi hv
    refine ⟨fun _ => ?_, pending_begin hs hi hv, by simp [hd]⟩
    dsimp only
    unfold day
    omega
  | @check e' v hu ht hi hs hv =>
    obtain ⟨hnow, hdisk, hp⟩ := begins hs hi hv
    refine ⟨fun _ => ?_, pending_begin hs hi hv, fun pem hp' => ?_⟩
    · dsimp only
      unfold day
      omega
    · have hin := h.served pem hp'
      obtain ⟨n, hn, -, hidle⟩ := hin.expiry
      have hidle := hidle hi
      have hticks := hin.ticks
      have hphase : s.vault.phase ≠ .returned (.ok true) := by simp [hi]
      refine ⟨⟨n, hn, ?_, fun h => absurd h hv⟩, ?_, fun _ => ?_, fun _ => ?_⟩
      · dsimp only
        unfold day at *
        omega
      · dsimp only
        unfold day
        omega
      · dsimp only
        omega
      · dsimp only
        rw [hdisk]
        exact hin.disk hphase
  | @work e' v hi hs hv hn =>
    obtain ⟨hpend, hdisk⟩ := pending_work h hs hi hv hsane
    refine ⟨fun _ => hn ▸ h.began hi, hpend, fun pem hp => ?_⟩
    have hin := h.served pem hp
    obtain ⟨n, hn', hexp, -⟩ := hin.expiry
    refine ⟨⟨n, hn', hexp, fun h => absurd h hv⟩, hn ▸ hin.ticks, fun _ => hin.began hi, fun hne => ?_⟩
    obtain ⟨hne', hd⟩ := hdisk hne
    exact hd.trans (hin.disk hne')
  | @boot renewed pair pem hd hp hl hc =>
    have hi : s.vault.phase ≠ .idle := by simp [hp]
    obtain ⟨h1, h2⟩ := h.began hi
    have hgood := h.goodFrom hp hc
    refine ⟨fun h => absurd rfl h, trivial, ?_⟩
    rintro pem' ⟨⟩
    refine inService_of_goodFrom (s := { s with nextTick := s.vault.now + day }) hgood ?_ ?_ hc
    · dsimp only
      unfold day
      omega
    · dsimp only
      unfold day at *
      omega
  | @reload pair pem hu hp hl hc =>
    have hi : s.vault.phase ≠ .idle := by simp [hp]
    have hgood := h.goodFrom hp hc
    obtain ⟨old, hold⟩ := Option.ne_none_iff_exists'.mp hu
    have hin := h.served old hold
    have hb := hin.began hi
    refine ⟨fun h => absurd rfl h, trivial, ?_⟩
    rintro pem' ⟨⟩
    refine inService_of_goodFrom hgood hin.ticks ?_ hc
    unfold day at *
    omega
  | content hu hp =>
    have hi : s.vault.phase ≠ .idle := by simp [hp]
    refine ⟨fun h => absurd rfl h, trivial, fun pem hpem => ?_⟩
    have hin := h.served pem hpem
    have hc := hin.disk (by simp [hp])
    have hgood := h.goodFrom hp hc
    have hb := hin.began hi
    have hserved : s.served = some pem := hpem
    rw [hserved]
    refine inService_of_goodFrom hgood hin.ticks ?_ hc
    unfold day at *
    omega
  | failed hu hp =>
    refine ⟨fun h => absurd rfl h, trivial, fun pem hpem => ?_⟩
    have hin := h.served pem hpem
    obtain ⟨n, hn, hexp, -⟩ := hin.expiry
    have hnext : s.nextTick + 28 * day ≤ n + (s.misses + 1 : Nat) * day := by
      unfold day at *
      omega
    refine ⟨⟨n, hn, ?_, fun _ => hnext⟩, hin.ticks, fun h => absurd rfl h, fun _ => ?_⟩
    · dsimp only
      unfold day at *
      omega
    · exact hin.disk (by simp [hp])
  | exit hs hv hn => exact ⟨fun h => absurd hv h, by rw [hv]; trivial, by simp⟩

/-- While the server is up, the certificate that its listeners hand out has days to go: one less
than 28 for each daily check in a row that has failed, and one less during a check. So it has not
expired unless 27 have, provided that no save of a certificate fails after it has replaced the file,
that no check takes longer than a day and that the task is not held up. -/
theorem served_certificate_lives (P : Pki β) (h : ((system P).restrict (Sane P)).Reachable s)
    (hs : s.served = some pem) :
    ∃ n, P.notAfter pem = some n ∧ s.vault.now + (27 - s.misses) * day ≤ n := by
  have ht : Timely P s := by
    refine h.invariant (fun s hi => ?_) fun _ _ _ hi hs => hi.step hs.1 hs.2
    obtain ⟨hd, hp⟩ := hi
    exact ⟨fun h => absurd hp h, by rw [hp]; trivial, by simp [hd]⟩
  have hin := ht.served pem hs
  obtain ⟨n, hn, hexp, -⟩ := hin.expiry
  have hticks := hin.ticks
  refine ⟨n, hn, ?_⟩
  unfold day at *
  omega

/-- The process stays up, what is on disk is not due yet, and a check that goes for a new certificate
has read what is there. -/
structure Ahead (P : Pki β) (n : Int) (s : Node β) (_ : Event) (t : Node β) : Prop where
  up : t.served ≠ none
  good : t.vault.now + 30 * day ≤ n
  readable : s.vault.phase = .idle → t.vault.phase = .ordering →
    upToDate P s.vault.now s.vault.disk = false

/-- Nothing happens but checks that are content. -/
structure Unnoticed (pem pem' : List β) (s : Node β) : Prop where
  served : s.served = some pem
  cert : s.vault.disk certFile = some pem'
  key : s.vault.disk keyFile ≠ none
  phase : s.vault.phase = .idle ∨ s.vault.phase = .returned (.ok false)

theorem Unnoticed.step {pem' : List β} {n : Int} (h : Unnoticed pem pem' s)
    (hn : P.notAfter pem' = some n) (hs : Step P s e t) (ha : Ahead P n s e t) :
    Unnoticed pem pem' t := by
  have hup : s.served ≠ none := Option.ne_none_iff_exists'.mpr ⟨pem, h.served⟩
  cases hs with
  | wait => exact ⟨h.served, h.cert, h.key, h.phase⟩
  | start hd => exact absurd hd hup
  | @check e' v hu ht hi hs hv =>
    obtain ⟨hnow, hdisk, hp | ⟨hp, -⟩⟩ := begins hs hi hv
    · -- It cannot go for a new one: what is on disk is good for thirty days.
      have hle : s.vault.now + 30 * day ≤ n := by
        have := ha.good
        dsimp only at this
        rwa [hnow] at this
      have hgood : upToDate P s.vault.now s.vault.disk = true :=
        upToDate_of_goodFrom h.cert h.key ⟨n, hn, hle⟩
      cases hgood.symm.trans (ha.readable hi hp)
    · exact ⟨h.served, hdisk ▸ h.cert, hdisk ▸ h.key, .inr hp⟩
  | work hi hs hv hn' =>
    have hp := h.phase.resolve_left hi
    rcases works hs hi hv with ⟨hp', hd⟩ | ⟨hp', -⟩ | ⟨_, _, hp', -⟩ | ⟨_, hp', -⟩
    · exact ⟨h.served, hd ▸ h.cert, hd ▸ h.key, .inr (hp'.trans hp)⟩
    all_goals cases hp.symm.trans hp'
  | boot hd => exact absurd hd hup
  | reload hu hp => rcases h.phase with hp' | hp' <;> cases hp.symm.trans hp'
  | content hu hp => exact ⟨h.served, h.cert, h.key, .inl rfl⟩
  | failed hu hp => rcases h.phase with hp' | hp' <;> cases hp.symm.trans hp'
  | exit => exact absurd rfl ha.up

/-- A certificate that has come to the disk without being put in service, as after a save that
failed late, stays out of service until it is itself due, for as long as the process lives and its
checks can read the file: no check looks at what is handed out. -/
theorem certificate_on_disk_waits (P : Pki β) {s t : Node β} {es : List Event} {pem pem' : List β}
    {n : Int} (hs : s.served = some pem) (hi : s.vault.phase = .idle)
    (hc : s.vault.disk certFile = some pem') (hk : s.vault.disk keyFile ≠ none)
    (hn : P.notAfter pem' = some n) (hr : ((system P).restrict (Ahead P n)).MTr s es t) :
    t.served = some pem := by
  have h : Unnoticed pem pem' s := ⟨hs, hc, hk, .inl hi⟩
  clear hs hi hc hk
  induction hr with
  | refl => exact h.served
  | stepL hs _ ih => exact ih (h.step hn hs.1 hs.2)

section Runs

open Vault

/-- A host between two checks. -/
def calm (disk : Disk String Int) (served : List Int) (now began nextTick : Int) (misses : Nat) :
    Node Int :=
  ⟨⟨now, disk, .idle⟩, some served, began, nextTick, misses⟩

variable {disk : Disk String Int} {served key : List Int} {now began next serial n : Int}
  {misses : Nat}

theorem reachable_content (h : (system samplePki).Reachable (calm disk served now began next misses))
    (hc : disk certFile = some [serial, n]) (hk : disk keyFile ≠ none) (hnow : now ≤ next)
    (hn : next + 30 * day ≤ n) :
    (system samplePki).Reachable (calm disk served next next (next + day) 0) := by
  have h1 := h.step (@Step.wait _ _ _ next hnow)
  have hskip := @Vault.Step.skip Int samplePki ⟨next, disk, .idle⟩ rfl
    (upToDate_of_goodFrom hc hk ⟨n, rfl, hn⟩)
  have h2 := h1.step (.check nofun (Int.le_refl _) rfl hskip nofun)
  exact h2.step (.content nofun rfl)

/-- The days go by, and each check is content with what is on disk. -/
theorem reachable_days (k : Nat)
    (h : (system samplePki).Reachable (calm disk served now began next misses))
    (hc : disk certFile = some [serial, n]) (hk : disk keyFile ≠ none) (hnow : now ≤ next)
    (hn : next + (k + 30) * day ≤ n) :
    (system samplePki).Reachable
      (calm disk served (next + k * day) (next + k * day) (next + k * day + day) 0) := by
  induction k generalizing now began next misses with
  | zero =>
    have h1 := reachable_content h hc hk hnow (by simpa using hn)
    simpa using h1
  | succ k ih =>
    have h1 := reachable_content h hc hk hnow (by unfold day at *; omega)
    have h2 := ih h1 (by unfold day; omega) (by unfold day at *; omega)
    have he : next + day + k * day = next + (k + 1 : Nat) * day := by unfold day; omega
    rwa [he] at h2

/-- A certificate that is good for thirty days, and its key. -/
def oldDisk : Disk String Int := (sampleVault (some [1, 30 * day]) (some [1])).disk

/-- A day after the start a new one has been issued. -/
def renewing : Node Int :=
  ⟨⟨day, oldDisk, .issued [2] [2, 91 * day]⟩, some [1, 30 * day], day, 2 * day, 0⟩

theorem reachable_renewing : ((system samplePki).restrict (Sane samplePki)).Reachable renewing := by
  have h0 : ((system samplePki).restrict (Sane samplePki)).Reachable { vault := ⟨0, oldDisk, .idle⟩ } :=
    .init ⟨rfl, rfl⟩
  have h1 := h0.step ⟨.start rfl rfl (.skip rfl rfl) nofun,
    ⟨nofun, nofun, fun _ => by decide, fun h => absurd rfl h⟩⟩
  have h2 : ((system samplePki).restrict (Sane samplePki)).Reachable
      (calm oldDisk [1, 30 * day] 0 0 day 0) :=
    h1.step ⟨.boot rfl rfl rfl rfl, ⟨nofun, nofun, fun h => absurd rfl h, fun _ => by decide⟩⟩
  have h3 : ((system samplePki).restrict (Sane samplePki)).Reachable
      (calm oldDisk [1, 30 * day] day 0 day 0) :=
    h2.step ⟨.wait (by decide), ⟨nofun, nofun, fun h => absurd rfl h, fun _ => Int.le_refl _⟩⟩
  have h4 := h3.step ⟨.check nofun (Int.le_refl _) rfl (.obtain rfl rfl) nofun,
    ⟨nofun, nofun, fun _ => by decide, fun _ => by decide⟩⟩
  have hpair : samplePki.Pair [2, 91 * day] [2] := ⟨(2 : Int), (2 : Int), rfl, rfl, rfl⟩
  refine h4.step ⟨.work nofun (.issue rfl hpair) nofun rfl,
    ⟨fun _ key cert he => ?_, nofun, fun _ => by decide, fun _ => by decide⟩⟩
  cases he
  exact ⟨91 * day, rfl, by decide⟩

/-- The key is saved, and then the certificate. -/
def keySaved : Vault Int := renewing.vault.saveKey { hex := "00" } [2] [2, 91 * day]

theorem phase_keySaved : keySaved.phase = .keySaved [2, 91 * day] := rfl

theorem phase_certSaved :
    (keySaved.saveCert { hex := "01" } [2, 91 * day]).phase = .returned (.ok true) := rfl

theorem now_keySaved : keySaved.now = day := rfl

theorem now_certSaved : (keySaved.saveCert { hex := "01" } [2, 91 * day]).now = day := rfl

theorem reachable_keySaved : ((system samplePki).restrict (Sane samplePki)).Reachable
    ⟨keySaved, some [1, 30 * day], day, 2 * day, 0⟩ :=
  reachable_renewing.step ⟨.work nofun (.saveKey rfl) nofun rfl,
    ⟨nofun, nofun, fun _ => now_keySaved ▸ by decide, fun _ => now_keySaved ▸ by decide⟩⟩

/-- The old certificate is renewed in time. -/
theorem served_certificate_lives_renewed : ∃ s : Node Int,
    ((system samplePki).restrict (Sane samplePki)).Reachable s ∧ s.served = some [2, 91 * day] ∧
    s.vault.now = day ∧ s.misses = 0 ∧ ∃ n, samplePki.notAfter [2, 91 * day] = some n ∧
      s.vault.now + (27 - s.misses) * day ≤ n := by
  have h1 : ((system samplePki).restrict (Sane samplePki)).Reachable
      ⟨keySaved.saveCert { hex := "01" } [2, 91 * day], some [1, 30 * day], day, 2 * day, 0⟩ := by
    refine reachable_keySaved.step ⟨.work ?_ (.saveCert phase_keySaved) ?_ rfl, ?_, ?_, ?_, ?_⟩
    · intro h
      cases phase_keySaved.symm.trans h
    · intro h
      cases phase_certSaved.symm.trans h
    · intro h
      cases phase_keySaved.symm.trans h
    · intro cert _ h
      cases phase_certSaved.symm.trans h
    · intro _
      exact now_certSaved ▸ by decide
    · intro _
      exact now_certSaved ▸ by decide
  have h2 : ((system samplePki).restrict (Sane samplePki)).Reachable
      ⟨{ keySaved.saveCert { hex := "01" } [2, 91 * day] with phase := .idle }, some [2, 91 * day],
        day, 2 * day, 0⟩ := by
    refine h1.step ⟨.reload (Option.some_ne_none _) phase_certSaved rfl rfl, ?_, ?_, ?_, ?_⟩
    · intro h
      cases phase_certSaved.symm.trans h
    · intro cert h
      cases phase_certSaved.symm.trans h
    · intro h
      exact absurd rfl h
    · intro _
      exact now_certSaved ▸ by decide
  exact ⟨_, h2, rfl, now_certSaved, rfl, served_certificate_lives samplePki h2 rfl⟩

/-- The directory cannot be flushed. -/
def late : Weather :=
  { hex := "01", fault := fun step => if step = .syncParent then some .other else none }

/-- A renewal whose last save fails after it has replaced the file. All checks from then on are
content, and thirty days later the certificate in service has expired. -/
theorem expired_after_late_failure : ∃ s : Node Int, (system samplePki).Reachable s ∧
    s.misses = 0 ∧ s.served = some [1, 30 * day] ∧ s.vault.now = 31 * day := by
  have h1 : (system samplePki).Reachable
      ⟨keySaved.saveCert late [2, 91 * day], some [1, 30 * day], day, 2 * day, 0⟩ :=
    reachable_keySaved.of_restrict.step (.work nofun (.saveCert rfl) nofun rfl)
  have h2 : (system samplePki).Reachable
      (calm (keySaved.saveCert late [2, 91 * day]).disk [1, 30 * day] day day (2 * day) 1) :=
    h1.step (.failed nofun rfl)
  have hk : (keySaved.saveCert late [2, 91 * day]).disk keyFile = some [2] := rfl
  have hnow : 2 * day + (29 : Nat) * day = 31 * day := by decide
  exact ⟨_, reachable_days 29 h2 rfl (by simp [hk]) (by decide) (by decide), rfl, rfl, hnow⟩

/-- A good certificate and its key that somebody has put on disk. -/
def manualDisk : Disk String Int := (sampleVault (some [2, 91 * day]) (some [2])).disk

/-- They are still not in service when the next check has found them good. -/
theorem certificate_on_disk_waits_manual : ∃ t : Node Int,
    ((system samplePki).restrict (Ahead samplePki (91 * day))).MTr
      (calm manualDisk [1, 30 * day] 0 0 day 0) [.internal, .internal, .internal] t ∧
    t.vault.now = day ∧ t.vault.disk certFile = some [2, 91 * day] ∧ t.served = some [1, 30 * day] := by
  have hr : ((system samplePki).restrict (Ahead samplePki (91 * day))).MTr
      (calm manualDisk [1, 30 * day] 0 0 day 0) [.internal, .internal, .internal]
      (calm manualDisk [1, 30 * day] day day (day + day) 0) :=
    .stepL ⟨@Step.wait _ _ _ day (by decide), ⟨nofun, by decide, nofun⟩⟩ <|
    .stepL ⟨@Step.check _ _ (calm manualDisk [1, 30 * day] day 0 day 0) _ _ nofun (Int.le_refl _) rfl
      (.skip rfl rfl) nofun, ⟨nofun, by decide, nofun⟩⟩ <|
    .stepL ⟨.content nofun rfl, ⟨nofun, by decide, nofun⟩⟩ .refl
  exact ⟨_, hr, rfl, rfl, certificate_on_disk_waits samplePki
    (s := calm manualDisk [1, 30 * day] 0 0 day 0) rfl rfl rfl nofun rfl hr⟩

end Runs

end Node

end X2rp.Tls
