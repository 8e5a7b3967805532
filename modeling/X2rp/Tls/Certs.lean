import Mathlib.Data.Int.Order.Basic
import X2rp.Admin.Disk
import X2rp.Lts

/-! The server's certificate and its key on disk, over any number of starts and renewals, each of
which may fail or be cut off anywhere. -/
namespace X2rp.Tls

open Admin Files

def certFile : String := "/var/lib/x2rp/certs/fullchain.pem"

def keyFile : String := "/var/lib/x2rp/certs/privkey.pem"

def renewalThresholdDays : Int := 30

/-- What the server relies on other crates for: reading certificates and keys, and telling whether
they belong together. Times are in seconds. -/
structure Pki (β : Type) where
  Chain : Type
  Key : Type
  notAfter : List β → Option Int
  chain : List β → Option Chain
  key : List β → Option Key
  belong : Chain → Key → Bool

variable {β : Type} {P : Pki β} {now : Int} {d d' : Disk String β} {key cert : List β} {w : Weather}

/-- Two files' contents that belong together. -/
def Pki.Pair (P : Pki β) (cert key : List β) : Prop :=
  ∃ chain k, P.chain cert = some chain ∧ P.key key = some k ∧ P.belong chain k = true

/-- Days until the leaf certificate expires; `none` if it is missing or unreadable. -/
def daysUntilExpiry (P : Pki β) (now : Int) (d : Disk String β) : Option Int := do
  let pem ← d certFile
  let notAfter ← P.notAfter pem
  return (notAfter - now).tdiv 86400

/-- Whether `ensure_certs` leaves it at what is there. -/
def upToDate (P : Pki β) (now : Int) (d : Disk String β) : Bool :=
  match daysUntilExpiry P now d with
  | some days => days ≥ renewalThresholdDays && (d keyFile).isSome
  | none => false

/-- `load_certified_key`, and so `CertStore::load` and `reload`. -/
def loadCertifiedKey (P : Pki β) (d : Disk String β) : Except String (P.Chain × P.Key) := do
  let some certPem := d certFile | throw ("reading " ++ certFile)
  let some keyPem := d keyFile | throw ("reading TLS private key " ++ keyFile)
  let some chain := P.chain certPem | throw ("parsing " ++ certFile)
  let some key := P.key keyPem | throw ("parsing " ++ keyFile)
  if P.belong chain key then return (chain, key)
  else throw "the TLS certificate and key do not match"

/-- The certificate is due for renewal, or there is none. -/
def Due (P : Pki β) (now : Int) (d : Disk String β) : Prop :=
  ∀ days, daysUntilExpiry P now d = some days → days < renewalThresholdDays

/-- The files on disk belong together. -/
def Paired (P : Pki β) (d : Disk String β) : Prop :=
  ∃ cert key, d certFile = some cert ∧ d keyFile = some key ∧ P.Pair cert key

theorem Paired.load (h : Paired P d) : ∃ pair, loadCertifiedKey P d = .ok pair := by
  obtain ⟨cert, key, hc, hk, chain, k, hchain, hkey, hb⟩ := h
  refine ⟨(chain, k), ?_⟩
  simp [loadCertifiedKey, hc, hk, hchain, hkey, hb]
  rfl

theorem tdiv_lt_threshold {a : Int} :
    a.tdiv 86400 < renewalThresholdDays ↔ a < 30 * 86400 := by
  unfold renewalThresholdDays
  rcases Int.le_total 0 a with ha | ha
  · rw [Int.tdiv_eq_ediv_of_nonneg ha]
    omega
  · have h := Int.tdiv_nonneg (Int.neg_nonneg_of_nonpos ha) (show (0 : Int) ≤ 86400 by decide)
    rw [Int.neg_tdiv] at h
    omega

theorem daysUntilExpiry_eq_some {days : Int} : daysUntilExpiry P now d = some days ↔
    ∃ pem notAfter, d certFile = some pem ∧ P.notAfter pem = some notAfter ∧
      (notAfter - now).tdiv 86400 = days := by
  simp [daysUntilExpiry, Option.bind_eq_some_iff]

/-- A certificate that is due stays due. -/
theorem Due.later {now' : Int} (h : Due P now d) (hle : now ≤ now') : Due P now' d := by
  intro days hdays
  obtain ⟨pem, notAfter, hpem, hafter, rfl⟩ := daysUntilExpiry_eq_some.mp hdays
  have hlt := h _ (daysUntilExpiry_eq_some.mpr ⟨pem, notAfter, hpem, hafter, rfl⟩)
  rw [tdiv_lt_threshold] at hlt ⊢
  omega

/-- Being due is about the certificate file alone. -/
theorem Due.congr (h : Due P now d) (hd : d' certFile = d certFile) : Due P now d' := by
  intro days hdays
  refine h days ?_
  simpa only [daysUntilExpiry, hd] using hdays

theorem not_due_of_upToDate (h : upToDate P now d = true) : ¬ Due P now d ∧ d keyFile ≠ none := by
  unfold upToDate at h
  split at h
  · rename_i days hdays
    simp only [Bool.and_eq_true, decide_eq_true_eq] at h
    refine ⟨fun hdue => ?_, fun hk => ?_⟩
    · have := hdue days hdays
      omega
    · simp [hk] at h
  · cases h

theorem certFile_ne_tmpPath (w : Weather) : certFile ≠ w.tmpPath keyFile := by
  have hstem : stem keyFile = "/var/lib/x2rp/certs/privkey" := rfl
  intro h
  have := congrArg (fun s => s.toList[20]?) h
  simp [Weather.tmpPath, withExtension, hstem, certFile] at this

theorem keyFile_ne_tmpPath (w : Weather) : keyFile ≠ w.tmpPath certFile := by
  have hstem : stem certFile = "/var/lib/x2rp/certs/fullchain" := rfl
  intro h
  have := congrArg (fun s => s.toList[20]?) h
  simp [Weather.tmpPath, withExtension, hstem, keyFile] at this

/-- How far `ensure_certs` has come, called by a start of the server or by its daily task. -/
inductive Phase (β : Type)
  | idle
  /-- `obtain_certificate`, up to the order being finalised. -/
  | ordering
  /-- The order's key and certificate are there. -/
  | issued (key cert : List β)
  /-- The key is on disk. -/
  | keySaved (cert : List β)
  | returned (answer : Except Unit Bool)

/-- What a phase says about the disk. -/
def Phase.Backed (P : Pki β) (now : Int) (d : Disk String β) : Phase β → Prop
  | .idle | .returned (.error _) => True
  | .ordering => Due P now d
  | .issued key cert => Due P now d ∧ P.Pair cert key
  | .keySaved cert => Due P now d ∧ ∃ key, d keyFile = some key ∧ P.Pair cert key
  | .returned (.ok _) => Paired P d

/-- The disk, the clock and the server, if it is at it. -/
structure Vault (β : Type) where
  now : Int
  disk : Disk String β
  phase : Phase β := .idle

namespace Vault

/-- How a step shows. -/
inductive Event
  | internal
  /-- `ensure_certs` goes for a new certificate. -/
  | obtain
deriving DecidableEq

/-- A save of `obtain_certificate`, and how it goes on from there. -/
def save (w : Weather) (path : String) (data : List β) (next : Phase β) (s : Vault β) : Vault β :=
  match (saveSecureFile w path data).exec s.disk with
  | (.ok (), disk) => { s with disk, phase := next }
  | (.error _, disk) => { s with disk, phase := .returned (.error ()) }

def saveKey (w : Weather) (key cert : List β) (s : Vault β) : Vault β :=
  s.save w keyFile key (.keySaved cert)

def saveCert (w : Weather) (cert : List β) (s : Vault β) : Vault β :=
  s.save w certFile cert (.returned (.ok true))

/-- Starts, renewals and crashes. A crash inside a save leaves what the save has done up to some
call, as a failure of that call does. A certificate that cannot be read is taken for none. What the
order yields belongs together. -/
inductive Step (P : Pki β) : Vault β → Event → Vault β → Prop
  | tick {s : Vault β} {now : Int} (hn : s.now ≤ now) : Step P s .internal { s with now }
  | skip {s : Vault β} (hp : s.phase = .idle) (hu : upToDate P s.now s.disk = true) :
      Step P s .internal { s with phase := .returned (.ok false) }
  | obtain {s : Vault β} (hp : s.phase = .idle) (hu : upToDate P s.now s.disk = false) :
      Step P s .obtain { s with phase := .ordering }
  | misread {s : Vault β} (hp : s.phase = .idle) : Step P s .obtain { s with phase := .ordering }
  | orderFailed {s : Vault β} (hp : s.phase = .ordering) :
      Step P s .internal { s with phase := .returned (.error ()) }
  | issue {s : Vault β} {key cert : List β} (hp : s.phase = .ordering) (hk : P.Pair cert key) :
      Step P s .internal { s with phase := .issued key cert }
  | saveKey {s : Vault β} {key cert : List β} {w : Weather} (hp : s.phase = .issued key cert) :
      Step P s .internal (s.saveKey w key cert)
  | saveCert {s : Vault β} {cert : List β} {w : Weather} (hp : s.phase = .keySaved cert) :
      Step P s .internal (s.saveCert w cert)
  | crashInKey {s : Vault β} {key cert : List β} {w : Weather} (hp : s.phase = .issued key cert) :
      Step P s .internal { s.saveKey w key cert with phase := .idle }
  | crashInCert {s : Vault β} {cert : List β} {w : Weather} (hp : s.phase = .keySaved cert) :
      Step P s .internal { s.saveCert w cert with phase := .idle }
  | crash {s : Vault β} : Step P s .internal { s with phase := .idle }

def system (P : Pki β) : LTS (Vault β) Event where
  Init s := s.phase = .idle ∧ (Paired P s.disk ∨ s.disk keyFile = none ∨ s.disk certFile = none)
  Tr := Step P

variable {s t : Vault β} {e : Event}

/-- Files that do not belong together go with a certificate that is due. -/
structure Safe (P : Pki β) (s : Vault β) : Prop where
  disk : Paired P s.disk ∨ s.disk keyFile = none ∨ Due P s.now s.disk
  phase : s.phase.Backed P s.now s.disk

/-- The file is the new one or the old one, and no other file is touched. -/
theorem save_cases (w : Weather) {path other : String} (data : List β) (next : Phase β)
    (s : Vault β) (hne : other ≠ path) (htmp : other ≠ w.tmpPath path) :
    (s.save w path data next).now = s.now ∧
    (s.save w path data next).disk other = s.disk other ∧
    ((s.save w path data next).disk path = some data ∧
        ((s.save w path data next).phase = next ∨
          (s.save w path data next).phase = .returned (.error ())) ∨
      (s.save w path data next).disk path = s.disk path ∧
        (s.save w path data next).phase = .returned (.error ())) := by
  have h := saveSecureFile_ends w path data s.disk
  unfold save
  unfold FileM.Ends at h
  rcases hx : (saveSecureFile w path data).exec s.disk with ⟨answer, disk⟩
  simp only [hx] at h ⊢
  have hother := h.other hne htmp
  cases h with
  | done => exact ⟨rfl, hother, .inl ⟨by simp, .inl rfl⟩⟩
  | kept => exact ⟨rfl, hother, .inr ⟨by simp [(w.tmpPath_ne path).symm], rfl⟩⟩
  | late => exact ⟨rfl, hother, .inl ⟨by simp, .inr rfl⟩⟩

theorem safe_saveKey (hs : s.phase.Backed P s.now s.disk) (hp : s.phase = .issued key cert) :
    Safe P (s.saveKey w key cert) := by
  unfold saveKey
  rw [hp] at hs
  obtain ⟨hdue, hpair⟩ := hs
  obtain ⟨hnow, hcert, hkey⟩ :=
    save_cases w key (.keySaved cert) s (by decide) (certFile_ne_tmpPath w)
  have hdue' : Due P (s.save w keyFile key (.keySaved cert)).now
      (s.save w keyFile key (.keySaved cert)).disk := hnow ▸ hdue.congr hcert
  refine ⟨.inr (.inr hdue'), ?_⟩
  rcases hkey with ⟨hkey, hph | hph⟩ | ⟨-, hph⟩ <;> rw [hph]
  · exact ⟨hdue', key, hkey, hpair⟩
  · trivial
  · trivial

theorem safe_saveCert (hs : s.phase.Backed P s.now s.disk) (hp : s.phase = .keySaved cert) :
    Safe P (s.saveCert w cert) := by
  unfold saveCert
  rw [hp] at hs
  obtain ⟨hdue, key, hk, hpair⟩ := hs
  obtain ⟨hnow, hkey, hcert⟩ :=
    save_cases w cert (.returned (.ok true)) s (by decide) (keyFile_ne_tmpPath w)
  rcases hcert with ⟨hcert, hph⟩ | ⟨hcert, hph⟩
  · have hpaired : Paired P (s.save w certFile cert (.returned (.ok true))).disk :=
      ⟨cert, key, hcert, hkey.trans hk, hpair⟩
    refine ⟨.inl hpaired, ?_⟩
    rcases hph with hph | hph <;> rw [hph]
    · exact hpaired
    · trivial
  · refine ⟨.inr (.inr (hnow ▸ hdue.congr hcert)), ?_⟩
    rw [hph]
    trivial

theorem backed_later {now' : Int} {phase : Phase β} (h : phase.Backed P now d) (hle : now ≤ now') :
    phase.Backed P now' d := by
  cases phase with
  | idle => trivial
  | ordering => exact Due.later h hle
  | issued => exact ⟨h.1.later hle, h.2⟩
  | keySaved => exact ⟨h.1.later hle, h.2⟩
  | returned answer =>
    cases answer with
    | ok => exact h
    | error => trivial

/-- The condition on a step: a new certificate is gone for only when the one on disk is due. -/
def OnlyWhenDue (P : Pki β) (s : Vault β) (e : Event) (_ : Vault β) : Prop :=
  e = .obtain → Due P s.now s.disk

theorem safe_step (h : Safe P s) (hs : Step P s e t) (hc : OnlyWhenDue P s e t) : Safe P t := by
  cases hs with
  | tick hn =>
    exact ⟨h.disk.imp_right fun hd => hd.imp_right fun hd => hd.later hn, backed_later h.phase hn⟩
  | skip hp hu =>
    obtain ⟨hnot, hkey⟩ := not_due_of_upToDate hu
    have hpaired : Paired P s.disk := by
      rcases h.disk with hpaired | hk | hdue
      · exact hpaired
      · exact absurd hk hkey
      · exact absurd hdue hnot
    exact ⟨h.disk, hpaired⟩
  | obtain hp hu => exact ⟨h.disk, hc rfl⟩
  | misread hp => exact ⟨h.disk, hc rfl⟩
  | orderFailed hp => exact ⟨h.disk, trivial⟩
  | issue hp hk =>
    have hdue := h.phase
    rw [hp] at hdue
    exact ⟨h.disk, hdue, hk⟩
  | saveKey hp => exact safe_saveKey h.phase hp
  | saveCert hp => exact safe_saveCert h.phase hp
  | crashInKey hp => exact ⟨(safe_saveKey h.phase hp).disk, trivial⟩
  | crashInCert hp => exact ⟨(safe_saveCert h.phase hp).disk, trivial⟩
  | crash => exact ⟨h.disk, trivial⟩

theorem safe (h : ((system P).restrict (OnlyWhenDue P)).Reachable s) : Safe P s := by
  refine h.invariant (fun s hi => ?_) fun s e t hs ht => safe_step hs ht.1 ht.2
  obtain ⟨hph, hdisk⟩ := hi
  refine ⟨?_, by rw [hph]; trivial⟩
  rcases hdisk with hpaired | hk | hc
  · exact .inl hpaired
  · exact .inr (.inl hk)
  · exact .inr (.inr fun days hdays => by simp [daysUntilExpiry, hc] at hdays)

/-- If no certificate is replaced before it is due, then whenever `ensure_certs` is content, the
files on disk belong together and load, whatever has failed or crashed before. -/
theorem certs_match (P : Pki β) {s : Vault β}
    (h : ((system P).restrict (OnlyWhenDue P)).Reachable s) {renewed : Bool}
    (hr : s.phase = .returned (.ok renewed)) :
    Paired P s.disk ∧ ∃ pair, loadCertifiedKey P s.disk = .ok pair := by
  have hpaired := (safe h).phase
  rw [hr] at hpaired
  exact ⟨hpaired, hpaired.load⟩

section Runs

/-- A certificate is its serial number with its end, a key the serial number of its certificate. -/
def samplePki : Pki Int where
  Chain := Int
  Key := Int
  notAfter pem := pem[1]?
  chain pem := pem[0]?
  key pem := pem[0]?
  belong chain key := chain == key

/-- A disk with the given certificate and key. -/
def sampleVault (cert key : Option (List Int)) : Vault Int where
  now := 0
  disk := Function.update (Function.update (fun _ => none) certFile cert) keyFile key

/-- The order for serial number 2. -/
theorem samplePki_pair : samplePki.Pair [2, 90 * 86400] [2] := ⟨(2 : Int), (2 : Int), rfl, rfl, rfl⟩

/-- A renewal ten days before the end that crashes between its two saves. The next start renews
again, and its files belong together. -/
theorem certs_match_after_crash : ∃ s : Vault Int,
    ((system samplePki).restrict (OnlyWhenDue samplePki)).Reachable s ∧
    s.phase = .returned (.ok true) ∧ Paired samplePki s.disk := by
  have hdue : ∀ s : Vault Int, s.now = 0 → s.disk certFile = some [1, 10 * 86400] →
      Due samplePki s.now s.disk := by
    intro s hn hc days hdays
    obtain ⟨pem, notAfter, hpem, hafter, rfl⟩ := daysUntilExpiry_eq_some.mp hdays
    rw [hc] at hpem
    cases hpem
    cases hafter
    rw [hn]
    decide
  have h₀ : ((system samplePki).restrict (OnlyWhenDue samplePki)).Reachable
      (sampleVault (some [1, 10 * 86400]) (some [1])) :=
    .init ⟨rfl, .inl ⟨_, _, rfl, rfl, (1 : Int), (1 : Int), rfl, rfl, rfl⟩⟩
  have h₁ := (h₀.step ⟨.obtain rfl rfl, fun _ => hdue _ rfl rfl⟩).step
    ⟨.issue rfl samplePki_pair, nofun⟩
  have h₂ := (h₁.step ⟨.saveKey (w := { hex := "00" }) rfl, nofun⟩).step ⟨.crash, nofun⟩
  have h₃ := (h₂.step ⟨.obtain rfl rfl, fun _ => hdue _ rfl rfl⟩).step
    ⟨.issue rfl samplePki_pair, nofun⟩
  have h₄ := (h₃.step ⟨.saveKey (w := { hex := "01" }) rfl, nofun⟩).step
    ⟨.saveCert (w := { hex := "02" }) rfl, nofun⟩
  exact ⟨_, h₄, rfl, (certs_match samplePki h₄ rfl).1⟩

/-- The key is lost beside a certificate that is good for sixty days. A start that crashes between
its two saves leaves the new key with the old certificate, and the next start is content. -/
theorem mismatch_after_lost_key : ∃ s : Vault Int, (system samplePki).Reachable s ∧
    s.phase = .returned (.ok false) ∧
    loadCertifiedKey samplePki s.disk = .error "the TLS certificate and key do not match" := by
  have h₀ : (system samplePki).Reachable (sampleVault (some [1, 60 * 86400]) none) :=
    .init ⟨rfl, .inr (.inl rfl)⟩
  have h₁ := (h₀.step (.obtain rfl rfl)).step (.issue rfl samplePki_pair)
  have h₂ := (h₁.step (.saveKey (w := { hex := "00" }) rfl)).step .crash
  exact ⟨_, h₂.step (.skip rfl rfl), rfl, rfl⟩

end Runs

end Vault

end X2rp.Tls
