import X2rp.Admin.Access
import X2rp.Admin.Durable

/-! The one-time setup: any number of requests for it, in any order, on a disk that may fail. -/
namespace X2rp.Admin

open Files

namespace Saved

/-- The four assignments of `post_setup` under the write lock. -/
def setup (s : Saved) (req : SetupRequest) (passwordHash secret : String) : Saved where
  state := { s.state with domain := normalizeDomain req.domain }
  adminPasswordHash := some passwordHash
  serverConfig := ⟨req.cfApiToken.getD "", secret⟩
  initialized := true

theorem loaded_setup (s : Saved) (req : SetupRequest) (passwordHash secret : String) :
    (s.setup req passwordHash secret).loaded = s.setup req passwordHash secret := by
  simp [loaded, AppState.loaded, setup]

/-- The state is the one that this request has set up. -/
structure SetBy (s : Saved) (req : SetupRequest) (passwordHash : String) : Prop where
  initialized : s.initialized = true
  domain : s.state.domain = normalizeDomain req.domain
  adminPasswordHash : s.adminPasswordHash = some passwordHash

end Saved

/-- The fields of what requests share that are written to disk. -/
def Global.saved (g : Global) : Saved :=
  ⟨g.state, g.initialized, g.serverConfig, g.adminPasswordHash⟩

/-- The step that a single request takes is the one that is taken here. -/
theorem Global.saved_setup (g : Global) (req : SetupRequest) (passwordHash secret : String) :
    (g.setup (normalizeDomain req.domain) passwordHash req.cfApiToken secret).saved =
      g.saved.setup req passwordHash secret := rfl

namespace Host

variable {β : Type} {J : Json β} {h t : Host β} {w : Weather} {req : SetupRequest}
  {passwordHash secret : String}

/-- `post_setup` from the write lock to its answer. -/
def setup (J : Json β) (w : Weather) (req : SetupRequest) (passwordHash secret : String)
    (h : Host β) : Except StatusCode Unit × Host β :=
  if h.memory.initialized then (.error .conflict, h)
  else
    let memory := h.memory.setup req passwordHash secret
    match (memory.save J w).exec h.disk with
    | (.ok (), disk) => (.ok (), ⟨memory, disk⟩)
    | (.error _, disk) => (.error .internalServerError, ⟨memory, disk⟩)

/-- How it can end. A save that fails is not taken back. -/
inductive SetUp (J : Json β) (req : SetupRequest) (passwordHash secret : String) (h : Host β) :
    Except StatusCode Unit → Host β → Prop
  | conflict (hi : h.memory.initialized = true) :
      SetUp J req passwordHash secret h (.error .conflict) h
  | saved {disk : Disk String β} (hi : h.memory.initialized = false)
      (hl : load J disk = .ok (h.memory.setup req passwordHash secret)) :
      SetUp J req passwordHash secret h (.ok ()) ⟨h.memory.setup req passwordHash secret, disk⟩
  | unsaved {disk : Disk String β} (hi : h.memory.initialized = false) :
      SetUp J req passwordHash secret h (.error .internalServerError)
        ⟨h.memory.setup req passwordHash secret, disk⟩

theorem setup_setUp (J : Json β) (w : Weather) (req : SetupRequest) (passwordHash secret : String)
    (h : Host β) : SetUp J req passwordHash secret h (h.setup J w req passwordHash secret).1
      (h.setup J w req passwordHash secret).2 := by
  unfold setup
  cases hi : h.memory.initialized with
  | true => exact .conflict hi
  | false =>
    have hends := Saved.save_ends J w (h.memory.setup req passwordHash secret) h.disk
    unfold FileM.Ends at hends
    rcases hx : ((h.memory.setup req passwordHash secret).save J w).exec h.disk with ⟨answer, disk⟩
    simp only [hx, Saved.loaded_setup] at hends ⊢
    rcases hends with ⟨rfl, hl⟩ | ⟨⟨e, rfl⟩, -⟩
    · exact .saved hi hl
    · exact .unsaved hi

end Host

/-- How far a request for setup has come. -/
inductive SetupPhase
  | arrived (req : SetupRequest)
  | hashing (req : SetupRequest)
  | hashed (req : SetupRequest) (passwordHash : String)
  | answered (answer : Except StatusCode Unit)
  /-- Not yet there, or gone. -/
  | absent

/-- Where a request waits, and so may be dropped. -/
def SetupPhase.awaits : SetupPhase → Bool
  | .arrived _ | .hashing _ | .hashed _ _ => true
  | .answered _ | .absent => false

/-- A server with its requests for setup, numbered as they arrive. `granted` remembers those that
were answered with success, each with its password's hash. -/
structure Install (β : Type) where
  host : Host β
  started : Nat := 0
  requests : Nat → SetupPhase := fun _ => .absent
  granted : List (SetupRequest × String) := []

namespace Install

/-- How a step shows: a `post_setup` that got to the write lock, with what its save would meet. -/
inductive Event
  | internal
  | setup (w : Weather) (req : SetupRequest) (passwordHash secret : String)

variable {β : Type} {E : Env} {J : Json β} {s s₀ t : Install β} {e : Event} {es : List Event}

def set (s : Install β) (i : Nat) (phase : SetupPhase) : Install β :=
  { s with requests := Function.update s.requests i phase }

/-- The write-locked part of request `i` has been run. -/
def answer (s : Install β) (i : Nat) (req : SetupRequest) (passwordHash : String)
    (answer : Except StatusCode Unit) (host : Host β) : Install β :=
  { s.set i (.answered answer) with
    host
    granted := if answer.isOk then s.granted ++ [(req, passwordHash)] else s.granted }

section Fields

variable (s : Install β) (i : Nat) (req : SetupRequest) (passwordHash : String) (host : Host β)
  (status : StatusCode)

@[simp] theorem granted_answer_ok :
    (s.answer i req passwordHash (.ok ()) host).granted = s.granted ++ [(req, passwordHash)] := rfl

@[simp] theorem granted_answer_error :
    (s.answer i req passwordHash (.error status) host).granted = s.granted := rfl

end Fields

/-- Any interleaving of the requests' phases, and of the other handlers, which turn everyone away
until setup is done. -/
inductive Step (E : Env) (J : Json β) : Install β → Event → Install β → Prop
  | arrive {s : Install β} {req : SetupRequest} :
      Step E J s .internal { s.set s.started (.arrived req) with started := s.started + 1 }
  | check {s : Install β} {i : Nat} {req : SetupRequest} {domain : String}
      (hi : s.requests i = .arrived req)
      (hc : req.check s.host.memory.initialized = .ok domain) :
      Step E J s .internal (s.set i (.hashing req))
  | refuse {s : Install β} {i : Nat} {req : SetupRequest} {status : StatusCode}
      (hi : s.requests i = .arrived req)
      (hc : req.check s.host.memory.initialized = .error status) :
      Step E J s .internal (s.set i (.answered (.error status)))
  | hash {s : Install β} {i : Nat} {req : SetupRequest} {passwordHash : String}
      (hi : s.requests i = .hashing req) :
      Step E J s .internal (s.set i (.hashed req passwordHash))
  | hashFailed {s : Install β} {i : Nat} {req : SetupRequest} (hi : s.requests i = .hashing req) :
      Step E J s .internal (s.set i (.answered (.error .internalServerError)))
  | setup {s : Install β} {i : Nat} {req : SetupRequest} {passwordHash secret : String}
      {w : Weather} (hi : s.requests i = .hashed req passwordHash) :
      Step E J s (.setup w req passwordHash secret)
        (s.answer i req passwordHash (s.host.setup J w req passwordHash secret).1
          (s.host.setup J w req passwordHash secret).2)
  | abandon {s : Install β} {i : Nat} (hi : (s.requests i).awaits = true) :
      Step E J s .internal (s.set i .absent)
  | handler {s : Install β} {e : Host.Event} {host : Host β}
      (hi : e = .seen ∨ s.host.memory.initialized = true) (hs : Host.Step E J s.host e host) :
      Step E J s .internal { s with host }

/-- A server that is not set up. -/
def system (E : Env) (J : Json β) : LTS (Install β) Event where
  Init s := s.host.memory.initialized = false ∧ s.granted = []
  Tr := Step E J

/-- The condition on a step: if it comes to the save of a setup, that does not fail. -/
def Saves (J : Json β) (s : Install β) (e : Event) (_ : Install β) : Prop :=
  ∀ w req passwordHash secret, e = .setup w req passwordHash secret →
    s.host.memory.initialized = false →
    (((s.host.memory.setup req passwordHash secret).save J w).exec s.host.disk).1 = .ok ()

theorem saves_internal : Saves J s .internal t := by rintro w req passwordHash secret ⟨⟩

/-- Whoever was granted the setup is the one in memory and on disk. -/
structure Once (J : Json β) (s : Install β) : Prop where
  most : s.granted.length ≤ 1
  memory : ∀ g ∈ s.granted, s.host.memory.SetBy g.1 g.2
  disk : ∀ g ∈ s.granted, ∃ saved, load J s.host.disk = .ok saved ∧ saved.SetBy g.1 g.2

theorem Once.granted_eq_nil (h : Once J s) (hi : s.host.memory.initialized = false) :
    s.granted = [] := by
  rw [List.eq_nil_iff_forall_not_mem]
  intro g hg
  have := (h.memory g hg).initialized
  simp [hi] at this

theorem once_step (h : Once J s) (hs : Step E J s e t) : Once J t := by
  cases hs with
  | @setup i req passwordHash secret w hi =>
    generalize ha : (s.host.setup J w req passwordHash secret).1 = a
    generalize hh : (s.host.setup J w req passwordHash secret).2 = host
    have hset := s.host.setup_setUp J w req passwordHash secret
    rw [ha, hh] at hset
    cases hset with
    | conflict => exact ⟨h.most, h.memory, h.disk⟩
    | saved hi hl =>
      have hby : (s.host.memory.setup req passwordHash secret).SetBy req passwordHash :=
        ⟨rfl, rfl, rfl⟩
      refine ⟨?_, ?_, ?_⟩ <;> rw [granted_answer_ok, h.granted_eq_nil hi, List.nil_append]
      · exact le_rfl
      · intro g hg
        obtain rfl := List.mem_singleton.mp hg
        exact hby
      · intro g hg
        obtain rfl := List.mem_singleton.mp hg
        exact ⟨_, hl, hby⟩
    | unsaved hi =>
      refine ⟨?_, ?_, ?_⟩ <;> simp [h.granted_eq_nil hi]
  | handler hi hs =>
    have hk := Host.kept_step hs
    refine ⟨h.most, fun g hg => ?_, fun g hg => ?_⟩
    · obtain ⟨hi, hd, hp⟩ := h.memory g hg
      exact ⟨hk.initialized.trans hi, hk.domain.trans hd, hk.adminPasswordHash.trans hp⟩
    · rcases hk.disk with hsame | ⟨state, hdom, hl⟩
      · obtain ⟨saved, hl, hby⟩ := h.disk g hg
        exact ⟨saved, (Host.load_congr hsame).trans hl, hby⟩
      · obtain ⟨hi, hd, hp⟩ := h.memory g hg
        refine ⟨_, hl, hi, ?_, hp⟩
        simp [AppState.loaded, hdom, hd]
  | _ => exact ⟨h.most, h.memory, h.disk⟩

theorem once_run (hi : (system E J).Init s₀) (hr : (system E J).MTr s₀ es s) : Once J s := by
  have h₀ : Once J s₀ := ⟨by simp [hi.2], by simp [hi.2], by simp [hi.2]⟩
  clear hi
  induction hr with
  | refl => exact h₀
  | stepL hs _ ih => exact ih (once_step h₀ hs)

/-- The state is not set up, and what setup would replace is still that of `first`. -/
structure Pristine (first : Saved) (s : Install β) : Prop where
  initialized : s.host.memory.initialized = false
  domain : s.host.memory.state.domain = first.state.domain
  adminPasswordHash : s.host.memory.adminPasswordHash = first.adminPasswordHash
  serverConfig : s.host.memory.serverConfig = first.serverConfig

/-- A setup whose save goes well is answered with success. -/
theorem setup_of_save {h : Host β} {w : Weather} {req : SetupRequest} {passwordHash secret : String}
    (hi : h.memory.initialized = false)
    (hs : (((h.memory.setup req passwordHash secret).save J w).exec h.disk).1 = .ok ()) :
    (h.setup J w req passwordHash secret).1 = .ok () := by
  unfold Host.setup
  simp only [hi, Bool.false_eq_true, if_false]
  rcases hx : ((h.memory.setup req passwordHash secret).save J w).exec h.disk with ⟨answer, disk⟩
  rw [hx] at hs
  cases hs
  rfl

theorem pristine_step {first : Saved} (h : s.granted = [] → Pristine first s)
    (hs : Step E J s e t) (he : Saves J s e t) : t.granted = [] → Pristine first t := by
  intro ht
  cases hs with
  | @setup i req passwordHash secret w hi =>
    have hok := fun hi => setup_of_save hi (he w req passwordHash secret rfl hi)
    generalize ha : (s.host.setup J w req passwordHash secret).1 = a at hok ht ⊢
    generalize hh : (s.host.setup J w req passwordHash secret).2 = host at ht ⊢
    have hset := s.host.setup_setUp J w req passwordHash secret
    rw [ha, hh] at hset
    cases hset with
    | conflict =>
      obtain ⟨hi, hd, hp, hc⟩ := h ht
      exact ⟨hi, hd, hp, hc⟩
    | saved => simp at ht
    | unsaved hi => cases hok hi
  | handler hi hs =>
    have hk := Host.kept_step hs
    obtain ⟨hi, hd, hp, hc⟩ := h ht
    exact ⟨hk.initialized.trans hi, hk.domain.trans hd, hk.adminPasswordHash.trans hp,
      hk.serverConfig.trans hc⟩
  | _ =>
    obtain ⟨hi, hd, hp, hc⟩ := h ht
    exact ⟨hi, hd, hp, hc⟩

theorem pristine_run {first : Saved} (h : s₀.granted = [] → Pristine first s₀)
    (hr : ((system E J).restrict (Saves J)).MTr s₀ es s) :
    s.granted = [] → Pristine first s := by
  induction hr with
  | refl => exact h
  | stepL hs _ ih => exact ih (pristine_step h hs.1 hs.2)

section Success

variable {req : SetupRequest} {domain passwordHash secret : String} {w : Weather} {data : List β}

theorem save_done {h : Host β} (hf : ∀ step, w.fault step = none)
    (ht : h.disk (w.tmpPath stateFile) = none)
    (hj : J.toStringPretty (h.memory.setup req passwordHash secret) = .ok data) :
    (((h.memory.setup req passwordHash secret).save J w).exec h.disk).1 = .ok () := by
  simp only [Saved.save, hj]
  exact (saveSecureFile_done hf ht).1

theorem setup_run (hi : s.host.memory.initialized = false) (hc : req.check false = .ok domain)
    (hf : ∀ step, w.fault step = none) (ht : s.host.disk (w.tmpPath stateFile) = none)
    (hj : J.toStringPretty (s.host.memory.setup req passwordHash secret) = .ok data) :
    ∃ es t, ((system E J).restrict (Saves J)).MTr s es t ∧
      t.granted = s.granted ++ [(req, passwordHash)] := by
  let s₁ : Install β := { s.set s.started (.arrived req) with started := s.started + 1 }
  let s₂ := s₁.set s.started (.hashing req)
  let s₃ := s₂.set s.started (.hashed req passwordHash)
  have h₁ : Step E J s .internal s₁ := .arrive
  have h₂ : Step E J s₁ .internal s₂ :=
    .check (by simp [s₁, set]) (by rw [show s₁.host = s.host from rfl, hi]; exact hc)
  have h₃ : Step E J s₂ .internal s₃ := .hash (by simp [s₂, set])
  have h₄ := @Step.setup _ E J s₃ s.started req passwordHash secret w (by simp [s₃, set])
  have hsave := save_done (h := s.host) hf ht hj
  have hok : (s₃.host.setup J w req passwordHash secret).1 = .ok () := setup_of_save hi hsave
  have hsaves : Saves J s₃ (.setup w req passwordHash secret)
      (s₃.answer s.started req passwordHash (s₃.host.setup J w req passwordHash secret).1
        (s₃.host.setup J w req passwordHash secret).2) := by
    rintro _ _ _ _ ⟨⟩ _
    exact hsave
  refine ⟨_, _, .stepL ⟨h₁, saves_internal⟩ (.stepL ⟨h₂, saves_internal⟩
    (.stepL ⟨h₃, saves_internal⟩ (.stepL ⟨h₄, hsaves⟩ .refl))), ?_⟩
  rw [hok]
  rfl

end Success

/-- Whatever the saves do, at most one setup is answered with success, and it is the one in memory
and on disk. If no setup's save fails, then up to that success nothing is set up and nothing has
changed, and a proper request can still succeed. -/
theorem setup_atomic (E : Env) (J : Json β) {s₀ s : Install β} {es : List Event}
    (hi : (system E J).Init s₀) (hr : (system E J).MTr s₀ es s) :
    s.granted.length ≤ 1 ∧
    (∀ req passwordHash, (req, passwordHash) ∈ s.granted →
      s.host.memory.SetBy req passwordHash ∧
        ∃ saved, load J s.host.disk = .ok saved ∧ saved.SetBy req passwordHash) ∧
    (((system E J).restrict (Saves J)).MTr s₀ es s → s.granted = [] →
      Pristine s₀.host.memory s ∧
      ∀ req domain passwordHash secret (w : Weather) data, req.check false = .ok domain →
        (∀ step, w.fault step = none) → s.host.disk (w.tmpPath stateFile) = none →
        J.toStringPretty (s.host.memory.setup req passwordHash secret) = .ok data →
        ∃ es t, ((system E J).restrict (Saves J)).MTr s es t ∧
          t.granted = [(req, passwordHash)]) := by
  have honce := once_run hi hr
  refine ⟨honce.most, fun req passwordHash hg => ⟨honce.memory _ hg, honce.disk _ hg⟩, ?_⟩
  intro hfair hnone
  have hp : Pristine s₀.host.memory s :=
    pristine_run (fun _ => ⟨hi.1, rfl, rfl, rfl⟩) hfair hnone
  refine ⟨hp, fun req domain passwordHash secret w data hc hf ht hj => ?_⟩
  obtain ⟨es', t, hrun, hgrant⟩ := setup_run (E := E) hp.initialized hc hf ht hj
  exact ⟨es', t, hrun, by rw [hgrant, hnone, List.nil_append]⟩

/-- Once it is set up in memory, nobody is granted anything any more. -/
theorem granted_of_initialized (hr : (system E J).MTr s es t)
    (hi : s.host.memory.initialized = true) : t.granted = s.granted := by
  induction hr with
  | refl => rfl
  | @stepL s t u e es hs _ ih =>
    have hkeep : t.host.memory.initialized = true ∧ t.granted = s.granted := by
      cases hs with
      | @setup i req passwordHash secret w hph =>
        simp only [Host.setup, hi, if_true]
        exact ⟨hi, rfl⟩
      | handler _ hs => exact ⟨(Host.kept_step hs).initialized.trans hi, rfl⟩
      | _ => exact ⟨hi, rfl⟩
    rw [ih hkeep.1, hkeep.2]

section Runs

def sampleSetup : SetupRequest := ⟨"Example.com", "correct horse battery", some "cf-token"⟩

/-- A server that has never been set up. -/
def blank : Install Saved := { host := ⟨{}, fun _ => none⟩ }

/-- The request has got to the write lock. -/
theorem blank_hashed : ∃ es s, ((system sampleEnv Host.sampleJson).restrict
      (Saves Host.sampleJson)).MTr blank es s ∧
    s.host = blank.host ∧ s.granted = [] ∧ s.requests 0 = .hashed sampleSetup "hash" := by
  let s₁ : Install Saved := { blank.set 0 (.arrived sampleSetup) with started := 1 }
  let s₂ := s₁.set 0 (.hashing sampleSetup)
  have h₁ : Step sampleEnv Host.sampleJson blank .internal s₁ := .arrive
  have hc : sampleSetup.check false = .ok "example.com" := rfl
  have h₂ : Step sampleEnv Host.sampleJson s₁ .internal s₂ := .check rfl hc
  have h₃ : Step sampleEnv Host.sampleJson s₂ .internal (s₂.set 0 (.hashed sampleSetup "hash")) :=
    .hash rfl
  exact ⟨_, _, .stepL ⟨h₁, saves_internal⟩ (.stepL ⟨h₂, saves_internal⟩
    (.stepL ⟨h₃, saves_internal⟩ .refl)), rfl, rfl, rfl⟩

/-- A first setup is granted, and then it is the one in memory and on disk. -/
theorem setup_atomic_first : ∃ es s, (system sampleEnv Host.sampleJson).MTr blank es s ∧
    s.granted = [(sampleSetup, "hash")] ∧ s.host.memory.SetBy sampleSetup "hash" ∧
    ∃ saved, load Host.sampleJson s.host.disk = .ok saved ∧ saved.SetBy sampleSetup "hash" := by
  have hinit : (system sampleEnv Host.sampleJson).Init blank := ⟨rfl, rfl⟩
  obtain ⟨hp, hcan⟩ := (setup_atomic sampleEnv Host.sampleJson hinit .refl).2.2 .refl rfl
  obtain ⟨es, s, hr, hg⟩ := hcan sampleSetup "example.com" "hash" "5ec7e7" { hex := "00ff" } _ rfl
    (fun _ => rfl) rfl rfl
  have hset := (setup_atomic sampleEnv Host.sampleJson hinit hr.of_restrict).2.1 sampleSetup "hash"
    (by simp [hg])
  exact ⟨es, s, hr.of_restrict, hg, hset⟩

/-- A setup whose save fails is answered with an error and stays in memory all the same. Nothing is
on disk, and every later setup is turned away. -/
theorem unsaved_setup_stays : ∃ es s, (system sampleEnv Host.sampleJson).Init blank ∧
    (system sampleEnv Host.sampleJson).MTr blank es s ∧ s.granted = [] ∧
    s.requests 0 = .answered (.error .internalServerError) ∧
    s.host.memory.SetBy sampleSetup "hash" ∧ load Host.sampleJson s.host.disk = .ok {} ∧
    ∀ es' t, (system sampleEnv Host.sampleJson).MTr s es' t → t.granted = [] := by
  obtain ⟨es, s, hr, hhost, hgrant, hreq⟩ := blank_hashed
  have hstep := @Step.setup _ sampleEnv Host.sampleJson s 0 sampleSetup "hash" "5ec7e7"
    { hex := "00ff", fault := fun step => if step = .writeAll then some .other else none } hreq
  rw [hhost] at hstep
  refine ⟨_, _, ⟨rfl, rfl⟩, hr.of_restrict.trans (.stepL hstep .refl), hgrant, ?_, ⟨rfl, rfl, rfl⟩,
    rfl, fun es' t ht => ?_⟩
  · simp [answer, set]
    rfl
  · exact (granted_of_initialized ht rfl).trans hgrant

end Runs

end Install

end X2rp.Admin
