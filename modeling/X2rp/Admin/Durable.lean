import X2rp.Admin.Disk
import X2rp.Admin.Stored

/-! The state in memory and the one on disk, from one admin request to the next. -/
namespace X2rp.Admin

open Files Proto

/-- What of a connector outlasts a restart by design: all but when it was last seen, which is never
saved on its own, and its transport preference, whose save may fail. -/
def Connector.lasting (c : Connector) : String × String × String := (c.id, c.name, c.tokenHash)

/-- The only change that a handler lets stand unsaved is to a transport preference. -/
theorem AppState.Begun.preference {E : Env} {s s' : AppState} {fresh : Fresh} {job : Job}
    {c : Commit} (h : Begun E s fresh job s' c) (hu : c.undo = none ∨ c.undo = some .keep) :
    ∃ id forceWss connector, job = .updateConnector id forceWss ∧
      s.connectors.lookup id = some connector ∧
      s' = { s with connectors := s.connectors.insert id { connector with forceWss } } := by
  cases h with
  | updateConnector hc => exact ⟨_, _, _, rfl, hc, rfl⟩
  | _ => simp at hu

namespace Saved

variable {s t u : Saved}

/-- Equal but for `last_seen` and `force_wss`. -/
structure Matches (s t : Saved) : Prop where
  resources : s.state.resources = t.state.resources
  domain : s.state.domain = t.state.domain
  connectors : ∀ id, (s.state.connectors.lookup id).map Connector.lasting =
    (t.state.connectors.lookup id).map Connector.lasting
  initialized : s.initialized = t.initialized
  serverConfig : s.serverConfig = t.serverConfig
  adminPasswordHash : s.adminPasswordHash = t.adminPasswordHash

theorem Matches.refl (s : Saved) : s.Matches s := ⟨rfl, rfl, fun _ => rfl, rfl, rfl, rfl⟩

theorem Matches.trans (h : s.Matches t) (h' : t.Matches u) : s.Matches u where
  resources := h.resources.trans h'.resources
  domain := h.domain.trans h'.domain
  connectors id := (h.connectors id).trans (h'.connectors id)
  initialized := h.initialized.trans h'.initialized
  serverConfig := h.serverConfig.trans h'.serverConfig
  adminPasswordHash := h.adminPasswordHash.trans h'.adminPasswordHash

/-- A record may be replaced by one that differs in those two fields only. -/
theorem matches_insert {id : String} {c c' : Connector} (s : Saved)
    (hc : s.state.connectors.lookup id = some c) (he : c'.lasting = c.lasting) :
    s.Matches { s with state := { s.state with
      connectors := s.state.connectors.insert id c' } } := by
  refine ⟨rfl, rfl, fun id' => ?_, rfl, rfl, rfl⟩
  by_cases hid : id' = id
  · subst hid
    simp [hc, he]
  · simp [Finmap.lookup_insert_of_ne _ hid]

end Saved

/-- The server's memory with the disk under it. -/
structure Host (β : Type) where
  memory : Saved
  disk : Disk String β

namespace Host

variable {β : Type} {E : Env} {J : Json β} {h t : Host β} {fresh : Fresh} {w : Weather} {job : Job}

/-- A handler under the write lock, to its answer. -/
def commit (E : Env) (J : Json β) (fresh : Fresh) (w : Weather) (job : Job) (h : Host β) :
    Except StatusCode Unit × Host β :=
  match h.memory.state.begin E fresh job with
  | .error status => (.error status, h)
  | .ok (state, c) =>
    let memory := { h.memory with state }
    match c.undo with
    | none => (.ok (), { h with memory })
    | some u =>
      match (memory.save J w).exec h.disk with
      | (.ok (), disk) => (.ok (), ⟨memory, disk⟩)
      | (.error _, disk) =>
        if u = .keep then (.ok (), ⟨memory, disk⟩)
        else (.error .internalServerError, ⟨{ memory with state := state.revert u }, disk⟩)

/-- A handler after `verify_admin`. An update reads its record in the state of an earlier moment,
`snapshot`. -/
def call (E : Env) (J : Json β) (fresh : Fresh) (w : Weather) (snapshot : AppState)
    (answer : Option (List SocketAddr)) (req : Request) (h : Host β) :
    Except StatusCode Unit × Host β :=
  match req.prepare E snapshot answer with
  | .error status => (.error status, h)
  | .ok job => h.commit E J fresh w job

/-- `set_last_seen`. -/
def touch (h : Host β) (id : String) (now : Nat) : Host β :=
  let server : Server := { state := h.memory.state, file := h.memory.state }
  { h with memory := { h.memory with state := (server.touch id now).state } }

/-- What `load` would read is what is in memory. -/
def InStep (J : Json β) (h : Host β) : Prop := ∃ s, load J h.disk = .ok s ∧ s.Matches h.memory

/-- How a handler can end under the lock. -/
inductive Answered (E : Env) (J : Json β) (fresh : Fresh) (w : Weather) (job : Job) (h : Host β) :
    Except StatusCode Unit → Host β → Prop
  | refused {status : StatusCode} (hb : h.memory.state.begin E fresh job = .error status) :
      Answered E J fresh w job h (.error status) h
  | unsaved {state : AppState} {c : Commit} (hb : h.memory.state.begin E fresh job = .ok (state, c))
      (hu : c.undo = none) :
      Answered E J fresh w job h (.ok ()) { h with memory := { h.memory with state } }
  | saved {state : AppState} {c : Commit} {u : Undo} {disk : Disk String β}
      (hb : h.memory.state.begin E fresh job = .ok (state, c)) (hu : c.undo = some u)
      (hl : load J disk = .ok { h.memory with state := state.loaded }) :
      Answered E J fresh w job h (.ok ()) ⟨{ h.memory with state }, disk⟩
  | ignored {state : AppState} {c : Commit} {disk : Disk String β}
      (hb : h.memory.state.begin E fresh job = .ok (state, c)) (hu : c.undo = some .keep)
      (hd : disk stateFile = h.disk stateFile) :
      Answered E J fresh w job h (.ok ()) ⟨{ h.memory with state }, disk⟩
  | reverted {state : AppState} {c : Commit} {u : Undo} {disk : Disk String β}
      (hb : h.memory.state.begin E fresh job = .ok (state, c)) (hu : c.undo = some u)
      (hk : u ≠ .keep) (hd : disk stateFile = h.disk stateFile ∨
        ¬ w.FairAfterRename ∧ load J disk = .ok { h.memory with state := state.loaded }) :
      Answered E J fresh w job h (.error .internalServerError)
        ⟨{ h.memory with state := state.revert u }, disk⟩

theorem commit_answered (E : Env) (J : Json β) (fresh : Fresh) (w : Weather) (job : Job)
    (h : Host β) :
    Answered E J fresh w job h (h.commit E J fresh w job).1 (h.commit E J fresh w job).2 := by
  unfold commit
  split
  · rename_i hb
    exact .refused hb
  · rename_i state c hb
    cases hu : c.undo with
    | none => exact .unsaved hb hu
    | some u =>
      have hends := Saved.save_ends J w { h.memory with state } h.disk
      unfold FileM.Ends at hends
      rcases hx : ({ h.memory with state } : Saved).save J w |>.exec h.disk with ⟨answer, disk⟩
      simp only [hx] at hends ⊢
      rcases hends with ⟨rfl, hl⟩ | ⟨⟨e, rfl⟩, hd⟩
      · exact .saved hb hu hl
      · by_cases hk : u = .keep
        · subst hk
          rcases hd with hd | ⟨-, hl⟩
          · exact .ignored hb hu hd
          · exact .saved hb hu hl
        · simp only [hk, if_false]
          exact .reverted hb hu hk hd

theorem load_congr {d d' : Disk String β} (hd : d stateFile = d' stateFile) :
    load J d = load J d' := by
  simp only [load, hd]

theorem normalizeDomain_of_load {d : Disk String β} {s : Saved} (hl : load J d = .ok s) :
    normalizeDomain s.state.domain = s.state.domain := by
  unfold load at hl
  split at hl
  · cases hl
    rfl
  · split at hl
    · cases hl
    · cases hl
      exact normalizeDomain_normalizeDomain _

/-- As the domain is in its stored form, loading a state that has been saved gives it back. -/
theorem InStep.loaded_eq (hs : h.InStep J) {state : AppState}
    (hd : state.domain = h.memory.state.domain) : state.loaded = state := by
  obtain ⟨s, hl, hm⟩ := hs
  have hn := normalizeDomain_of_load hl
  rw [hm.domain, ← hd] at hn
  simp only [AppState.loaded, hn]

namespace Answered

variable {answer : Except StatusCode Unit} {status : StatusCode}

section Errors

variable (hid : ∀ r ∈ h.memory.state.resources, r.id ≠ fresh.id)
  (hcid : fresh.id ∉ h.memory.state.connectors) (hw : w.FairAfterRename)
include hid hcid hw

/-- A handler that answers with an error has left memory and disk alone. -/
theorem of_error (ha : Answered E J fresh w job h (.error status) t) :
    t.memory = h.memory ∧ t.disk stateFile = h.disk stateFile := by
  cases ha with
  | refused => exact ⟨rfl, rfl⟩
  | reverted hb hu hk hd =>
    rw [(AppState.begun_of_begin hb).revert hid hcid hu hk]
    exact ⟨rfl, hd.resolve_right fun hn => hn.1 hw⟩

theorem inStep (ha : Answered E J fresh w job h answer t) (hs : h.InStep J) : t.InStep J := by
  cases ha with
  | refused => exact hs
  | unsaved hb hu =>
    obtain ⟨s, hl, hm⟩ := hs
    obtain ⟨id, forceWss, connector, -, hc, rfl⟩ :=
      (AppState.begun_of_begin hb).preference (.inl hu)
    exact ⟨s, hl, hm.trans (h.memory.matches_insert hc rfl)⟩
  | saved hb hu hl =>
    refine ⟨_, hl, ?_⟩
    rw [hs.loaded_eq (AppState.begun_of_begin hb).domain_eq]
    exact .refl _
  | ignored hb hu hd =>
    obtain ⟨s, hl, hm⟩ := hs
    obtain ⟨id, forceWss, connector, -, hc, rfl⟩ :=
      (AppState.begun_of_begin hb).preference (.inr hu)
    exact ⟨s, (load_congr hd).trans hl, hm.trans (h.memory.matches_insert hc rfl)⟩
  | reverted hb hu hk hd =>
    have hrev := of_error hid hcid hw (.reverted (J := J) hb hu hk hd)
    obtain ⟨s, hl, hm⟩ := hs
    exact ⟨s, (load_congr hrev.2).trans hl, hrev.1 ▸ hm⟩

end Errors

/-- A handler that answers with success has the new state on disk. -/
theorem of_ok (ha : Answered E J fresh w job h (.ok ()) t) (hs : h.InStep J)
    (hj : ∀ id forceWss, job ≠ .updateConnector id forceWss) : load J t.disk = .ok t.memory := by
  cases ha with
  | unsaved hb hu =>
    obtain ⟨id, forceWss, -, hjob, -⟩ := (AppState.begun_of_begin hb).preference (.inl hu)
    exact absurd hjob (hj id forceWss)
  | saved hb hu hl => rw [hl, hs.loaded_eq (AppState.begun_of_begin hb).domain_eq]
  | ignored hb hu =>
    obtain ⟨id, forceWss, -, hjob, -⟩ := (AppState.begun_of_begin hb).preference (.inr hu)
    exact absurd hjob (hj id forceWss)

end Answered

/-- The server of the interleaved model stands for the host: its state for the one in memory, its
file for what `load` reads. -/
structure Abstracts (J : Json β) (s : Server) (h : Host β) : Prop where
  state : s.state = h.memory.state
  file : ∃ m, load J h.disk = .ok m ∧ m.state = s.file.loaded

/-- What a handler does to memory and disk, whatever step of its save fails, is what the steps of the
server do to its state and its file, for which a save is one step. -/
theorem Answered.simulated {Init : Server → Prop} {s : Server} {before after : List Job}
    {answer : Except StatusCode Unit} (ha : Answered E J fresh w job h answer t)
    (hs : Abstracts J s h) (hl : s.holder = none) (hw : s.waiting = before ++ job :: after)
    (hid : ∀ r ∈ h.memory.state.resources, r.id ≠ fresh.id)
    (hcid : fresh.id ∉ h.memory.state.connectors) :
    ∃ es s', (Server.system E Init).MTr s es s' ∧ Abstracts J s' t ∧
      ∀ status, answer = .error status → .failed job status ∈ es := by
  obtain ⟨hstate, m, hm, hfile⟩ := hs
  rw [← hstate] at hid hcid
  cases ha with
  | refused hb =>
    rw [← hstate] at hb
    refine ⟨_, _, .stepL (.refuse hl hw hb) .refl, ⟨hstate, m, hm, hfile⟩, ?_⟩
    rintro _ ⟨⟩
    exact List.mem_singleton_self _
  | unsaved hb hu =>
    rw [← hstate] at hb
    exact ⟨_, _, .stepL (.begin hl hw hid hcid hb) .refl, ⟨rfl, m, hm, hfile⟩, by simp⟩
  | saved hb hu hnew =>
    rw [← hstate] at hb
    exact ⟨_, _, .stepL (.begin hl hw hid hcid hb) (.stepL (.saved rfl hu) .refl),
      ⟨rfl, _, hnew, rfl⟩, by simp⟩
  | ignored hb hu hd =>
    rw [← hstate] at hb
    exact ⟨_, _, .stepL (.begin hl hw hid hcid hb) (.stepL (.saveIgnored rfl hu) .refl),
      ⟨rfl, m, (load_congr hd).trans hm, hfile⟩, by simp⟩
  | reverted hb hu hk hd =>
    rw [← hstate] at hb
    have hjob := (AppState.begun_of_begin hb).job_eq
    have hbegin := Server.Step.begin hl hw hid hcid hb
    rcases hd with hd | ⟨-, hnew⟩
    · refine ⟨_, _, .stepL hbegin (.stepL (.saveFailed rfl hu hk) .refl),
        ⟨rfl, m, (load_congr hd).trans hm, hfile⟩, ?_⟩
      rintro _ ⟨⟩
      simp [hjob]
    · refine ⟨_, _, .stepL hbegin (.stepL (.saveUnsynced rfl hu hk) .refl),
        ⟨rfl, _, hnew, rfl⟩, ?_⟩
      rintro _ ⟨⟩
      simp [hjob]

/-- How a step shows. -/
inductive Event
  | call (req : Request) (w : Weather) (answer : Except StatusCode Unit)
  | seen

/-- The condition on a step: no save meets trouble after its rename. -/
def Event.Fair : Event → Prop
  | .call _ w _ => w.FairAfterRename
  | .seen => True

/-- Requests one after the other, and sessions in between. -/
inductive Step (E : Env) (J : Json β) : Host β → Event → Host β → Prop
  | call {h : Host β} {fresh : Fresh} {w : Weather} {snapshot : AppState}
      {addrs : Option (List SocketAddr)} {req : Request}
      (hid : ∀ r ∈ h.memory.state.resources, r.id ≠ fresh.id)
      (hcid : fresh.id ∉ h.memory.state.connectors) :
      Step E J h (.call req w (h.call E J fresh w snapshot addrs req).1)
        (h.call E J fresh w snapshot addrs req).2
  | setLastSeen {h : Host β} {id : String} {now : Nat} : Step E J h .seen (h.touch id now)

/-- The steps alone: the states in which they may start differ from property to property. -/
def system (E : Env) (J : Json β) (Init : Host β → Prop) : LTS (Host β) Event := ⟨Init, Step E J⟩

theorem matches_touch (h : Host β) (id : String) (now : Nat) :
    h.memory.Matches (h.touch id now).memory := by
  unfold touch
  rcases Server.touch_eq { state := h.memory.state, file := h.memory.state } id now with
    he | ⟨connector, hc, he⟩
  · simp only [he]
    exact .refl _
  · simp only [he]
    exact h.memory.matches_insert hc rfl

theorem inStep_step {e : Event} (hs : h.InStep J) (hstep : Step E J h e t) (hf : e.Fair) :
    t.InStep J := by
  cases hstep with
  | @call fresh w snapshot addrs req hid hcid =>
    unfold call
    split
    · exact hs
    · exact (commit_answered E J fresh w _ h).inStep hid hcid hf hs
  | @setLastSeen id now =>
    obtain ⟨s, hl, hm⟩ := hs
    exact ⟨s, hl, hm.trans (h.matches_touch id now)⟩

theorem inStep_run {Init : Host β → Prop} {es : List Event}
    (hr : ((system E J Init).restrict fun _ e _ => e.Fair).MTr h es t) (hs : h.InStep J) :
    t.InStep J := by
  induction hr with
  | refl => exact hs
  | stepL hstep _ ih => exact ih (inStep_step hs hstep.1 hstep.2)

/-- Unless a save meets trouble after its rename, memory and disk stay the same from request to
request. An error then means that both are as they were, and a success that the new state is on
disk; a transport preference need not be. -/
theorem saves_in_step (E : Env) (J : Json β) {Init : Host β → Prop} {h₀ h : Host β}
    {es : List Event} (hs : h₀.InStep J)
    (hr : ((system E J Init).restrict fun _ e _ => e.Fair).MTr h₀ es h) :
    h.InStep J ∧ ∀ req w answer t, Step E J h (.call req w answer) t → w.FairAfterRename →
      t.InStep J ∧
      (∀ status, answer = .error status →
        t.memory = h.memory ∧ t.disk stateFile = h.disk stateFile) ∧
      (answer = .ok () → (∀ id forceWss, req ≠ .updateConnector id forceWss) →
        load J t.disk = .ok t.memory) := by
  have hin := inStep_run hr hs
  refine ⟨hin, fun req w answer t hstep hw => ⟨inStep_step hin hstep hw, ?_, ?_⟩⟩
  · intro status ha
    cases hstep with
    | @call fresh w snapshot addrs req hid hcid =>
      unfold call at ha ⊢
      split at ha
      · exact ⟨rfl, rfl⟩
      · rename_i job hp
        have hans := commit_answered E J fresh w job h
        rw [ha] at hans
        simpa only using hans.of_error hid hcid hw
  · intro ha hreq
    cases hstep with
    | @call fresh w snapshot addrs req hid hcid =>
      unfold call at ha ⊢
      split at ha
      · cases ha
      · rename_i job hp
        have hans := commit_answered E J fresh w job h
        rw [ha] at hans
        refine hans.of_ok hin fun id forceWss hj => ?_
        subst hj
        cases prepared_of_prepare hp
        exact hreq _ _ rfl

/-- What no handler changes, in memory or on disk. -/
structure Kept (J : Json β) (h t : Host β) : Prop where
  domain : t.memory.state.domain = h.memory.state.domain
  initialized : t.memory.initialized = h.memory.initialized
  serverConfig : t.memory.serverConfig = h.memory.serverConfig
  adminPasswordHash : t.memory.adminPasswordHash = h.memory.adminPasswordHash
  disk : t.disk stateFile = h.disk stateFile ∨
    ∃ state : AppState, state.domain = h.memory.state.domain ∧
      load J t.disk = .ok { h.memory with state := state.loaded }

theorem Answered.kept {answer : Except StatusCode Unit}
    (ha : Answered E J fresh w job h answer t) : Kept J h t := by
  cases ha with
  | refused => exact ⟨rfl, rfl, rfl, rfl, .inl rfl⟩
  | unsaved hb hu => exact ⟨(AppState.begun_of_begin hb).domain_eq, rfl, rfl, rfl, .inl rfl⟩
  | saved hb hu hl =>
    have hd := (AppState.begun_of_begin hb).domain_eq
    exact ⟨hd, rfl, rfl, rfl, .inr ⟨_, hd, hl⟩⟩
  | ignored hb hu hd => exact ⟨(AppState.begun_of_begin hb).domain_eq, rfl, rfl, rfl, .inl hd⟩
  | reverted hb hu hk hd =>
    have hdom := (AppState.begun_of_begin hb).domain_eq
    refine ⟨(AppState.revert_domain _).trans hdom, rfl, rfl, rfl, hd.imp_right fun hd => ?_⟩
    exact ⟨_, hdom, hd.2⟩

theorem kept_step {e : Event} (hs : Step E J h e t) : Kept J h t := by
  cases hs with
  | @call fresh w snapshot addrs req hid hcid =>
    unfold call
    split
    · exact ⟨rfl, rfl, rfl, rfl, .inl rfl⟩
    · exact (commit_answered E J fresh w _ h).kept
  | @setLastSeen id now =>
    exact ⟨(h.matches_touch id now).domain.symm, rfl, rfl, rfl, .inl rfl⟩

section Runs

/-- Files that hold states as they are. -/
def sampleJson : Json Saved where
  toStringPretty s := .ok [s]
  fromSlice data := match data with
    | [s] => .ok s
    | _ => .error "expected one value"
  fromSlice_of_toStringPretty := by
    rintro s data ⟨⟩
    rfl

/-- A server with one resource, in memory and on disk. -/
def stocked : Host Saved :=
  let memory : Saved :=
    { state := { resources := [sampleResource], domain := "example.com" }, initialized := true }
  ⟨memory, Function.update (fun _ => none) stateFile (some [memory])⟩

theorem stocked_inStep : stocked.InStep sampleJson :=
  ⟨stocked.memory, rfl, .refl _⟩

/-- The server deletes its resource, in the given weather. -/
theorem stocked_delete (w : Weather) : Step sampleEnv sampleJson stocked
    (.call (.deleteResource "r1") w
      (stocked.call sampleEnv sampleJson ⟨"r2", ""⟩ w {} none (.deleteResource "r1")).1)
    (stocked.call sampleEnv sampleJson ⟨"r2", ""⟩ w {} none (.deleteResource "r1")).2 :=
  .call (by decide) Finmap.notMem_empty

/-- A deletion whose write fails leaves the resource where it was, in memory and on disk. -/
theorem saves_in_step_delete : ∃ t : Host Saved,
    Step sampleEnv sampleJson stocked (.call (.deleteResource "r1")
      { hex := "00ff", fault := fun step => if step = .writeAll then some .other else none }
      (.error .internalServerError)) t ∧
    t.memory.state.resources = [sampleResource] ∧ t.InStep sampleJson := by
  have hstep := stocked_delete
    { hex := "00ff", fault := fun step => if step = .writeAll then some .other else none }
  have hrun : ((system sampleEnv sampleJson fun _ => True).restrict fun _ e _ => e.Fair).MTr
      stocked [] stocked := .refl
  obtain ⟨hin, herr, -⟩ := (saves_in_step sampleEnv sampleJson stocked_inStep hrun).2 _ _ _ _ hstep
    ⟨rfl, rfl⟩
  exact ⟨_, hstep, by rw [(herr _ rfl).1]; rfl, hin⟩

/-- A deletion whose last fsync fails is taken back in memory and is on disk all the same. -/
theorem deleted_on_disk_only : ∃ t : Host Saved, stocked.InStep sampleJson ∧
    Step sampleEnv sampleJson stocked (.call (.deleteResource "r1")
      { hex := "00ff", fault := fun step => if step = .syncParent then some .other else none }
      (.error .internalServerError)) t ∧
    t.memory = stocked.memory ∧ t.memory.state.resources = [sampleResource] ∧
    (∃ s, load sampleJson t.disk = .ok s ∧ s.state.resources = []) ∧ ¬ t.InStep sampleJson := by
  have hstep := stocked_delete
    { hex := "00ff", fault := fun step => if step = .syncParent then some .other else none }
  have hload : load sampleJson (stocked.call sampleEnv sampleJson ⟨"r2", ""⟩
      { hex := "00ff", fault := fun step => if step = .syncParent then some .other else none } {}
      none (.deleteResource "r1")).2.disk =
      .ok { state := { domain := "example.com" }, initialized := true } := rfl
  refine ⟨_, stocked_inStep, hstep, rfl, rfl, ⟨_, hload, rfl⟩, ?_⟩
  rintro ⟨s, hl, hm⟩
  rw [hload] at hl
  cases hl
  exact absurd hm.resources (by decide)

end Runs

end Host

end X2rp.Admin
