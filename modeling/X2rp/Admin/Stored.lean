import X2rp.Admin.Commit

/-! What always holds of the stored state, whatever the handlers have seen of each other. -/
namespace X2rp.Admin

open Proto

variable {E : Env} {s s' : AppState} {fresh : Fresh} {job : Job} {c : Commit} {r : Resource}
  {answer : Option (List SocketAddr)} {vetted : Resource → Option (List SocketAddr)}

/-- What is asked of each resource on its own; `vetted` says which addresses its target has last
been validated with. -/
structure RecordOk (E : Env) (vetted : Resource → Option (List SocketAddr))
    (connectors : Finmap fun _ : String => Connector) (r : Resource) : Prop where
  label : SubdomainOk r.subdomain
  linked : ∀ id ∈ r.connectorId, id ∈ connectors
  target : TargetOk E (vetted r) r.target r.connectorId

namespace AppState

structure Integrity (E : Env) (vetted : Resource → Option (List SocketAddr)) (s : AppState) :
    Prop where
  subdomains : (s.resources.map fun r => toAsciiLowercase r.subdomain).Nodup
  names : ∀ id id' c c', s.connectors.lookup id = some c → s.connectors.lookup id' = some c' →
    c.name = c'.name → id = id'
  records : ∀ r ∈ s.resources, RecordOk E vetted s.connectors r

def DistinctIds (s : AppState) : Prop := (s.resources.map Resource.id).Nodup

/-- The part of it that is about names and ids only. -/
structure Named (s : AppState) : Prop where
  labels : ∀ r ∈ s.resources, SubdomainOk r.subdomain
  subdomains : (s.resources.map fun r => toAsciiLowercase r.subdomain).Nodup
  ids : (s.resources.map Resource.id).Nodup

theorem Integrity.named (h : s.Integrity E vetted) (hids : s.DistinctIds) : s.Named :=
  ⟨fun r hr => (h.records r hr).label, h.subdomains, hids⟩

end AppState

/-- What a handler knows of the name and the id of the record it is about to write. -/
structure Job.Named (job : Job) : Prop where
  labels : ∀ fresh r answer, job.writes fresh = some (r, answer) → SubdomainOk r.subdomain
  own : ∀ id req current answer, job = .updateResource id req current answer → current.id = id

/-- And of its target. -/
structure Job.Ok (E : Env) (job : Job) : Prop extends job.Named where
  targets : ∀ fresh r answer, job.writes fresh = some (r, answer) →
    TargetOk E answer r.target r.connectorId

section Prepare

theorem draft_ok {req : CreateResourceRequest} (h : req.draft E = .ok r) :
    SubdomainOk r.subdomain := by
  simp only [CreateResourceRequest.draft, bind, Except.bind] at h
  split at h
  · cases h
  · rename_i hv
    split at h
    · cases h
    · cases h
      exact subdomainOk_of_validate hv

theorem checked_ok {req req' : UpdateResourceRequest} (h : req.checked E = .ok req') :
    ∀ subdomain ∈ req'.subdomain, SubdomainOk subdomain := by
  intro subdomain hs
  cases hr : req.subdomain with
  | none =>
    simp only [UpdateResourceRequest.checked, hr, Option.map_none, bind, Except.bind] at h
    split at h
    · cases h
    · cases h
      cases hs
  | some given =>
    simp only [UpdateResourceRequest.checked, hr, Option.map_some, bind, Except.bind] at h
    split at h
    · cases h
    · rename_i hv
      split at h
      · cases h
      · cases h
        exact Option.mem_some_iff.mp hs ▸ subdomainOk_of_validate hv

theorem merge_subdomain {P : String → Prop} {req : UpdateResourceRequest} (hr : P r.subdomain)
    (h : ∀ subdomain ∈ req.subdomain, P subdomain) : P (req.merge r).subdomain := by
  cases hs : req.subdomain with
  | none => simpa [UpdateResourceRequest.merge, hs] using hr
  | some subdomain => simpa [UpdateResourceRequest.merge, hs] using h subdomain (by simp [hs])

/-- What the checks before the lock let through, each request with what it has passed. -/
inductive Prepared (E : Env) (s : AppState) (answer : Option (List SocketAddr)) :
    Request → Job → Prop
  | createResource {req : CreateResourceRequest} {draft : Resource} (hd : req.draft E = .ok draft)
      (hv : validateTarget E answer draft.target draft.connectorId = .ok ()) :
      Prepared E s answer (.createResource req) (.createResource draft answer)
  | updateResource {id : String} {req checked : UpdateResourceRequest} {current : Resource}
      (hc : req.checked E = .ok checked) (hmem : current ∈ s.resources) (hid : current.id = id)
      (hv : validateTarget E answer (checked.merge current).target
        (checked.merge current).connectorId = .ok ()) :
      Prepared E s answer (.updateResource id req) (.updateResource id checked current answer)
  | deleteResource {id : String} : Prepared E s answer (.deleteResource id) (.deleteResource id)
  | createConnector {name : String} (hn : isValidConnectorName E name = true) :
      Prepared E s answer (.createConnector name) (.createConnector name)
  | updateConnector {id : String} {forceWss : Bool} :
      Prepared E s answer (.updateConnector id forceWss) (.updateConnector id forceWss)
  | deleteConnector {id : String} : Prepared E s answer (.deleteConnector id) (.deleteConnector id)
  | regenerateConnectorToken {id : String} :
      Prepared E s answer (.regenerateConnectorToken id) (.regenerateConnectorToken id)

theorem prepared_of_prepare {req : Request} (h : req.prepare E s answer = .ok job) :
    Prepared E s answer req job := by
  cases req with
  | createResource req =>
    simp only [Request.prepare, bind, Except.bind] at h
    split at h
    · cases h
    · rename_i hd
      split at h
      · cases h
      · rename_i hv
        cases h
        exact .createResource hd hv
  | updateResource id req =>
    simp only [Request.prepare, bind, Except.bind] at h
    split at h
    · cases h
    · rename_i hc
      split at h
      · rename_i hf
        split at h
        · cases h
        · rename_i hv
          cases h
          have hid := List.find?_some hf
          exact .updateResource hc (List.mem_of_find?_eq_some hf) (eq_of_beq hid) hv
      · cases h
  | createConnector name =>
    simp only [Request.prepare] at h
    split at h
    · cases h
      exact .createConnector (by assumption)
    · cases h
  | deleteResource =>
    cases h
    exact .deleteResource
  | updateConnector =>
    cases h
    exact .updateConnector
  | deleteConnector =>
    cases h
    exact .deleteConnector
  | regenerateConnectorToken =>
    cases h
    exact .regenerateConnectorToken

theorem Prepared.named {req : Request} (h : Prepared E s answer req job) (hs : s.Named) :
    job.Named := by
  cases h with
  | createResource hd hv =>
    refine ⟨?_, by simp⟩
    rintro fresh r answer ⟨⟩
    exact (draft_ok hd :)
  | updateResource hc hmem hid hv =>
    refine ⟨?_, ?_⟩
    · rintro fresh r answer ⟨⟩
      exact merge_subdomain (hs.labels _ hmem) (checked_ok hc)
    · rintro _ _ _ _ ⟨⟩
      exact hid
  | _ => exact ⟨by simp [Job.writes], by simp⟩

theorem Prepared.ok {req : Request} (h : Prepared E s answer req job) (hs : s.Named) :
    job.Ok E := by
  refine ⟨h.named hs, ?_⟩
  cases h with
  | createResource hd hv =>
    rintro fresh r answer ⟨⟩
    exact targetOk_of_validateTarget hv
  | updateResource hc hmem hid hv =>
    rintro fresh r answer ⟨⟩
    exact targetOk_of_validateTarget hv
  | _ => simp [Job.writes]

end Prepare

namespace AppState

section Integrity

variable (h : s.Integrity E vetted)
include h

/-- A handler's own validation of a record may stand for the one before. -/
theorem Integrity.vet (hj : job.Ok E) : s.Integrity E (job.vet fresh vetted) := by
  refine ⟨h.subdomains, h.names, fun r hr => ?_⟩
  obtain ⟨hlabel, hlinked, htarget⟩ := h.records r hr
  refine ⟨hlabel, hlinked, ?_⟩
  unfold Job.vet
  cases hw : job.writes fresh with
  | none => exact htarget
  | some w =>
    by_cases he : r = w.1
    · subst he
      simpa using hj.targets fresh _ _ hw
    · simpa [Function.update_of_ne he] using htarget

/-- Resources change: their names stay distinct, and those that are new are all right. -/
theorem Integrity.resources {resources : List Resource}
    (hn : (resources.map fun r => toAsciiLowercase r.subdomain).Nodup)
    (hr : ∀ r ∈ resources, r ∈ s.resources ∨ RecordOk E vetted s.connectors r) :
    { s with resources }.Integrity E vetted :=
  ⟨hn, h.names, fun r hmem => (hr r hmem).elim (h.records r) id⟩

/-- A connector is entered, in a place of its own or in that of a namesake. -/
theorem Integrity.insertConnector {id : String} {connector : Connector}
    (hn : ∀ id' c, s.connectors.lookup id' = some c → c.name = connector.name → id' = id) :
    { s with connectors := s.connectors.insert id connector }.Integrity E vetted where
  subdomains := h.subdomains
  names id₁ id₂ c₁ c₂ h₁ h₂ he := by
    by_cases e₁ : id₁ = id <;> by_cases e₂ : id₂ = id
    · rw [e₁, e₂]
    · subst e₁
      rw [Finmap.lookup_insert, Option.some_inj] at h₁
      rw [Finmap.lookup_insert_of_ne _ e₂] at h₂
      exact (hn id₂ c₂ h₂ (h₁ ▸ he.symm)).symm
    · subst e₂
      rw [Finmap.lookup_insert, Option.some_inj] at h₂
      rw [Finmap.lookup_insert_of_ne _ e₁] at h₁
      exact hn id₁ c₁ h₁ (h₂ ▸ he)
    · rw [Finmap.lookup_insert_of_ne _ e₁] at h₁
      rw [Finmap.lookup_insert_of_ne _ e₂] at h₂
      exact h.names id₁ id₂ c₁ c₂ h₁ h₂ he
  records r hr := by
    obtain ⟨hlabel, hlinked, htarget⟩ := h.records r hr
    exact ⟨hlabel, fun id' hid => Finmap.mem_insert.mpr (.inr (hlinked id' hid)), htarget⟩

/-- A connector's record changes, but not its name. -/
theorem Integrity.setConnector {id : String} {old connector : Connector}
    (ho : s.connectors.lookup id = some old) (hc : connector.name = old.name) :
    { s with connectors := s.connectors.insert id connector }.Integrity E vetted :=
  h.insertConnector fun id' c hl he => h.names id' id c old hl ho (he.trans hc)

theorem Integrity.eraseConnector {id : String} (hn : ∀ r ∈ s.resources, r.connectorId ≠ some id) :
    { s with connectors := s.connectors.erase id }.Integrity E vetted where
  subdomains := h.subdomains
  names id₁ id₂ c₁ c₂ h₁ h₂ := by
    have hne : ∀ {id' c}, (s.connectors.erase id).lookup id' = some c →
        s.connectors.lookup id' = some c := by
      intro id' c hl
      by_cases he : id' = id
      · rw [he, Finmap.lookup_erase] at hl
        cases hl
      · rwa [Finmap.lookup_erase_ne he] at hl
    exact h.names id₁ id₂ c₁ c₂ (hne h₁) (hne h₂)
  records r hr := by
    obtain ⟨hlabel, hlinked, htarget⟩ := h.records r hr
    refine ⟨hlabel, fun id' hid => Finmap.mem_erase.mpr ⟨?_, hlinked id' hid⟩, htarget⟩
    rintro rfl
    exact hn r hr hid

theorem Integrity.loaded : s.loaded.Integrity E vetted := by
  simp only [AppState.loaded]
  exact ⟨h.subdomains, h.names, h.records⟩

end Integrity

theorem Named.loaded (h : s.Named) : s.loaded.Named := by
  simp only [AppState.loaded]
  exact ⟨h.labels, h.subdomains, h.ids⟩

/-- A handler's change keeps names and ids apart. -/
theorem Begun.named (h : Begun E s fresh job s' c) (hs : s.Named) (hj : job.Named)
    (hid : ∀ r ∈ s.resources, r.id ≠ fresh.id) : s'.Named := by
  obtain ⟨hlabels, hsubs, hids⟩ := hs
  cases h with
  | createResource hr hn hc =>
    subst hr
    refine ⟨fun r hr => ?_, View.nodup_map_push hsubs ?_, View.nodup_map_push hids fun b => hid b⟩
    · rcases List.mem_append.mp hr with hr | hr
      · exact hlabels r hr
      · exact List.mem_singleton.mp hr ▸ hj.labels fresh _ _ rfl
    · simpa [subdomainInUse, eqIgnoreAsciiCase] using hn
  | @updateResource _ _ current _ old _ _ hr hn hc hi hid' =>
    subst hr hid'
    have hown : current.id = old.id := hj.own _ _ current _ rfl
    refine ⟨fun r hr => ?_, View.nodup_map_set hsubs fun b hb => ?_,
      View.nodup_map_set hids fun b hb => ?_⟩
    · rcases List.mem_or_eq_of_mem_set hr with hr | rfl
      · exact hlabels r hr
      · exact hj.labels fresh _ _ rfl
    · -- The old record is the only one that the check for the name leaves out.
      have hne : b.id ≠ old.id := View.ne_of_mem_eraseIdx hids hi hb
      simp only [subdomainInUse, eqIgnoreAsciiCase, List.any_eq_false] at hn
      simpa [hne.symm] using hn b (List.mem_of_mem_eraseIdx hb)
    · exact (View.ne_of_mem_eraseIdx hids hi hb).trans_eq hown.symm
  | deleteResource =>
    exact ⟨fun r hr => hlabels r (List.mem_of_mem_eraseIdx hr), View.nodup_map_eraseIdx hsubs,
      View.nodup_map_eraseIdx hids⟩
  | _ => exact ⟨hlabels, hsubs, hids⟩

theorem unknownConnector_eq_false {connectorId : Option String}
    (h : s.unknownConnector connectorId = false) : ∀ id ∈ connectorId, id ∈ s.connectors := by
  rintro id rfl
  simpa [unknownConnector] using h

/-- A handler's change keeps the stored state in order. -/
theorem Begun.integrity (h : Begun E s fresh job s' c) (hi : s.Integrity E vetted)
    (hj : job.Ok E) (hnew : s'.Named) : s'.Integrity E (job.vet fresh vetted) := by
  have hi : s.Integrity E (job.vet fresh vetted) := hi.vet hj
  have hlabel := hj.labels fresh
  have htarget := hj.targets fresh
  cases h with
  | createResource hr hn hc =>
    subst hr
    refine hi.resources hnew.subdomains fun r hr => ?_
    rcases List.mem_append.mp hr with hr | hr
    · exact .inl hr
    · obtain rfl := List.mem_singleton.mp hr
      refine .inr ⟨hlabel _ _ rfl, unknownConnector_eq_false hc, ?_⟩
      simpa [Job.vet, Job.writes] using htarget _ _ rfl
  | updateResource hr hn hc hi' hid' =>
    subst hr
    refine hi.resources hnew.subdomains fun r hr => ?_
    rcases List.mem_or_eq_of_mem_set hr with hr | rfl
    · exact .inl hr
    · refine .inr ⟨hlabel _ _ rfl, unknownConnector_eq_false hc, ?_⟩
      simpa [Job.vet, Job.writes] using htarget _ _ rfl
  | deleteResource =>
    exact hi.resources hnew.subdomains fun _ hr => .inl (List.mem_of_mem_eraseIdx hr)
  | createConnector hc hn =>
    subst hc
    exact hi.insertConnector fun id c hl he => absurd he (hn id c hl)
  | updateConnector hc => exact hi.setConnector hc rfl
  | deleteConnector hn => exact hi.eraseConnector hn
  | regenerateConnectorToken hc hr =>
    subst hr
    exact hi.setConnector hc rfl

end AppState

namespace Server

variable {s t : Server} {e : Event} {Init : Server → Prop}
  {P : (Resource → Option (List SocketAddr)) → AppState → Prop} {Q : Job → Prop}

/-- A property holds of the state in memory, of the one on disk and of the one that a failed save
would bring back; it may depend on what the targets have been validated with. Another one holds of
the handlers that wait for the lock. -/
structure Throughout (P : (Resource → Option (List SocketAddr)) → AppState → Prop) (Q : Job → Prop)
    (s : Server) : Prop where
  state : P s.vetted s.state
  file : P s.vetted s.file
  undo : ∀ c u, s.holder = some c → c.undo = some u → P s.vetted (s.state.revert u)
  waiting : ∀ job ∈ s.waiting, Q job

/-- What passes its checks in a state of the one kind is a handler of the other, and such handlers
keep the state of its kind. -/
structure Upheld (E : Env) (P : (Resource → Option (List SocketAddr)) → AppState → Prop)
    (Q : Job → Prop) : Prop where
  prepared : ∀ {vetted s answer req job}, P vetted s → Prepared E s answer req job → Q job
  begun : ∀ {vetted s fresh job s' c}, P vetted s → Q job → (∀ r ∈ s.resources, r.id ≠ fresh.id) →
    AppState.Begun E s fresh job s' c → P (job.vet fresh vetted) s'
  vet : ∀ {vetted s fresh job}, P vetted s → Q job → P (job.vet fresh vetted) s
  touched : ∀ {vetted} {s : AppState} {id now} {connector : Connector}, P vetted s →
    s.connectors.lookup id = some connector → P vetted { s with
      connectors := s.connectors.insert id { connector with lastSeen := some now } }
  loaded : ∀ {vetted s}, P vetted s → P vetted s.loaded

theorem mem_of_mem_rest {job job' : Job} {before after : List Job} (h : job ∈ before ++ after) :
    job ∈ before ++ job' :: after := by
  simp only [List.mem_append, List.mem_cons] at h ⊢
  exact h.imp id .inr

/-- Without a change under way there is nothing to take back. -/
theorem Throughout.unlocked (h : Throughout P Q s) (hst : P t.vetted t.state) (hf : t.file = s.file)
    (hv : t.vetted = s.vetted) (hw : t.waiting = s.waiting)
    (hl : ∀ c, t.holder = some c → c.undo = none) : Throughout P Q t where
  state := hst
  file := by rw [hf, hv]; exact h.file
  undo c u hc hu := by simp [hl c hc] at hu
  waiting := hw ▸ h.waiting

theorem Throughout.step (hP : Upheld E P Q) (h : Throughout P Q s) (hs : Step E s e t) :
    Throughout P Q t := by
  cases hs with
  | request hl hp =>
    refine ⟨h.state, h.file, h.undo, fun job hj => ?_⟩
    rcases List.mem_append.mp hj with hj | hj
    · exact h.waiting job hj
    · exact List.mem_singleton.mp hj ▸ hP.prepared h.state (prepared_of_prepare hp)
  | begin hl hw hid hcid hb =>
    have hj := h.waiting _ (hw ▸ List.mem_append_right _ List.mem_cons_self)
    have hb := AppState.begun_of_begin hb
    have hnew := hP.begun h.state hj hid hb
    refine ⟨hnew, hP.vet h.file hj, ?_, fun job hmem => h.waiting job ?_⟩
    · rintro c u ⟨⟩ hu
      by_cases hk : u = .keep
      · subst hk
        exact hnew
      · rw [commit_state, hb.revert hid hcid hu hk]
        exact hP.vet h.state hj
    · rw [hw]
      exact mem_of_mem_rest hmem
  | refuse hl hw =>
    exact ⟨h.state, h.file, h.undo, fun job hmem => h.waiting job (hw ▸ mem_of_mem_rest hmem)⟩
  | abandon hw =>
    exact ⟨h.state, h.file, h.undo, fun job hmem => h.waiting job (hw ▸ mem_of_mem_rest hmem)⟩
  | saved hl hu => exact ⟨h.state, h.state, by rintro c u ⟨⟩ ⟨⟩, h.waiting⟩
  | saveFailed hl hu => exact h.unlocked (h.undo _ _ hl hu) rfl rfl rfl (by simp)
  | saveUnsynced hl hu => exact ⟨h.undo _ _ hl hu, h.state, by simp, h.waiting⟩
  | saveIgnored hl => exact h.unlocked h.state rfl rfl rfl (by simp)
  | effect hl hu =>
    exact h.unlocked (by simpa using h.state) (by simp) (by simp) (by simp) (by simpa)
  | finish hl => exact h.unlocked h.state rfl rfl rfl (by simp)
  | unlock hl => exact h.unlocked h.state rfl rfl rfl (by simp)
  | @setLastSeen k now hk hl =>
    rcases touch_eq s (s.sessions k).connectorId now with he | ⟨connector, hc, he⟩
    · rwa [he]
    · rw [he]
      exact h.unlocked (hP.touched h.state hc) rfl rfl rfl (by simp [hl])
  | restart => exact ⟨hP.loaded h.file, h.file, by simp, by simp⟩
  | _ => exact ⟨h.state, h.file, h.undo, h.waiting⟩

theorem upheld_named : Upheld E (fun _ s => s.Named) Job.Named where
  prepared h hp := hp.named h
  begun h hj hid hb := hb.named h hj hid
  vet h _ := h
  touched h _ := ⟨h.labels, h.subdomains, h.ids⟩
  loaded h := h.loaded

theorem upheld_integrity :
    Upheld E (fun vetted s => s.Integrity E vetted ∧ s.DistinctIds) (Job.Ok E) where
  prepared h hp := hp.ok (h.1.named h.2)
  begun h hj hid hb :=
    have hnew := hb.named (h.1.named h.2) hj.toNamed hid
    ⟨hb.integrity h.1 hj hnew, hnew.ids⟩
  vet h hj := ⟨h.1.vet hj, h.2⟩
  touched h hc := ⟨h.1.setConnector hc rfl, h.2⟩
  loaded h := ⟨h.1.loaded, (h.1.named h.2).loaded.ids⟩

/-- A server at rest whose state is in order in memory and on disk. -/
structure InOrder (E : Env) (s : Server) : Prop where
  waiting : s.waiting = []
  holder : s.holder = none
  state : s.state.Integrity E s.vetted ∧ s.state.DistinctIds
  file : s.file.Integrity E s.vetted ∧ s.file.DistinctIds

/-- Whatever else is asked of the start, the state is in order from there on. -/
theorem stored (h0 : ∀ s, Init s → InOrder E s) (h : (system E Init).Reachable s) :
    Throughout (fun vetted s => s.Integrity E vetted ∧ s.DistinctIds) (Job.Ok E) s := by
  refine h.invariant (fun s hs => ?_) fun _ _ _ h => h.step upheld_integrity
  obtain ⟨hw, hl, hstate, hfile⟩ := h0 s hs
  exact ⟨hstate, hfile, by simp [hl], by simp [hw]⟩

/-- However the handlers interleave and whatever their saves come to, the stored resources and
connectors stay in order. -/
theorem stored_integrity (E : Env) {s : Server} (h : (system E (InOrder E)).Reachable s) :
    s.state.Integrity E s.vetted ∧ s.state.DistinctIds :=
  (stored (fun _ => id) h).state

section Runs

def loopback : Option (List SocketAddr) := some [⟨.v4 (.new 127 0 0 1), 8080⟩]

def rename : Job := .updateResource "r1" { subdomain := some "web" } sampleResource loopback

theorem subdomainOk_app : SubdomainOk "app" := ⟨by decide, by decide, by decide, by decide⟩

theorem subdomainOk_web : SubdomainOk "web" := ⟨by decide, by decide, by decide, by decide⟩

/-- A server that has stored some resources and no connectors. -/
def holding (resources : List Resource) : Server :=
  { state := { resources, domain := "example.com" }, file := { resources, domain := "example.com" },
    vetted := fun _ => loopback }

def renamed : Resource := { sampleResource with subdomain := "web" }

/-- A rename, from its request to its change. -/
theorem rename_reachable (Init : Server → Prop) (rest : List Resource)
    (h : Init (holding (sampleResource :: rest))) (hid : ∀ r ∈ rest, r.id ≠ "r2")
    (hb : (holding (sampleResource :: rest)).state.begin sampleEnv ⟨"r2", ""⟩ rename =
      .ok ({ resources := renamed :: rest, domain := "example.com" }, c)) :
    ∃ t, (system sampleEnv Init).Reachable t ∧ t.state.resources = renamed :: rest := by
  have hq : (system sampleEnv Init).Reachable _ := .step (.init h) <|
    @Step.request sampleEnv _ (.updateResource "r1" { subdomain := some "web" }) rename loopback rfl rfl
  have hid' : ∀ r ∈ sampleResource :: rest, r.id ≠ "r2" := List.forall_mem_cons.mpr ⟨by decide, hid⟩
  exact ⟨_, hq.step <|
    @Step.begin _ _ _ [] [] ⟨"r2", ""⟩ _ _ rfl rfl hid' Finmap.notMem_empty hb, rfl⟩

theorem integrity_holding (resources : List Resource)
    (hn : (resources.map fun r => toAsciiLowercase r.subdomain).Nodup)
    (hr : ∀ r ∈ resources, SubdomainOk r.subdomain ∧ r.target = sampleResource.target ∧
      r.connectorId = none) :
    (holding resources).state.Integrity sampleEnv (holding resources).vetted where
  subdomains := hn
  names id id' c c' h := by cases h
  records r hmem := by
    obtain ⟨hl, ht, hc⟩ := hr r hmem
    refine ⟨hl, by simp [hc], ?_⟩
    rw [ht, hc]
    exact ⟨"127.0.0.1", 8080, false, _, rfl, by decide, rfl, by decide, by decide⟩

theorem inOrder_holding : InOrder sampleEnv (holding [sampleResource]) := by
  have hok := integrity_holding [sampleResource] (by decide)
    (by simp [sampleResource, subdomainOk_app])
  have hids : (holding [sampleResource]).state.DistinctIds := by
    unfold AppState.DistinctIds
    decide
  exact ⟨rfl, rfl, ⟨hok, hids⟩, hok, hids⟩

/-- A rename keeps the state in order. -/
theorem stored_integrity_renamed :
    ∃ s, (system sampleEnv (InOrder sampleEnv)).Reachable s ∧ s.state.resources = [renamed] ∧
      s.state.Integrity sampleEnv s.vetted ∧ s.state.DistinctIds := by
  obtain ⟨t, ht, hr⟩ := rename_reachable (InOrder sampleEnv) [] inOrder_holding (by simp) rfl
  exact ⟨t, ht, hr, stored_integrity sampleEnv ht⟩

/-- The handlers tell records apart by their ids. Of two records with one id, an update leaves
out both when it looks for its name in use, and a name comes to stand twice. -/
theorem integrity_lost_with_shared_id :
    ∃ s : Server, s.waiting = [] ∧ s.holder = none ∧ s.file = s.state ∧
      s.state.Integrity sampleEnv s.vetted ∧
      ∃ t, (system sampleEnv (· = s)).Reachable t ∧ ¬ t.state.Integrity sampleEnv t.vetted := by
  have hok := integrity_holding [sampleResource, renamed] (by decide)
    (by simp [sampleResource, renamed, subdomainOk_app, subdomainOk_web])
  obtain ⟨t, ht, hr⟩ := rename_reachable (· = holding [sampleResource, renamed]) [renamed] rfl
    (by decide) rfl
  refine ⟨_, rfl, rfl, rfl, hok, t, ht, fun h => ?_⟩
  have := h.subdomains
  rw [hr] at this
  simp at this

end Runs

end Server

end X2rp.Admin
