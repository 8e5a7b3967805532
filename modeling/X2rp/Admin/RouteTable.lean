import X2rp.Admin.Records

/-! The live route table, and the one that a restart would build. -/
namespace X2rp.Admin

open Proto View Schema

variable {E : Env} {s s' : AppState} {fresh : Fresh} {job : Job} {c : Commit} {u : Undo}
  {domain domain' : String} {routes : Routes} {full : Prop}

/-- What the effects that are still due will make of the routes. -/
def Routes.after (E : Env) (domain : String) (routes : Routes) : List Effect → Routes
  | [] => routes
  | .removeResource subdomain :: rest =>
    Routes.after E domain (routes.removeResource E domain subdomain) rest
  | .publish resource :: rest => Routes.after E domain (routes.publish E domain resource) rest
  | .unregister _ :: rest => Routes.after E domain routes rest

theorem routing_congr (h : normalizeDomain domain = normalizeDomain domain') :
    routing E domain = routing E domain' := by
  unfold routing
  simp only [Lowering.fqdn, h]

/-- Resources with different names have different hosts. -/
theorem AppState.Named.keyed (E : Env) (h : s.Named) (hd : isAscii s.domain) :
    (routing E s.domain).Keyed s.resources := by
  refine h.subdomains.of_map.map_on fun r hr r' hr' he => ?_
  have hr₀ := isAscii_of_validLabel (h.labels r hr).label
  have hr₁ := isAscii_of_validLabel (h.labels r' hr').label
  exact List.inj_on_of_nodup_map h.subdomains hr hr' ((E.fqdn_inj hr₀ hr₁ hd).mp he)

namespace AppState.Begun

theorem resources_of_saved (h : Begun E s fresh job s' c) (hu : c.undo = none) :
    s'.resources = s.resources := by
  cases h with
  | updateConnector => rfl
  | _ => cases hu

/-- What a handler does to the routes after its save brings them in line with its change. -/
theorem publishes (h : Begun E s fresh job s' c) (hk : (routing E s.domain).Keyed s.resources)
    (hk' : (routing E s.domain).Keyed s'.resources)
    (hs : (routing E s.domain).Shows full routes s.resources) :
    (routing E s.domain).Shows full (routes.after E s.domain c.effects) s'.resources := by
  cases h with
  | createResource =>
    simp only [Routes.after, publish_eq]
    exact hs.push hk'
  | updateResource hr hn hc hi hid =>
    simp only [Routes.after, publish_eq]
    exact hs.set hi hk hk'
  | deleteResource hi hid => exact hs.eraseIdx hi hk
  | updateConnector hc hu =>
    rcases hu with ⟨rfl, rfl⟩ | ⟨rfl, rfl⟩ <;> exact hs
  | _ => exact hs

end AppState.Begun

namespace Server

variable {s t : Server} {e : Event}

theorem apply_routes (s : Server) (x : Effect) (rest : List Effect) :
    (apply E s x).routes.after E s.state.domain rest =
      s.routes.after E s.state.domain (x :: rest) := by
  cases x <;> rfl

/-- Between two handlers the routes show the stored resources. A handler at its save has not touched
them, and one that has saved has the rest of its effects left to do. -/
structure Routed (E : Env) (s : Server) : Prop where
  ascii : isAscii s.state.domain ∧ isAscii s.file.domain
  domain : normalizeDomain s.file.domain = normalizeDomain s.state.domain
  idle : s.holder = none → (routing E s.state.domain).Shows s.booted s.routes s.state.resources
  due : ∀ c u, s.holder = some c → c.undo = some u →
    (routing E s.state.domain).Shows s.booted s.routes (s.state.revert u).resources
  effects : ∀ c, s.holder = some c → (routing E s.state.domain).Shows s.booted
    (s.routes.after E s.state.domain c.effects) s.state.resources
  quiet : ∀ c id, s.holder = some c → c.job = .regenerateConnectorToken id → c.effects = []

theorem routed_step (hq : s.state.Named) (hq' : t.state.Named) (h : Routed E s)
    (hs : Step E s e t) : Routed E t := by
  cases hs with
  | begin hl hw hid hcid hb =>
    have hb := AppState.begun_of_begin hb
    have hshows := h.idle hl
    have hk := hq.keyed E h.ascii.1
    have hk' := hq'.keyed E (hb.domain_eq ▸ h.ascii.1)
    simp only [commit_state, hb.domain_eq] at hk'
    refine ⟨?_, ?_, by simp, ?_, ?_, ?_⟩
    · simpa [hb.domain_eq] using h.ascii
    · simpa [hb.domain_eq] using h.domain
    · rintro c u ⟨⟩ hu
      simp only [commit_state, commit_routes, commit_booted, hb.domain_eq,
        hb.revert_resources hid hcid hu]
      exact hshows
    · rintro c ⟨⟩
      simpa [hb.domain_eq] using hb.publishes hk hk' hshows
    · rintro c id ⟨⟩ hj
      cases hb <;> first | rfl | cases hj
  | saved hl hu =>
    have heff := h.effects _ hl
    have hquiet := fun id => h.quiet _ id hl
    refine ⟨⟨h.ascii.1, h.ascii.1⟩, rfl, by simp, ?_, ?_, ?_⟩
    · rintro c u ⟨⟩ ⟨⟩
    · rintro c ⟨⟩
      exact heff
    · rintro _ id ⟨⟩ hj
      exact hquiet id hj
  | saveFailed hl hu =>
    refine ⟨?_, ?_, fun _ => ?_, by simp, by simp, by simp⟩
    · simpa only [AppState.revert_domain] using h.ascii
    · simpa only [AppState.revert_domain] using h.domain
    · simpa only [AppState.revert_domain] using h.due _ _ hl hu
  | saveUnsynced hl hu =>
    refine ⟨?_, ?_, fun _ => ?_, by simp, by simp, by simp⟩
    · simpa only [AppState.revert_domain] using ⟨h.ascii.1, h.ascii.1⟩
    · simp only [AppState.revert_domain]
    · simpa only [AppState.revert_domain] using h.due _ _ hl hu
  | saveIgnored hl hu =>
    have heff := h.effects _ hl
    have hquiet := fun id => h.quiet _ id hl
    refine ⟨h.ascii, h.domain, by simp, ?_, ?_, ?_⟩
    · rintro c u ⟨⟩ ⟨⟩
    · rintro c ⟨⟩
      exact heff
    · rintro _ id ⟨⟩ hj
      exact hquiet id hj
  | effect hl hu he =>
    have heff := h.effects _ hl
    rw [he] at heff
    refine ⟨by simpa using h.ascii, by simpa using h.domain, by simp, ?_, ?_, ?_⟩
    · rintro c u ⟨⟩ hu'
      simp [hu] at hu'
    · rintro c ⟨⟩
      simpa [apply_routes] using heff
    · rintro c id ⟨⟩ hj
      simpa [he] using h.quiet _ id hl hj
  | finish hl hu he =>
    have heff := h.effects _ hl
    rw [he] at heff
    exact ⟨h.ascii, h.domain, fun _ => heff, by simp, by simp, by simp⟩
  | unlock hl hu hj =>
    have heff := h.effects _ hl
    rw [h.quiet _ _ hl hj] at heff
    exact ⟨h.ascii, h.domain, fun _ => heff, by simp, by simp, by simp⟩
  | @setLastSeen k now hk hl =>
    rcases touch_eq s (s.sessions k).connectorId now with he | ⟨connector, hc, he⟩
    · rwa [he]
    · rw [he]
      exact ⟨h.ascii, h.domain, h.idle, by simp [hl], by simp [hl], by simp [hl]⟩
  | boot hb hl =>
    refine ⟨h.ascii, h.domain, fun _ => ?_, by simp [hl], by simp [hl], by simp [hl]⟩
    rw [loadRoutes_eq]
    exact (h.idle hl).fill (hq.keyed E h.ascii.1)
  | restart =>
    refine ⟨⟨isAscii_toAsciiLowercase (isAscii_trim h.ascii.2), h.ascii.2⟩, ?_, fun _ => ?_,
      by simp, by simp, by simp⟩
    · simp [AppState.loaded]
    · exact shows_nothing (by simp)
  | _ => exact ⟨h.ascii, h.domain, h.idle, h.due, h.effects, h.quiet⟩

/-- A server that starts on a state that has been set up. Of what is stored it asks only for proper
names, and that no two resources share a name or an id. -/
structure Starting (s : Server) : Prop where
  waiting : s.waiting = []
  holder : s.holder = none
  named : s.file.Named
  ascii : isAscii s.file.domain
  loaded : s.state = s.file.loaded
  routes : s.routes = fun _ => none
  booted : s.booted = false

theorem named (h : (system E Starting).Reachable s) :
    Throughout (fun _ s => s.Named) Job.Named s := by
  refine h.invariant (fun s hs => ?_) fun _ _ _ h => h.step upheld_named
  exact ⟨hs.loaded ▸ hs.named.loaded, hs.named, by simp [hs.holder], by simp [hs.waiting]⟩

theorem routed (h : (system E Starting).Reachable s) : Routed E s := by
  refine h.invariant_of (fun _ => named) (fun s h => ?_) fun _ _ _ hq hq' =>
    routed_step hq.state hq'.state
  have hl := h.holder
  refine ⟨⟨?_, h.ascii⟩, ?_, fun _ => ?_, by simp [hl], by simp [hl], by simp [hl]⟩
  · rw [h.loaded]
    exact isAscii_toAsciiLowercase (isAscii_trim h.ascii)
  · rw [h.loaded]
    simp [AppState.loaded]
  · rw [h.routes]
    exact shows_nothing (by simp [h.booted])

/-- The condition on a step: a save that fails has left the file as it was. -/
def FailsEarly (s : Server) (e : Event) (t : Server) : Prop :=
  ∀ job status, e = .failed job status → t.file = s.file

/-- The resources on disk are those in memory, or those that a failed save would bring back. -/
structure OnDisk (s : Server) : Prop where
  idle : s.holder = none → s.file.resources = s.state.resources
  due : ∀ c u, s.holder = some c → c.undo = some u → s.file.resources = (s.state.revert u).resources
  saved : ∀ c, s.holder = some c → c.undo = none → s.file.resources = s.state.resources

theorem onDisk_step (h : OnDisk s) (hs : Step E s e t) (he : FailsEarly s e t) : OnDisk t := by
  cases hs with
  | begin hl hw hid hcid hb =>
    have hb := AppState.begun_of_begin hb
    refine ⟨by simp, ?_, ?_⟩
    · rintro c u ⟨⟩ hu
      simp only [commit_state, commit_file, hb.revert_resources hid hcid hu]
      exact h.idle hl
    · rintro c ⟨⟩ hu
      simpa [hb.resources_of_saved hu] using h.idle hl
  | saved hl hu => exact ⟨by simp, by rintro c u ⟨⟩ ⟨⟩, fun _ _ _ => rfl⟩
  | saveFailed hl hu => exact ⟨fun _ => h.due _ _ hl hu, by simp, by simp⟩
  | saveUnsynced hl hu =>
    have hfile : s.state = s.file := he _ _ rfl
    exact ⟨fun _ => (congrArg AppState.resources hfile).trans (h.due _ _ hl hu), by simp, by simp⟩
  | saveIgnored hl hu => exact ⟨by simp, by rintro c u ⟨⟩ ⟨⟩, fun _ _ _ => h.due _ _ hl hu⟩
  | effect hl hu =>
    refine ⟨by simp, ?_, ?_⟩
    · rintro c u ⟨⟩ hu'
      simp [hu] at hu'
    · rintro c ⟨⟩ -
      simpa using h.saved _ hl hu
  | finish hl hu | unlock hl hu => exact ⟨fun _ => h.saved _ hl hu, by simp, by simp⟩
  | @setLastSeen k now hk hl =>
    rcases touch_eq s (s.sessions k).connectorId now with he | ⟨connector, hc, he⟩
    · rwa [he]
    · rw [he]
      exact ⟨h.idle, by simp [hl], by simp [hl]⟩
  | restart => exact ⟨fun _ => by simp [AppState.loaded], by simp, by simp⟩
  | _ => exact ⟨h.idle, h.due, h.saved⟩

theorem onDisk (h : ((system E Starting).restrict FailsEarly).Reachable s) : OnDisk s := by
  refine h.invariant (fun s hs => ?_) fun _ _ _ h hs => onDisk_step h hs.1 hs.2
  refine ⟨fun _ => ?_, by simp [hs.holder], by simp [hs.holder]⟩
  rw [hs.loaded]
  simp [AppState.loaded]

/-- The live route table is that of the enabled resources, and the one a restart would build as long
as no save has failed after it had replaced the file. -/
theorem routes_live (E : Env) {s : Server} (h : (system E Starting).Reachable s)
    (hb : s.booted = true) (hl : s.holder = none) :
    (∀ host resource, s.routes host = some resource ↔
      ∃ r ∈ s.state.resources, r.enabled = true ∧ E.fqdn s.state.domain r.subdomain = host ∧
        ProxyResource.fromResource E r = resource) ∧
    (((system E Starting).restrict FailsEarly).Reachable s →
      s.routes = loadRoutes E s.file.loaded fun _ => none) := by
  have hrouted := routed h
  have hshows := hrouted.idle hl
  refine ⟨fun host resource => hshows.eq_some_iff hb, fun hdisk => ?_⟩
  have hkeyed := (named h).state.keyed E hrouted.ascii.1
  have hd : routing E s.file.loaded.domain = routing E s.state.domain :=
    routing_congr (by simpa [AppState.loaded] using hrouted.domain)
  have hr : s.file.loaded.resources = s.state.resources := by
    simpa [AppState.loaded] using (onDisk hdisk).idle hl
  rw [loadRoutes_eq, hd, hr]
  exact hshows.unique ((shows_nothing not_false).fill hkeyed) hb

section Labels

variable {P : String → Prop}

/-- Some property of subdomains has them all: the stored ones, those that a handler has ready or
may bring back, and those of the routes. -/
structure Labels (P : String → Prop) (s : Server) : Prop where
  state : ∀ r ∈ s.state.resources, P r.subdomain
  file : ∀ r ∈ s.file.resources, P r.subdomain
  undo : ∀ c u, s.holder = some c → c.undo = some u →
    ∀ r ∈ (s.state.revert u).resources, P r.subdomain
  effects : ∀ c r, s.holder = some c → .publish r ∈ c.effects → P r.subdomain
  waiting : ∀ job ∈ s.waiting, ∀ fresh r answer, job.writes fresh = some (r, answer) →
    P r.subdomain
  routes : ∀ host r, s.routes host = some r → P r.subdomain

theorem writes_of_prepared {s : AppState} {answer answer' : Option (List SocketAddr)} {r : Resource}
    {req : Request} (hP : ∀ subdomain, SubdomainOk subdomain → P subdomain)
    (hs : ∀ r ∈ s.resources, P r.subdomain) (h : Prepared E s answer req job)
    (hw : job.writes fresh = some (r, answer')) : P r.subdomain := by
  cases h with
  | createResource hd =>
    cases hw
    exact hP _ (draft_ok hd :)
  | updateResource hc hmem =>
    cases hw
    exact merge_subdomain (hs _ hmem) fun subdomain h => hP _ (checked_ok hc subdomain h)
  | _ => cases hw

theorem labels_update {host : String} {v : Option ProxyResource}
    (h : ∀ host r, routes host = some r → P r.subdomain) (hv : ∀ r, v = some r → P r.subdomain) :
    ∀ host' r, Function.update routes host v host' = some r → P r.subdomain := by
  intro host' r hr
  by_cases he : host' = host
  · subst he
    rw [Function.update_self] at hr
    exact hv r hr
  · rw [Function.update_of_ne he] at hr
    exact h host' r hr

theorem labels_apply {x : Effect} (h : ∀ host r, s.routes host = some r → P r.subdomain)
    (hx : ∀ r, x = .publish r → P r.subdomain) :
    ∀ host r, (apply E s x).routes host = some r → P r.subdomain := by
  cases x with
  | removeResource => exact labels_update h (by simp)
  | publish r =>
    simp only [apply, Routes.publish]
    split
    · refine labels_update h ?_
      rintro _ ⟨⟩
      exact hx r rfl
    · exact labels_update h (by simp)
  | unregister => exact h

theorem labels_loadRoutes {s : AppState} (hs : ∀ r ∈ s.resources, P r.subdomain)
    (h : ∀ host r, routes host = some r → P r.subdomain) :
    ∀ host r, loadRoutes E s routes host = some r → P r.subdomain := by
  have hs : ∀ r ∈ s.resources.filter Resource.enabled, P r.subdomain :=
    fun r hr => hs r (List.mem_of_mem_filter hr)
  unfold loadRoutes
  generalize s.resources.filter Resource.enabled = l at hs
  induction l generalizing routes with
  | nil => exact h
  | cons r l ih =>
    rw [List.forall_mem_cons] at hs
    refine ih (labels_update h ?_) hs.2
    rintro _ ⟨⟩
    exact hs.1

theorem labels_step (hP : ∀ subdomain, SubdomainOk subdomain → P subdomain) (h : Labels P s)
    (hs : Step E s e t) : Labels P t := by
  have hold : Records (fun r => P r.subdomain) s :=
    ⟨h.state, h.file, h.undo, h.effects, h.waiting⟩
  have hnew := records_step hold hs fun req answer job hp _ fresh r answer' hw =>
    writes_of_prepared hP h.state hp hw
  refine ⟨hnew.state, hnew.file, hnew.undo, hnew.effects, hnew.waiting, ?_⟩
  cases hs with
  | effect hl hu he =>
    exact labels_apply h.routes fun r hr => h.effects _ r hl (he ▸ hr ▸ List.mem_cons_self)
  | @setLastSeen k now hk hl =>
    rcases touch_eq s (s.sessions k).connectorId now with he | ⟨connector, hc, he⟩
    · rw [he]
      exact h.routes
    · rw [he]
      exact h.routes
  | boot => exact labels_loadRoutes h.state h.routes
  | restart => exact nofun
  | _ => exact h.routes

end Labels

theorem starting_holding : Starting (holding [sampleResource]) where
  waiting := rfl
  holder := rfl
  named := inOrder_holding.file.1.named inOrder_holding.file.2
  ascii := by decide
  loaded := by rfl
  routes := rfl
  booted := rfl

/-- After a rename only the new name leads anywhere. -/
theorem routes_live_renamed :
    ∃ s, ((system sampleEnv Starting).restrict FailsEarly).Reachable s ∧
      s.state.resources = [renamed] ∧
      s.routes = loadRoutes sampleEnv s.file.loaded fun _ => none := by
  have h0 : ((system sampleEnv Starting).restrict FailsEarly).Reachable _ := .init starting_holding
  have h1 := h0.step ⟨.boot rfl rfl, fun _ _ h => Event.noConfusion h⟩
  have h2 := h1.step ⟨@Step.request sampleEnv _ (.updateResource "r1" { subdomain := some "web" })
    rename loopback rfl rfl, fun _ _ h => Event.noConfusion h⟩
  have h3 := h2.step ⟨@Step.begin _ _ _ [] [] ⟨"r2", ""⟩ _ _ rfl rfl (by decide) Finmap.notMem_empty
    rfl, fun _ _ h => Event.noConfusion h⟩
  have h4 := h3.step ⟨.saved rfl rfl, fun _ _ h => Event.noConfusion h⟩
  have h5 := h4.step ⟨.effect rfl rfl rfl, fun _ _ h => Event.noConfusion h⟩
  have h6 := h5.step ⟨.effect rfl rfl rfl, fun _ _ h => Event.noConfusion h⟩
  have h7 := h6.step ⟨.finish rfl rfl rfl (by simp [rename]), fun _ _ h => Event.noConfusion h⟩
  exact ⟨_, h7, rfl, (routes_live sampleEnv h7.of_restrict rfl rfl).2 h7⟩

end Server

end X2rp.Admin
