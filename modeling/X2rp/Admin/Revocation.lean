import X2rp.Admin.Commit

/-! Which sessions a revoked token leaves behind. A session's token is looked up in one step and
its manager is entered in the registry in another, and a revocation may fall in between. -/
namespace X2rp.Admin

variable {E : Env} {s s' : AppState} {fresh : Fresh} {job : Job} {c : Commit} {id hash : String}

/-- The two requests that end a token. -/
def Job.Revokes (job : Job) (id : String) : Prop :=
  job = .regenerateConnectorToken id ∨ job = .deleteConnector id

/-- Only a revocation takes a stored token away. -/
theorem AppState.Begun.tokenHash? (h : Begun E s fresh job s' c) (hcid : fresh.id ∉ s.connectors)
    (ht : s.tokenHash? id = some hash) : s'.tokenHash? id = some hash ∨ job.Revokes id := by
  have hne : ∀ {id' connector}, id ≠ id' → { s with
      connectors := s.connectors.insert id' connector }.tokenHash? id = some hash := by
    intro id' connector hne
    simpa only [AppState.tokenHash?, Finmap.lookup_insert_of_ne _ hne] using ht
  cases h with
  | createConnector hc hn =>
    refine .inl (hne ?_)
    rintro rfl
    simp [AppState.tokenHash?, Finmap.lookup_eq_none.mpr hcid] at ht
  | @updateConnector id' _ connector _ _ hc hu =>
    refine .inl ?_
    by_cases he : id = id'
    · subst he
      simpa [AppState.tokenHash?, hc] using ht
    · exact hne he
  | @deleteConnector id' connector hn hc =>
    by_cases he : id = id'
    · exact .inr (.inr (he ▸ rfl))
    · exact .inl (by simpa only [AppState.tokenHash?, Finmap.lookup_erase_ne he] using ht)
  | @regenerateConnectorToken id' connector renewed hc hr =>
    by_cases he : id = id'
    · exact .inr (.inl (he ▸ rfl))
    · exact .inl (hne he)
  | _ => exact .inl ht

theorem AppState.Begun.unregisters (h : Begun E s fresh (.deleteConnector id) s' c) :
    .unregister id ∈ c.effects := by
  cases h
  exact List.mem_singleton_self _

/-- Whether a handler's save fails or not, the tokens are as before if it fails. -/
theorem AppState.Begun.revert_tokenHash? {u : Undo} (h : Begun E s fresh job s' c)
    (hid : ∀ r ∈ s.resources, r.id ≠ fresh.id) (hcid : fresh.id ∉ s.connectors)
    (hu : c.undo = some u) (ht : s.tokenHash? id = some hash) :
    (s'.revert u).tokenHash? id = some hash := by
  by_cases hk : u = .keep
  · subst hk
    rcases h.tokenHash? hcid ht with ht | rfl | rfl
    · exact ht
    · cases h
      cases hu
    · cases h
      cases hu
  · rwa [h.revert hid hcid hu hk]

namespace Server

variable {s t : Server} {e : Event}

/-- A token of the connector is being revoked: a handler that does so holds the lock, or has
dropped it and is about to kick the session. -/
def Revoking (s : Server) (id : String) : Prop :=
  .regenerated id ∈ s.kicks ∨ ∃ c, s.holder = some c ∧ c.job.Revokes id

/-- A step that does not enter a session in the registry unless, at that moment, nobody holds the
state lock and the session's token is the stored one. -/
def RegistersValid (s : Server) (e : Event) (_ : Server) : Prop :=
  ∀ k, e = .register k → s.holder = none ∧
    s.state.tokenHash? (s.sessions k).connectorId = some (s.sessions k).tokenHash

/-- A registered session has the stored token, or the one that a failed save would bring back, or
it is about to be removed. -/
structure Current (s : Server) : Prop where
  known : ∀ id k, s.registry id = some k → k < s.started
  stored : ∀ id k, s.registry id = some k →
    s.state.tokenHash? id = some (s.sessions k).tokenHash ∨ s.Revoking id
  due : ∀ c u, s.holder = some c → c.undo = some u → ∀ id k, s.registry id = some k →
    (s.state.revert u).tokenHash? id = some (s.sessions k).tokenHash ∨ .regenerated id ∈ s.kicks
  deleted : ∀ c id, s.holder = some c → c.job = .deleteConnector id →
    .unregister id ∈ c.effects ∨ s.registry id = none

/-- Sessions may leave and others may come up to their registration. -/
theorem Current.of_fewer (h : Current s) (hstate : t.state = s.state) (hl : t.holder = s.holder)
    (hk : ∀ id, .regenerated id ∈ s.kicks → .regenerated id ∈ t.kicks ∨ t.registry id = none)
    (hr : ∀ id k, t.registry id = some k → s.registry id = some k)
    (hh : ∀ k < s.started, (t.sessions k).tokenHash = (s.sessions k).tokenHash)
    (hn : s.started ≤ t.started) : Current t where
  known id k hreg := Nat.lt_of_lt_of_le (h.known id k (hr id k hreg)) hn
  stored id k hreg := by
    rw [hstate, hh k (h.known id k (hr id k hreg))]
    rcases h.stored id k (hr id k hreg) with ht | hkick | hc
    · exact .inl ht
    · exact .inr (.inl ((hk id hkick).resolve_right (by simp [hreg])))
    · exact .inr (.inr (hl ▸ hc))
  due c u hc hu id k hreg := by
    rw [hstate, hh k (h.known id k (hr id k hreg))]
    refine (h.due c u (hl ▸ hc) hu id k (hr id k hreg)).imp_right fun hkick => ?_
    exact (hk id hkick).resolve_right (by simp [hreg])
  deleted c id hc hj := by
    refine (h.deleted c id (hl ▸ hc) hj).imp_right fun hnone => ?_
    cases hreg : t.registry id with
    | none => rfl
    | some k => simp [hr id k hreg] at hnone

/-- The handler with the lock goes on after its save. -/
theorem Current.forward {c' : Commit} (h : Current s) (hl : s.holder = some c)
    (hl' : t.holder = some c') (hj : c'.job = c.job) (hu : c'.undo = none)
    (hstate : t.state = s.state) (hk : t.kicks = s.kicks) (hsess : t.sessions = s.sessions)
    (hn : t.started = s.started) (hr : ∀ id k, t.registry id = some k → s.registry id = some k)
    (he : ∀ id, .unregister id ∈ c.effects → .unregister id ∈ c'.effects ∨ t.registry id = none) :
    Current t where
  known id k hreg := hn ▸ h.known id k (hr id k hreg)
  stored id k hreg := by
    rw [hstate, hsess]
    refine (h.stored id k (hr id k hreg)).imp_right fun hrev => ?_
    rcases hrev with hkick | ⟨c₀, hc₀, hrev⟩
    · exact .inl (hk ▸ hkick)
    · cases hl.symm.trans hc₀
      exact .inr ⟨c', hl', hj ▸ hrev⟩
  due c₀ u hc₀ hu₀ := by
    cases hl'.symm.trans hc₀
    cases hu.symm.trans hu₀
  deleted c₀ id hc₀ hdel := by
    cases hl'.symm.trans hc₀
    rcases h.deleted c id hl (hj ▸ hdel) with hmem | hnone
    · exact he id hmem
    · refine .inr ?_
      cases hreg : t.registry id with
      | none => rfl
      | some k => simp [hr id k hreg] at hnone

theorem setSession_tokenHash {k j : Nat} {phase : SessionPhase} :
    ((s.setSession k { s.sessions k with phase }).sessions j).tokenHash =
      (s.sessions j).tokenHash := by
  simp only [setSession, Function.update_apply]
  split
  · rename_i he
    rw [he]
  · rfl

theorem unregister_registry {id' : String} {k : Nat} :
    (s.unregister id).registry id' = some k ↔ id' ≠ id ∧ s.registry id' = some k := by
  simp only [unregister, Managers.unregister, Function.update_apply]
  split <;> simp_all

theorem current_step (h : Current s) (hs : Step E s e t) (hv : RegistersValid s e t) :
    Current t := by
  cases hs with
  | begin hl hw hid hcid hb =>
    have hb := AppState.begun_of_begin hb
    have hidle : ∀ id k, s.registry id = some k →
        s.state.tokenHash? id = some (s.sessions k).tokenHash ∨ .regenerated id ∈ s.kicks := by
      intro id k hr
      simpa [Revoking, hl] using h.stored id k hr
    refine ⟨h.known, fun id k hr => ?_, ?_, ?_⟩
    · rcases hidle id k hr with ht | hk
      · rcases hb.tokenHash? hcid ht with ht | hj
        · exact .inl ht
        · exact .inr (.inr ⟨_, rfl, hb.job_eq ▸ hj⟩)
      · exact .inr (.inl hk)
    · rintro c u ⟨⟩ hu id k hr
      exact (hidle id k hr).imp_left fun ht => hb.revert_tokenHash? hid hcid hu ht
    · rintro c id ⟨⟩ hj
      obtain rfl := hb.job_eq.symm.trans hj
      exact .inl hb.unregisters
  | saved hl hu => exact h.forward hl rfl rfl rfl rfl rfl rfl rfl (fun _ _ => id) fun _ => .inl
  | saveIgnored hl hu => exact h.forward hl rfl rfl rfl rfl rfl rfl rfl (fun _ _ => id) fun _ => .inl
  | saveFailed hl hu | saveUnsynced hl hu =>
    refine ⟨h.known, fun id k hr => ?_, by simp, by simp⟩
    exact (h.due _ _ hl hu id k hr).imp_right .inl
  | @effect _ x rest hl hu he =>
    refine h.forward hl rfl rfl hu (by simp) (by simp) (by simp) (by simp) (fun id k hr => ?_)
      fun id hmem => ?_
    · cases x with
      | unregister id' => exact (unregister_registry.mp hr).2
      | _ => exact hr
    · rw [he] at hmem
      rcases List.mem_cons.mp hmem with rfl | hmem
      · exact .inr (by simp [apply, unregister, Managers.unregister])
      · exact .inl hmem
  | finish hl hu he hj =>
    refine ⟨h.known, fun id k hr => ?_, by simp, by simp⟩
    rcases h.stored id k hr with ht | hkick | ⟨c', hc', hrev⟩
    · exact .inl ht
    · exact .inr (.inl hkick)
    · cases hl.symm.trans hc'
      have hdel := h.deleted _ id hl (hrev.resolve_left (hj id))
      rw [he] at hdel
      cases (hdel.resolve_left List.not_mem_nil).symm.trans hr
  | unlock hl hu hj =>
    refine ⟨h.known, fun id k hr => ?_, by simp, by simp⟩
    rcases h.stored id k hr with ht | hkick | ⟨c', hc', hrev⟩
    · exact .inl ht
    · exact .inr (.inl (List.mem_append_left _ hkick))
    · cases hl.symm.trans hc'
      refine .inr (.inl (List.mem_append_right _ ?_))
      rcases hrev with hrev | hrev
      · cases hj.symm.trans hrev
        exact List.mem_singleton_self _
      · cases hj.symm.trans hrev
  | @regenerated id hk =>
    refine h.of_fewer rfl rfl (fun id' hkick => ?_) (fun id' k hr => (unregister_registry.mp hr).2)
      (fun _ _ => rfl) (Nat.le_refl _)
    by_cases he : id' = id
    · subst he
      exact .inr (by simp [unregister, Managers.unregister])
    · exact .inl ((List.mem_erase_of_ne (by simpa using he)).mpr hkick)
  | connectorDisconnect hl ht =>
    exact h.of_fewer rfl rfl (fun _ hk => .inl (List.mem_append_left _ hk)) (fun _ _ => id)
      (fun _ _ => rfl) (Nat.le_refl _)
  | disconnect hk =>
    exact h.of_fewer rfl rfl (fun _ hkick => .inl ((List.mem_erase_of_ne (by simp)).mpr hkick))
      (fun _ _ hr => (unregister_registry.mp hr).2) (fun _ _ => rfl) (Nat.le_refl _)
  | authenticate hl ht =>
    refine h.of_fewer rfl rfl (fun _ => .inl) (fun _ _ => id) (fun k hk => ?_) (Nat.le_succ _)
    simp [setSession, Function.update_of_ne (Nat.ne_of_lt hk)]
  | @register k hk hp =>
    obtain ⟨hl, ht⟩ := hv k rfl
    have hreg : ∀ id j, (s.registry.register (s.sessions k).connectorId k).1 id = some j →
        id = (s.sessions k).connectorId ∧ j = k ∨ s.registry id = some j := by
      intro id j hr
      simp only [Managers.register, Function.update_apply] at hr
      split at hr
      · exact .inl ⟨‹_›, (Option.some_inj.mp hr).symm⟩
      · exact .inr hr
    refine ⟨fun id j hr => ?_, fun id j hr => ?_, by simp [setSession, hl], by simp [setSession, hl]⟩
    · rcases hreg id j hr with ⟨-, rfl⟩ | hr
      · exact hk
      · exact h.known id j hr
    · rw [setSession_tokenHash]
      rcases hreg id j hr with ⟨rfl, rfl⟩ | hr
      · exact .inl ht
      · exact h.stored id j hr
  | giveUp hp =>
    exact h.of_fewer rfl rfl (fun _ => .inl) (fun _ _ => id) (fun _ _ => setSession_tokenHash)
      (Nat.le_refl _)
  | leave hp =>
    refine h.of_fewer rfl rfl (fun _ => .inl) (fun id j hr => ?_) (fun _ _ => setSession_tokenHash)
      (Nat.le_refl _)
    simp only [Managers.unregisterManager_fst] at hr
    split at hr
    · cases hr
    · exact hr
  | @setLastSeen k now hk hl =>
    rcases touch_eq s (s.sessions k).connectorId now with he | ⟨connector, hc, he⟩
    · rwa [he]
    · rw [he]
      refine ⟨h.known, fun id j hr => ?_, by simp [hl], by simp [hl]⟩
      refine (h.stored id j hr).imp_left fun ht => ?_
      by_cases hid : id = (s.sessions k).connectorId
      · subst hid
        simpa [AppState.tokenHash?, hc] using ht
      · simpa only [AppState.tokenHash?, Finmap.lookup_insert_of_ne _ hid] using ht
  | restart => exact ⟨by simp, by simp, by simp, by simp⟩
  | _ =>
    exact h.of_fewer rfl rfl (fun _ => .inl) (fun _ _ => id) (fun _ _ => rfl) (Nat.le_refl _)

/-- In every run in which sessions are entered with the stored token only, under the lock, a
registered session has the stored token in all states, unless a revocation is just under way. -/
theorem revocation_final (E : Env) {s : Server}
    (h : ((system E fun s => s.holder = none ∧ s.registry = fun _ => none).restrict
      RegistersValid).Reachable s) {id : String} {k : Nat} (hr : s.registry id = some k)
    (hn : ¬ s.Revoking id) : s.state.tokenHash? id = some (s.sessions k).tokenHash := by
  have hc : Current s := by
    refine h.invariant (fun s hs => ?_) fun s e t hc hs => current_step hc hs.1 hs.2
    exact ⟨by simp [hs.2], by simp [hs.2], by simp [hs.1], by simp [hs.1]⟩
  exact (hc.stored id k hr).resolve_right hn

/-- A server with one connector. -/
def connected : Server :=
  { state := { connectors := Finmap.insert "c1" sampleConnector ∅ }
    file := { connectors := Finmap.insert "c1" sampleConnector ∅ } }

theorem fromToken_connected :
    connected.state.ConnectorFromToken sampleEnv "token-1" sampleConnector :=
  ⟨⟨"c1", Finmap.lookup_insert _⟩, rfl⟩

theorem notMem_connected : "r2" ∉ connected.state.connectors := fun h =>
  (Finmap.mem_insert.mp h).elim (by decide) Finmap.notMem_empty

/-- What `regenerate_connector_token` makes of it. -/
def reissued : Connector := { sampleConnector with tokenHash := sampleEnv.hashToken "token-2" }

/-- A session is registered, its token is regenerated, which ends it, and the next one comes in with
the new token. -/
theorem revocation_final_reissued : ∃ es s,
    ((system sampleEnv fun s => s.holder = none ∧ s.registry = fun _ => none).restrict
      RegistersValid).MTr connected es s ∧ .done (.regenerateConnectorToken "c1") ∈ es ∧
    s.registry "c1" = some 1 ∧ ¬ s.Revoking "c1" ∧
    s.state.tokenHash? "c1" = some (s.sessions 1).tokenHash := by
  have hinit : ((system sampleEnv fun s => s.holder = none ∧ s.registry = fun _ => none).restrict
      RegistersValid).Reachable connected := .init ⟨rfl, rfl⟩
  have hfrom : { connected.state with connectors :=
      connected.state.connectors.insert "c1" reissued }.ConnectorFromToken sampleEnv "token-2"
        reissued := ⟨⟨"c1", Finmap.lookup_insert _⟩, rfl⟩
  obtain ⟨es, s, hrun, hdone, hreg, hidle⟩ : ∃ es s,
      ((system sampleEnv fun s => s.holder = none ∧ s.registry = fun _ => none).restrict
        RegistersValid).MTr connected es s ∧ .done (.regenerateConnectorToken "c1") ∈ es ∧
      s.registry "c1" = some 1 ∧ ¬ s.Revoking "c1" := by
    refine ⟨_, _, .stepL ⟨@Step.authenticate _ _ .wss _ _ rfl fromToken_connected,
        fun _ h => Event.noConfusion h⟩ <|
      .stepL ⟨@Step.register _ _ 0 (by decide) rfl, by rintro k ⟨⟩; exact ⟨rfl, rfl⟩⟩ <|
      .stepL ⟨@Step.request _ _ (.regenerateConnectorToken "c1") _ none rfl rfl,
        fun _ h => Event.noConfusion h⟩ <|
      .stepL ⟨@Step.begin _ _ _ [] [] ⟨"r2", "token-2"⟩ _ _ rfl rfl ?_ notMem_connected rfl,
        fun _ h => Event.noConfusion h⟩ <|
      .stepL ⟨.saved rfl rfl, fun _ h => Event.noConfusion h⟩ <|
      .stepL ⟨.unlock rfl rfl rfl, fun _ h => Event.noConfusion h⟩ <|
      .stepL ⟨@Step.regenerated _ _ "c1" (List.mem_singleton_self _),
        fun _ h => Event.noConfusion h⟩ <|
      .stepL ⟨@Step.authenticate _ _ .wss _ _ rfl hfrom, fun _ h => Event.noConfusion h⟩ <|
      .stepL ⟨@Step.register _ _ 1 (by decide) rfl, by rintro k ⟨⟩; exact ⟨rfl, rfl⟩⟩ .refl,
      by decide, rfl, ?_⟩
    · simp [connected, setSession]
    · rintro (hk | ⟨c, ⟨⟩, -⟩)
      exact absurd hk (by decide)
  exact ⟨es, s, hrun, hdone, hreg, hidle,
    revocation_final sampleEnv (hinit.trans hrun) hreg hidle⟩

/-- A session authenticates, its token is regenerated, the handler kicks whoever is registered and
answers, and only then does the session register, with a token that is gone. -/
theorem stale_session_after_regeneration :
    ∃ es t, (system sampleEnv (· = connected)).MTr connected es t ∧
      .done (.regenerateConnectorToken "c1") ∈ es ∧ t.registry "c1" = some 0 ∧ ¬ t.Revoking "c1" ∧
      t.state.tokenHash? "c1" ≠ some (t.sessions 0).tokenHash := by
  have h1 : Step sampleEnv connected .internal _ :=
    @Step.authenticate _ _ .wss _ _ rfl fromToken_connected
  refine ⟨_, _, .stepL h1 <|
    .stepL (@Step.request _ _ (.regenerateConnectorToken "c1") _ none rfl rfl) <|
    .stepL (@Step.begin _ _ _ [] [] ⟨"r2", "token-2"⟩ _ _ rfl rfl ?_ ?_ rfl) <|
    .stepL (.saved rfl rfl) <| .stepL (.unlock rfl rfl rfl) <|
    .stepL (@Step.regenerated _ _ "c1" (List.mem_singleton_self _)) <|
    .stepL (@Step.register _ _ 0 (by decide) rfl) .refl, by decide, rfl, ?_, ?_⟩
  · simp [connected, setSession]
  · exact notMem_connected
  · rintro (hk | ⟨c, ⟨⟩, -⟩)
    exact absurd hk (by decide)
  · decide

end Server

end X2rp.Admin
