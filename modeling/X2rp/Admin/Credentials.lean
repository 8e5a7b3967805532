import X2rp.Admin.Revocation

/-! The stored tokens over whole runs, with the failed saves and restarts that bring old ones back:
whom a token names, and how long it does. -/
namespace X2rp.Admin

variable {E : Env} {id hash : String}

abbrev Connectors := Finmap fun _ : String => Connector

/-- The property does not depend on when connectors were last seen. -/
def Untouched (P : Connectors → Prop) : Prop :=
  ∀ m id connector now, m.lookup id = some connector → P m →
    P (m.insert id { connector with lastSeen := some now })

/-- The stored hash under an id. -/
def Connectors.hash? (m : Connectors) (id : String) : Option String :=
  (m.lookup id).map Connector.tokenHash

theorem hash?_touched {m : Connectors} {connector : Connector} {now : Nat}
    (hc : m.lookup id = some connector) :
    Connectors.hash? (m.insert id { connector with lastSeen := some now }) = Connectors.hash? m := by
  funext id'
  by_cases he : id' = id
  · subst he
    simp [Connectors.hash?, hc]
  · simp [Connectors.hash?, Finmap.lookup_insert_of_ne _ he]

theorem untouched_of_hash? {P : (String → Option String) → Prop} :
    Untouched fun m => P (Connectors.hash? m) := by
  intro m id connector now hc h
  rwa [hash?_touched hc]

theorem loaded_connectors (s : AppState) : s.loaded.connectors = s.connectors := by
  simp only [AppState.loaded]

/-- A change makes at most one connector's token another. -/
theorem AppState.Begun.hash?_eq {s s' : AppState} {fresh : Fresh} {job : Job} {c : Commit}
    (h : Begun E s fresh job s' c) : ∃ id₀, ∀ id, id ≠ id₀ → s'.tokenHash? id = s.tokenHash? id := by
  cases h with
  | createConnector hc hn =>
    exact ⟨fresh.id, fun id hne => by simp [AppState.tokenHash?, Finmap.lookup_insert_of_ne _ hne]⟩
  | @updateConnector id' _ connector _ _ hc hu =>
    exact ⟨id', fun id hne => by simp [AppState.tokenHash?, Finmap.lookup_insert_of_ne _ hne]⟩
  | @deleteConnector id' connector hn hc =>
    exact ⟨id', fun id hne => by simp [AppState.tokenHash?, Finmap.lookup_erase_ne hne]⟩
  | @regenerateConnectorToken id' connector renewed hc hr =>
    exact ⟨id', fun id hne => by simp [AppState.tokenHash?, Finmap.lookup_insert_of_ne _ hne]⟩
  | _ => exact ⟨"", fun _ _ => rfl⟩

/-- Each record is stored under its own id. -/
def Keyed (m : Connectors) : Prop := ∀ id connector, m.lookup id = some connector → connector.id = id

theorem keyed_insert {m : Connectors} {connector : Connector} (h : Keyed m)
    (hid : connector.id = id) : Keyed (m.insert id connector) := by
  intro id' connector' hc
  by_cases he : id' = id
  · subst he
    rw [Finmap.lookup_insert, Option.some_inj] at hc
    exact hc ▸ hid
  · rw [Finmap.lookup_insert_of_ne _ he] at hc
    exact h id' connector' hc

theorem AppState.Begun.keyed {s s' : AppState} {fresh : Fresh} {job : Job} {c : Commit}
    (h : Begun E s fresh job s' c) (hk : Keyed s.connectors) : Keyed s'.connectors := by
  cases h with
  | createConnector hc hn => exact keyed_insert hk (by rw [hc])
  | updateConnector hc hu => exact keyed_insert hk (hk _ _ hc :)
  | @deleteConnector id' connector hn hc =>
    intro id connector hc
    by_cases he : id = id'
    · subst he
      simp [Finmap.lookup_erase] at hc
    · rw [Finmap.lookup_erase_ne he] at hc
      exact hk id connector hc
  | regenerateConnectorToken hc hr => exact keyed_insert hk (by rw [hr]; exact (hk _ _ hc :))
  | _ => exact hk

/-- No two connectors have the same token. -/
def Distinct (tokens : String → Option String) : Prop :=
  ∀ id id' hash, tokens id = some hash → tokens id' = some hash → id = id'

namespace Server

variable {s t : Server} {e : Event} {P : Connectors → Prop}

/-- A property of the connectors that holds in memory, on disk, and of what a failed save would
bring back. -/
structure Everywhere (P : Connectors → Prop) (s : Server) : Prop where
  memory : P s.state.connectors
  disk : P s.file.connectors
  undone : ∀ c u, s.holder = some c → c.undo = some u → P (s.state.revert u).connectors

/-- What the handlers' changes keep holds everywhere: no failed save and no restart can undo it. -/
theorem Everywhere.step (h : Everywhere P s) (hs : Step E s e t) (hT : Untouched P)
    (hb : ∀ job, e = .begin job → P t.state.connectors) : Everywhere P t := by
  cases hs with
  | @begin job before after fresh state c hl hw hid hcid hbegin =>
    refine ⟨hb job rfl, h.disk, ?_⟩
    rintro c' u ⟨⟩ hu
    by_cases hk : u = .keep
    · subst hk
      exact hb job rfl
    · rw [commit_state, (AppState.begun_of_begin hbegin).revert hid hcid hu hk]
      exact h.memory
  | saved hl hu => exact ⟨h.memory, h.memory, by rintro _ u ⟨⟩ ⟨⟩⟩
  | saveFailed hl hu hk => exact ⟨h.undone _ _ hl hu, h.disk, by simp⟩
  | saveUnsynced hl hu hk => exact ⟨h.undone _ _ hl hu, h.memory, by simp⟩
  | saveIgnored hl hu => exact ⟨h.memory, h.disk, by rintro _ u ⟨⟩ ⟨⟩⟩
  | effect hl hu he =>
    refine ⟨by simpa using h.memory, by simpa using h.disk, ?_⟩
    rintro _ u ⟨⟩ hu'
    simp [hu] at hu'
  | finish hl | unlock hl => exact ⟨h.memory, h.disk, by simp⟩
  | @setLastSeen k now hk hl =>
    rcases touch_eq s (s.sessions k).connectorId now with he | ⟨connector, hc, he⟩
    · rwa [he]
    · rw [he]
      exact ⟨hT _ _ _ _ hc h.memory, h.disk, by simp [hl]⟩
  | restart => exact ⟨(loaded_connectors s.file).symm ▸ h.disk, h.disk, by simp⟩
  | _ => exact ⟨h.memory, h.disk, h.undone⟩

/-- A step that gives no connector a token that another one has, or that a session has come with:
tokens are 256 random bits. -/
def IssuesNew (s : Server) (e : Event) (t : Server) : Prop :=
  ∀ job, e = .begin job → ∀ id hash, t.state.tokenHash? id = some hash →
    s.state.tokenHash? id = some hash ∨
      (∀ id', s.state.tokenHash? id' ≠ some hash) ∧ ∀ k < s.started, (s.sessions k).tokenHash ≠ hash

/-- Nobody else has the token that a session came with. -/
def Own (s : Server) (tokens : String → Option String) : Prop :=
  ∀ k < s.started, ∀ id, tokens id = some (s.sessions k).tokenHash → id = (s.sessions k).connectorId

structure Attributed (s : Server) : Prop where
  keyed : Everywhere Keyed s
  distinct : Everywhere (fun m => Distinct (Connectors.hash? m)) s
  own : s.Own s.state.tokenHash?
  undone : ∀ c u, s.holder = some c → c.undo = some u → s.Own (s.state.revert u).tokenHash?

theorem distinct_begin {job : Job} (h : Distinct s.state.tokenHash?)
    (hs : Step E s (.begin job) t) (hn : IssuesNew s (.begin job) t) :
    Distinct t.state.tokenHash? := by
  have hone : ∃ id₀, ∀ id, id ≠ id₀ → t.state.tokenHash? id = s.state.tokenHash? id := by
    cases hs with
    | begin hl hw hid hcid hb => exact (AppState.begun_of_begin hb).hash?_eq
  obtain ⟨id₀, hone⟩ := hone
  intro id id' hash hi hi'
  rcases hn job rfl id hash hi with ho | ⟨hnew, -⟩ <;> rcases hn job rfl id' hash hi' with ho' | ⟨hnew', -⟩
  · exact h id id' hash ho ho'
  · exact absurd ho (hnew' id)
  · exact absurd ho' (hnew id')
  -- Two new tokens would be two changes.
  · by_contra hne
    by_cases he : id = id₀
    · subst he
      exact hnew id' (hone id' (Ne.symm hne) ▸ hi')
    · exact hnew id (hone id he ▸ hi)

theorem Own.of_phase {tokens : String → Option String} {k : Nat} {phase : SessionPhase}
    (h : s.Own tokens) : (s.setSession k { s.sessions k with phase }).Own tokens := by
  have hc : ∀ j, ((s.setSession k { s.sessions k with phase }).sessions j).connectorId =
      (s.sessions j).connectorId := by
    intro j
    simp only [setSession, Function.update_apply]
    split
    · rename_i he
      rw [he]
    · rfl
  intro j hj id ht
  rw [setSession_tokenHash] at ht
  rw [hc]
  exact h j hj id ht

/-- A session starts out as the one connector's whose token it has come with. -/
theorem own_authenticate {transport : Transport} {token : String} {connector : Connector}
    (hk : Keyed s.state.connectors) (hd : Distinct s.state.tokenHash?)
    (h : s.Own s.state.tokenHash?) (ht : s.state.ConnectorFromToken E token connector) :
    { s.setSession s.started ⟨transport, connector.id, E.hashToken token, .authenticated⟩ with
      started := s.started + 1 }.Own s.state.tokenHash? := by
  intro k hlt id hid
  dsimp only at hlt
  by_cases he : k = s.started
  · subst he
    simp only [setSession, Function.update_self] at hid ⊢
    obtain ⟨⟨id', hc⟩, hh⟩ := ht
    have hid' : s.state.tokenHash? id' = some (E.hashToken token) := by
      simp [AppState.tokenHash?, hc, hh]
    rw [hd id id' _ hid hid', hk id' connector hc]
  · simp only [setSession, Function.update_of_ne he] at hid ⊢
    exact h k (by omega) id hid

theorem Attributed.step (h : Attributed s) (hs : Step E s e t) (hn : IssuesNew s e t) :
    Attributed t := by
  have hkeyed : Everywhere Keyed t := by
    refine h.keyed.step hs (fun m id connector now hc hk => keyed_insert hk (hk id connector hc :)) ?_
    rintro job rfl
    cases hs with
    | begin hl hw hid hcid hb => exact (AppState.begun_of_begin hb).keyed h.keyed.memory
  have hdistinct : Everywhere (fun m => Distinct (Connectors.hash? m)) t := by
    refine h.distinct.step hs untouched_of_hash? ?_
    rintro job rfl
    exact distinct_begin h.distinct.memory hs hn
  suffices ho : t.Own t.state.tokenHash? ∧ ∀ c u, t.holder = some c → c.undo = some u →
      t.Own (t.state.revert u).tokenHash? from ⟨hkeyed, hdistinct, ho.1, ho.2⟩
  cases hs with
  | @begin job before after fresh state c hl hw hid hcid hb =>
    have hown : s.Own state.tokenHash? := by
      intro k hk id ht
      rcases hn job rfl id _ ht with ho | ⟨-, hnew⟩
      · exact h.own k hk id ho
      · exact absurd rfl (hnew k hk)
    refine ⟨hown, ?_⟩
    rintro c' u ⟨⟩ hu
    by_cases hk : u = .keep
    · subst hk
      exact hown
    · rw [commit_state, (AppState.begun_of_begin hb).revert hid hcid hu hk]
      exact h.own
  | saved hl hu | saveIgnored hl hu => exact ⟨h.own, by rintro _ u ⟨⟩ ⟨⟩⟩
  | saveFailed hl hu hk | saveUnsynced hl hu hk => exact ⟨h.undone _ _ hl hu, by simp⟩
  | @effect c x rest hl hu he =>
    refine ⟨fun k hk id ht => ?_, by rintro _ u ⟨⟩ hu'; simp [hu] at hu'⟩
    simp only [apply_started, apply_sessions, apply_state] at hk ht ⊢
    exact h.own k hk id ht
  | finish hl | unlock hl => exact ⟨h.own, by simp⟩
  | authenticate hl ht =>
    exact ⟨own_authenticate h.keyed.memory h.distinct.memory h.own ht, by simp [setSession, hl]⟩
  | register | giveUp | leave =>
    exact ⟨h.own.of_phase, fun c u hc hu => (h.undone c u hc hu).of_phase⟩
  | @setLastSeen k now hk hl =>
    rcases touch_eq s (s.sessions k).connectorId now with he | ⟨connector, hc, he⟩
    · rw [he]
      exact ⟨h.own, h.undone⟩
    · rw [he]
      refine ⟨fun k hk id ht => h.own k hk id (Eq.trans ?_ ht), by simp [hl]⟩
      exact (congrFun (hash?_touched hc) id).symm
  | restart => exact ⟨fun k hk => absurd hk (Nat.not_lt_zero k), by simp⟩
  | _ => exact ⟨h.own, h.undone⟩

/-- In every run that starts without connectors and issues new tokens only, through failed saves and
restarts, a token names at most one connector, so the order in which `connector_from_token` searches
the map does not matter, and the sessions that have come with it are entered under that one's id. -/
theorem token_names_connector (E : Env)
    (h : ((system E fun s => s.state.connectors = ∅ ∧ s.file.connectors = ∅ ∧ s.holder = none ∧
      s.started = 0).restrict IssuesNew).Reachable s) {token : String} {connector : Connector}
    (hc : s.state.ConnectorFromToken E token connector) :
    (∀ connector', s.state.ConnectorFromToken E token connector' → connector' = connector) ∧
      ∀ k < s.started, (s.sessions k).tokenHash = E.hashToken token →
        (s.sessions k).connectorId = connector.id := by
  have ha : Attributed s := by
    refine h.invariant (fun s hs => ?_) fun _ _ _ hi hs => hi.step hs.1 hs.2
    obtain ⟨hm, hf, hl, hn⟩ := hs
    refine ⟨⟨?_, ?_, by simp [hl]⟩, ⟨?_, ?_, by simp [hl]⟩, ?_, by simp [hl]⟩
    · simp [hm, Keyed]
    · simp [hf, Keyed]
    · simp [hm, Distinct, Connectors.hash?]
    · simp [hf, Distinct, Connectors.hash?]
    · exact fun k hk => absurd (hn ▸ hk) (Nat.not_lt_zero k)
  obtain ⟨⟨id, hid⟩, hh⟩ := hc
  have hstored : s.state.tokenHash? id = some (E.hashToken token) := by
    simp [AppState.tokenHash?, hid, hh]
  refine ⟨?_, fun k hk ht => ?_⟩
  · rintro connector' ⟨⟨id', hid'⟩, hh'⟩
    have hstored' : s.state.tokenHash? id' = some (E.hashToken token) := by
      simp [AppState.tokenHash?, hid', hh']
    obtain rfl := ha.distinct.memory id id' _ hstored hstored'
    exact Option.some_inj.mp (hid'.symm.trans hid)
  · rw [← ha.own k hk id (ht ▸ hstored), ha.keyed.memory id connector hid]

/-- A connector is made, and a session comes in with its token. -/
theorem token_names_connector_first : ∃ s : Server,
    ((system sampleEnv fun s => s.state.connectors = ∅ ∧ s.file.connectors = ∅ ∧ s.holder = none ∧
      s.started = 0).restrict IssuesNew).Reachable s ∧
    s.state.ConnectorFromToken sampleEnv "token-1" sampleConnector ∧ s.started = 1 ∧
    (s.sessions 0).tokenHash = sampleEnv.hashToken "token-1" ∧
    (∀ connector', s.state.ConnectorFromToken sampleEnv "token-1" connector' →
      connector' = sampleConnector) ∧ (s.sessions 0).connectorId = sampleConnector.id := by
  have h0 : ((system sampleEnv fun s => s.state.connectors = ∅ ∧ s.file.connectors = ∅ ∧
      s.holder = none ∧ s.started = 0).restrict IssuesNew).Reachable { state := {}, file := {} } :=
    .init ⟨rfl, rfl, rfl, rfl⟩
  have h1 := h0.step ⟨@Step.request _ _ (.createConnector "lan") _ none rfl rfl,
    fun _ h => Event.noConfusion h⟩
  have h2 := h1.step ⟨@Step.begin _ _ _ [] [] ⟨"c1", "token-1"⟩ _ _ rfl rfl (by simp)
    Finmap.notMem_empty rfl, fun _ _ _ _ _ => .inr ⟨by simp [AppState.tokenHash?], by simp⟩⟩
  have h3 : LTS.Reachable _ connected :=
    (h2.step ⟨.saved rfl rfl, fun _ h => Event.noConfusion h⟩).step
      ⟨.finish rfl rfl rfl (fun _ h => Job.noConfusion h), fun _ h => Event.noConfusion h⟩
  have h4 := h3.step ⟨@Step.authenticate _ _ .wss _ _ rfl fromToken_connected,
    fun _ h => Event.noConfusion h⟩
  have hn := token_names_connector sampleEnv h4 fromToken_connected
  refine ⟨_, h4, ?_, ?_, ?_, hn.1, hn.2 0 Nat.one_pos rfl⟩
  · exact fromToken_connected
  · rfl
  · rfl

end Server

end X2rp.Admin
