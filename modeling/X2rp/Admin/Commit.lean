import Mathlib.Data.List.InsertIdx
import X2rp.Admin.Server

/-! What a handler does to the state under the write lock, and how it takes it back. -/
namespace X2rp.Admin

variable {E : Env} {s s' : AppState} {fresh : Fresh} {job : Job} {c : Commit} {u : Undo}

namespace AppState

theorem position_eq_some {id : String} {idx : Nat} {r : Resource}
    (h : s.position id = some (idx, r)) : s.resources[idx]? = some r ∧ r.id = id := by
  simp only [position, Option.bind_eq_bind, Option.bind_eq_some_iff, Option.pure_def,
    Option.some.injEq, Prod.mk.injEq] at h
  obtain ⟨i, hi, r', hr, rfl, rfl⟩ := h
  refine ⟨hr, ?_⟩
  obtain ⟨hlt, hp, -⟩ := List.findIdx?_eq_some_iff_getElem.mp hi
  rw [List.getElem?_eq_getElem hlt, Option.some_inj] at hr
  simpa [hr] using hp

/-- The changes that `begin` can make, each with what the handler has checked under the lock. -/
inductive Begun (E : Env) (s : AppState) (fresh : Fresh) : Job → AppState → Commit → Prop
  | createResource {draft resource : Resource} {answer : Option (List Proto.SocketAddr)}
      (hr : resource = { draft with id := fresh.id })
      (hn : subdomainInUse s.resources resource.subdomain none = false)
      (hc : s.unknownConnector resource.connectorId = false) :
      Begun E s fresh (.createResource draft answer)
        { s with resources := s.resources ++ [resource] }
        ⟨.createResource draft answer, some (.dropResource fresh.id), [.publish resource]⟩
  | updateResource {id : String} {req : UpdateResourceRequest} {current resource old : Resource}
      {answer : Option (List Proto.SocketAddr)} {idx : Nat} (hr : resource = req.merge current)
      (hn : subdomainInUse s.resources resource.subdomain (some id) = false)
      (hc : s.unknownConnector resource.connectorId = false)
      (hi : s.resources[idx]? = some old) (hid : old.id = id) :
      Begun E s fresh (.updateResource id req current answer)
        { s with resources := s.resources.set idx resource }
        ⟨.updateResource id req current answer, some (.replaceResource idx old),
          [.removeResource old.subdomain, .publish resource]⟩
  | deleteResource {id : String} {removed : Resource} {idx : Nat}
      (hi : s.resources[idx]? = some removed) (hid : removed.id = id) :
      Begun E s fresh (.deleteResource id) { s with resources := s.resources.eraseIdx idx }
        ⟨.deleteResource id, some (.insertResource idx removed), [.removeResource removed.subdomain]⟩
  | createConnector {name : String} {connector : Connector}
      (hc : connector = { id := fresh.id, name, tokenHash := E.hashToken fresh.token })
      (hn : ∀ id c, s.connectors.lookup id = some c → c.name ≠ name) :
      Begun E s fresh (.createConnector name)
        { s with connectors := s.connectors.insert fresh.id connector }
        ⟨.createConnector name, some (.dropConnector fresh.id), []⟩
  | updateConnector {id : String} {forceWss : Bool} {connector : Connector} {undo : Option Undo}
      {effects : List Effect} (hc : s.connectors.lookup id = some connector)
      (hu : undo = some .keep ∧ effects = [.unregister id] ∨ undo = none ∧ effects = []) :
      Begun E s fresh (.updateConnector id forceWss)
        { s with connectors := s.connectors.insert id { connector with forceWss } }
        ⟨.updateConnector id forceWss, undo, effects⟩
  | deleteConnector {id : String} {connector : Connector}
      (hn : ∀ r ∈ s.resources, r.connectorId ≠ some id)
      (hc : s.connectors.lookup id = some connector) :
      Begun E s fresh (.deleteConnector id) { s with connectors := s.connectors.erase id }
        ⟨.deleteConnector id, some (.insertConnector id connector), [.unregister id]⟩
  | regenerateConnectorToken {id : String} {connector renewed : Connector}
      (hc : s.connectors.lookup id = some connector)
      (hr : renewed = { connector with tokenHash := E.hashToken fresh.token }) :
      Begun E s fresh (.regenerateConnectorToken id)
        { s with connectors := s.connectors.insert id renewed }
        ⟨.regenerateConnectorToken id, some (.restoreToken id connector.tokenHash), []⟩

theorem begun_of_begin (h : s.begin E fresh job = .ok (s', c)) : Begun E s fresh job s' c := by
  cases job with
  | createResource draft answer =>
    simp only [begin] at h
    split at h
    · cases h
    · split at h
      · cases h
      · rename_i hn hc
        cases h
        exact .createResource rfl (Bool.eq_false_iff.mpr hn) (Bool.eq_false_iff.mpr hc)
  | updateResource id req current answer =>
    simp only [begin] at h
    split at h
    · cases h
    · split at h
      · cases h
      · rename_i hn hc
        split at h
        · cases h
        · cases h
          obtain ⟨hi, hid⟩ := position_eq_some ‹_›
          exact .updateResource rfl (Bool.eq_false_iff.mpr hn) (Bool.eq_false_iff.mpr hc) hi hid
  | deleteResource id =>
    simp only [begin] at h
    split at h
    · cases h
    · cases h
      obtain ⟨hi, hid⟩ := position_eq_some ‹_›
      exact .deleteResource hi hid
  | createConnector name =>
    simp only [begin] at h
    split at h
    · cases h
    · rename_i hn
      cases h
      refine .createConnector rfl fun id c hc he => hn ⟨id, ?_, by simp [hc, he]⟩
      rw [Finmap.mem_keys, ← Finmap.lookup_isSome, hc]
      rfl
  | updateConnector id forceWss =>
    simp only [begin] at h
    split at h
    · cases h
    · rename_i connector hc
      split at h
      · cases h
        exact .updateConnector hc (.inl ⟨rfl, rfl⟩)
      · cases h
        exact .updateConnector hc (.inr ⟨rfl, rfl⟩)
  | deleteConnector id =>
    simp only [begin] at h
    split at h
    · cases h
    · rename_i hn
      split at h
      · cases h
      · cases h
        exact .deleteConnector (by simpa using hn) ‹_›
  | regenerateConnectorToken id =>
    simp only [begin] at h
    split at h
    · cases h
    · cases h
      exact .regenerateConnectorToken ‹_› rfl

theorem Begun.job_eq (h : Begun E s fresh job s' c) : c.job = job := by cases h <;> rfl

theorem Begun.domain_eq (h : Begun E s fresh job s' c) : s'.domain = s.domain := by
  cases h <;> rfl

@[simp] theorem revert_domain (u : Undo) : (s.revert u).domain = s.domain := by
  cases u with
  | restoreToken => simp only [AppState.revert]; split <;> rfl
  | _ => rfl

section Connectors

variable {m m' : Finmap fun _ : String => Connector} {id : String} {connector : Connector}

/-- Maps that differ nowhere but at one place, and there neither, are the same. -/
theorem connectors_ext (h : m.lookup id = m'.lookup id)
    (hne : ∀ id', id' ≠ id → m.lookup id' = m'.lookup id') : m = m' := by
  refine Finmap.ext_lookup fun id' => ?_
  by_cases he : id' = id
  · exact he ▸ h
  · exact hne id' he

theorem erase_insert_self (h : id ∉ m) : (m.insert id connector).erase id = m :=
  connectors_ext (by rw [Finmap.lookup_erase, Finmap.lookup_eq_none.mpr h])
    fun id' hne => by rw [Finmap.lookup_erase_ne hne, Finmap.lookup_insert_of_ne _ hne]

theorem insert_erase_self (h : m.lookup id = some connector) :
    (m.erase id).insert id connector = m :=
  connectors_ext (by rw [Finmap.lookup_insert, h])
    fun id' hne => by rw [Finmap.lookup_insert_of_ne _ hne, Finmap.lookup_erase_ne hne]

theorem insert_lookup_self (h : m.lookup id = some connector) : m.insert id connector = m :=
  connectors_ext (by rw [Finmap.lookup_insert, h])
    fun id' hne => by rw [Finmap.lookup_insert_of_ne _ hne]

end Connectors

/-- Each handler's way back leads exactly to where it started. -/
theorem Begun.revert (h : Begun E s fresh job s' c)
    (hid : ∀ r ∈ s.resources, r.id ≠ fresh.id) (hcid : fresh.id ∉ s.connectors)
    (hu : c.undo = some u) (hk : u ≠ .keep) : s'.revert u = s := by
  cases h with
  | createResource hr hn hc =>
    cases hu
    subst hr
    simp only [AppState.revert, List.filter_append]
    rw [List.filter_eq_self.mpr (by simpa using hid)]
    simp
  | updateResource hr hn hc hi hid =>
    cases hu
    obtain ⟨hlt, rfl⟩ := List.getElem?_eq_some_iff.mp hi
    simp only [AppState.revert, List.set_set, List.set_getElem_self]
  | deleteResource hi hid =>
    cases hu
    obtain ⟨hlt, rfl⟩ := List.getElem?_eq_some_iff.mp hi
    simp only [AppState.revert, List.insertIdx_eraseIdx_getElem hlt]
  | createConnector hc hn =>
    cases hu
    simp only [AppState.revert, erase_insert_self hcid]
  | updateConnector hc hu' =>
    rcases hu' with ⟨rfl, rfl⟩ | ⟨rfl, rfl⟩
    · cases hu
      exact absurd rfl hk
    · cases hu
  | deleteConnector hn hc =>
    cases hu
    simp only [AppState.revert, insert_erase_self hc]
  | regenerateConnectorToken hc hr =>
    cases hu
    subst hr
    simp only [AppState.revert, Finmap.lookup_insert, Finmap.insert_insert, insert_lookup_self hc]

theorem Begun.revert_resources (h : Begun E s fresh job s' c)
    (hid : ∀ r ∈ s.resources, r.id ≠ fresh.id) (hcid : fresh.id ∉ s.connectors)
    (hu : c.undo = some u) : (s'.revert u).resources = s.resources := by
  by_cases hk : u = .keep
  · subst hk
    cases h with
    | updateConnector => rfl
    | _ => cases hu
  · rw [h.revert hid hcid hu hk]

end AppState

namespace Server

variable {s t u v : Server} {e : Event} {Init : Server → Prop}

/-- While a handler is at its save, nobody else changes the state or the routes. -/
theorem step_of_held (hs : Step E s e t) (hh : s.holder = some c) (ht : t.holder = some c)
    (hu : c.undo ≠ none) : t.state = s.state ∧ t.routes = s.routes := by
  cases hs with
  | begin hl => simp [hl] at hh
  | saved hl hu' =>
    simp only [hh, Option.some.injEq] at hl ht
    subst hl
    exact absurd (congrArg Commit.undo ht).symm hu
  | saveFailed hl hu' | saveUnsynced hl hu' => simp at ht
  | effect hl hu' =>
    rw [hh] at hl
    cases hl
    exact absurd hu' hu
  | setLastSeen _ hl => simp [hl] at hh
  | boot _ hl => simp [hl] at hh
  | restart => simp at ht
  | _ => exact ⟨rfl, rfl⟩

theorem run_of_held {es : List Event}
    (hr : ((system E Init).restrict fun _ _ t => t.holder = some c).MTr s es t)
    (hh : s.holder = some c) :
    t.holder = some c ∧ (c.undo ≠ none → t.state = s.state ∧ t.routes = s.routes) := by
  induction hr with
  | refl => exact ⟨hh, fun _ => ⟨rfl, rfl⟩⟩
  | stepL hs _ ih =>
    obtain ⟨ht, ih⟩ := ih hs.2
    refine ⟨ht, fun hu => ?_⟩
    have h1 := step_of_held hs.1 hh hs.2 hu
    exact ⟨(ih hu).1.trans h1.1, (ih hu).2.trans h1.2⟩

/-- A handler that answers with an error has changed nothing, whatever the others do while it
holds the lock: if it is turned down before or under the lock, and if its save fails after it has
made its change. -/
theorem failed_changes_nothing (E : Env) :
    (∀ s req status t, Step E s (.rejected req status) t → t = s) ∧
    (∀ s job status t, Step E s (.failed job status) t → s.holder = none →
      t.state = s.state ∧ t.routes = s.routes ∧ t.registry = s.registry) ∧
    ∀ Init s job t c es u status v, Step E s (.begin job) t → t.holder = some c →
      ((system E Init).restrict fun _ _ t => t.holder = some c).MTr t es u →
      Step E u (.failed job status) v →
      v.state = s.state ∧ v.routes = s.routes ∧ t.registry = s.registry ∧
        v.registry = u.registry := by
  refine ⟨?_, ?_, ?_⟩
  · rintro s req status t ⟨⟩
    rfl
  · intro s job status t hs hl
    cases hs with
    | refuse => exact ⟨rfl, rfl, rfl⟩
    | saveFailed hl' | saveUnsynced hl' => simp [hl'] at hl
  · intro Init s job t c es u status v hb hc hr hf
    obtain ⟨hh, hsame⟩ := run_of_held hr hc
    cases hf with
    | refuse hl => simp [hl] at hh
    | saveFailed hl hu hk | saveUnsynced hl hu hk =>
      obtain rfl := Option.some_inj.mp (hl.symm.trans hh)
      obtain ⟨hst, hro⟩ := hsame (by simp [hu])
      cases hb with
      | begin _ _ hid hcid hbegin =>
        cases hc
        refine ⟨?_, hro, rfl, rfl⟩
        change (u.state.revert _) = s.state
        rw [hst]
        exact (AppState.begun_of_begin hbegin).revert hid hcid hu hk

/-- A resource whose deletion cannot be saved is back where it was. -/
theorem failed_changes_nothing_delete :
    ∃ s t v : Server, s.state.resources = [sampleResource] ∧
      Step sampleEnv s (.begin (.deleteResource "r1")) t ∧ t.state.resources = [] ∧
      Step sampleEnv t (.failed (.deleteResource "r1") .internalServerError) v ∧
      v.state = s.state ∧ v.routes = s.routes ∧ v.registry = s.registry := by
  let state : AppState := { resources := [sampleResource] }
  let s : Server := { state, file := state, waiting := [.deleteResource "r1"] }
  have hb : Step sampleEnv s (.begin (.deleteResource "r1")) _ :=
    @Step.begin sampleEnv s _ [] [] ⟨"r2", ""⟩ _ _ rfl rfl (by decide) Finmap.notMem_empty rfl
  have hf : Step sampleEnv _ (.failed (.deleteResource "r1") .internalServerError) _ :=
    .saveFailed (s := s.commit [] (.deleteResource "r1") ⟨"r2", ""⟩ { state with resources := [] }
      ⟨.deleteResource "r1", some (.insertResource 0 sampleResource), [.removeResource "app"]⟩)
      rfl rfl (by decide)
  have h := (failed_changes_nothing sampleEnv).2.2 (fun _ => True) _ _ _ _ _ _ _ _ hb rfl .refl hf
  exact ⟨s, _, _, rfl, hb, rfl, hf, h.1, h.2.1, h.2.2.2.trans h.2.2.1⟩

end Server

end X2rp.Admin
