import X2rp.Admin.Stored

/-! What holds of every record that a handler writes holds of all that are stored. -/
namespace X2rp.Admin

open Proto

variable {E : Env} {fresh : Fresh} {job : Job} {c : Commit} {P : Resource → Prop}

/-- The record that the handler will write, if any, is of this kind. -/
def Job.Writes (P : Resource → Prop) (job : Job) : Prop :=
  ∀ fresh r answer, job.writes fresh = some (r, answer) → P r

/-- A handler stores and publishes what it has ready. -/
theorem AppState.Begun.records {s s' : AppState} (h : Begun E s fresh job s' c)
    (hs : ∀ r ∈ s.resources, P r) (hw : job.Writes P) :
    (∀ r ∈ s'.resources, P r) ∧ ∀ r, .publish r ∈ c.effects → P r := by
  cases h with
  | createResource hr =>
    subst hr
    have hnew := hw fresh _ _ rfl
    refine ⟨fun r hr => ?_, ?_⟩
    · rcases List.mem_append.mp hr with hr | hr
      · exact hs r hr
      · exact List.mem_singleton.mp hr ▸ hnew
    · simpa using hnew
  | updateResource hr =>
    subst hr
    have hnew := hw fresh _ _ rfl
    refine ⟨fun r hr => ?_, by simpa using hnew⟩
    rcases List.mem_or_eq_of_mem_set hr with hr | rfl
    · exact hs r hr
    · exact hnew
  | deleteResource => exact ⟨fun r hr => hs r (List.mem_of_mem_eraseIdx hr), by simp⟩
  | updateConnector hc hu =>
    refine ⟨hs, fun r hr => ?_⟩
    rcases hu with ⟨rfl, rfl⟩ | ⟨rfl, rfl⟩ <;> simp at hr
  | _ => exact ⟨hs, by simp⟩

namespace Server

variable {s t : Server} {e : Event}

/-- All records are of this kind: the stored ones, and those that a handler has ready, will
publish or may bring back. -/
structure Records (P : Resource → Prop) (s : Server) : Prop where
  state : ∀ r ∈ s.state.resources, P r
  file : ∀ r ∈ s.file.resources, P r
  undo : ∀ c u, s.holder = some c → c.undo = some u → ∀ r ∈ (s.state.revert u).resources, P r
  effects : ∀ c r, s.holder = some c → .publish r ∈ c.effects → P r
  waiting : ∀ job ∈ s.waiting, job.Writes P

/-- A request that passes its checks is all that can bring in another kind. -/
theorem records_step (h : Records P s) (hs : Step E s e t)
    (hP : ∀ req answer job, Prepared E s.state answer req job → job ∈ t.waiting → job.Writes P) :
    Records P t := by
  cases hs with
  | request hl hp =>
    refine ⟨h.state, h.file, h.undo, h.effects, fun job hj => ?_⟩
    rcases List.mem_append.mp hj with hold | hnew
    · exact h.waiting job hold
    · obtain rfl := List.mem_singleton.mp hnew
      exact hP _ _ _ (prepared_of_prepare hp) hj
  | @begin job before after fresh state c hl hw hid hcid hb =>
    have hb := AppState.begun_of_begin hb
    have hj := h.waiting job (hw ▸ List.mem_append_right _ List.mem_cons_self)
    obtain ⟨hstate, heff⟩ := hb.records h.state hj
    refine ⟨hstate, h.file, ?_, ?_, fun job hmem => h.waiting job (hw ▸ mem_of_mem_rest hmem)⟩
    · rintro c u ⟨⟩ hu
      rw [commit_state, hb.revert_resources hid hcid hu]
      exact h.state
    · rintro c r ⟨⟩
      exact heff r
  | refuse hl hw =>
    exact ⟨h.state, h.file, h.undo, h.effects,
      fun job hmem => h.waiting job (hw ▸ mem_of_mem_rest hmem)⟩
  | abandon hw =>
    exact ⟨h.state, h.file, h.undo, h.effects,
      fun job hmem => h.waiting job (hw ▸ mem_of_mem_rest hmem)⟩
  | saved hl hu =>
    have heff := fun r => h.effects _ r hl
    exact ⟨h.state, h.state, by rintro c u ⟨⟩ ⟨⟩, by rintro c r ⟨⟩; exact heff r, h.waiting⟩
  | saveFailed hl hu => exact ⟨h.undo _ _ hl hu, h.file, by simp, by simp, h.waiting⟩
  | saveUnsynced hl hu => exact ⟨h.undo _ _ hl hu, h.state, by simp, by simp, h.waiting⟩
  | saveIgnored hl hu =>
    have heff := fun r => h.effects _ r hl
    exact ⟨h.state, h.file, by rintro c u ⟨⟩ ⟨⟩, by rintro c r ⟨⟩; exact heff r, h.waiting⟩
  | effect hl hu he =>
    have heff := fun r => h.effects _ r hl
    rw [he] at heff
    refine ⟨by simpa using h.state, by simpa using h.file, ?_, ?_, by simpa using h.waiting⟩
    · rintro c u ⟨⟩ hu'
      simp [hu] at hu'
    · rintro c r ⟨⟩ hr
      exact heff r (List.mem_cons_of_mem _ hr)
  | finish => exact ⟨h.state, h.file, by simp, by simp, h.waiting⟩
  | unlock => exact ⟨h.state, h.file, by simp, by simp, h.waiting⟩
  | @setLastSeen k now hk hl =>
    rcases touch_eq s (s.sessions k).connectorId now with he | ⟨connector, hc, he⟩
    · rwa [he]
    · rw [he]
      exact ⟨h.state, h.file, by simp [hl], by simp [hl], h.waiting⟩
  | restart =>
    refine ⟨?_, h.file, by simp, by simp, by simp⟩
    simpa only [AppState.loaded] using h.file
  | _ => exact ⟨h.state, h.file, h.undo, h.effects, h.waiting⟩

end Server

end X2rp.Admin
