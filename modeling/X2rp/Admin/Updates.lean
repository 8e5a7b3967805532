import X2rp.Admin.RouteTable

/-! Concurrent updates of one resource. An update merges its request into the record as it was
before the validation of its target, so it undoes what others have written in the meantime. -/
namespace X2rp.Admin

open Proto View

variable {E : Env} {r : Resource}

/-- The request of a successful update of the resource. -/
def Event.updateOf (id : String) : Event → Option UpdateResourceRequest
  | .done (.updateResource id' req _ _) => if id' = id then some req else none
  | _ => none

/-- The record after a request, if it is one for this record. -/
def Event.on (r : Resource) (e : Event) : Resource :=
  (e.updateOf r.id).elim r fun req => req.merge r

/-- Requests run one after the other. -/
def serially (r : Resource) (reqs : List UpdateResourceRequest) : Resource :=
  reqs.foldl (fun r req => req.merge r) r

theorem Event.on_id (e : Event) : (e.on r).id = r.id := by
  unfold Event.on
  cases e.updateOf r.id <;> rfl

theorem serially_cons {e : Event} {es : List Event} :
    serially r ((e :: es).filterMap (Event.updateOf r.id)) =
      serially (e.on r) (es.filterMap (Event.updateOf r.id)) := by
  unfold Event.on
  cases he : e.updateOf r.id <;> simp [he, serially]

namespace Server

variable {s t : Server} {e : Event}

/-- The record that an update has read is still stored when the handler gets the write lock. -/
def Unchanged (s : Server) (e : Event) (_ : Server) : Prop :=
  ∀ id req current answer, e = .begin (.updateResource id req current answer) →
    current ∈ s.state.resources

/-- The record is what the successful updates have made of it: in the stored state, in what a
failed save would bring back, and with the change of the handler that has the lock. -/
structure Holds (r : Resource) (s : Server) : Prop where
  idle : s.holder = none → r ∈ s.state.resources
  due : ∀ c u, s.holder = some c → c.undo = some u → r ∈ (s.state.revert u).resources
  made : ∀ c, s.holder = some c → c.job ≠ .deleteResource r.id →
    (Event.done c.job).on r ∈ s.state.resources

/-- What a handler does to one record. -/
theorem begun_on {s s' : AppState} {fresh : Fresh} {job : Job} {c : Commit}
    (h : AppState.Begun E s fresh job s' c) (hids : s.DistinctIds) (hr : r ∈ s.resources)
    (hj : job.Named)
    (hu : ∀ id req current answer, job = .updateResource id req current answer →
      current ∈ s.resources)
    (hd : job ≠ .deleteResource r.id) : (Event.done job).on r ∈ s'.resources := by
  cases h with
  | createResource => exact List.mem_append_left _ hr
  | @updateResource id req current resource old answer idx hres hn hc hi hid =>
    have hcur := hu _ _ _ _ rfl
    have hown := hj.own _ _ current _ rfl
    by_cases he : id = r.id
    · -- The record read is the stored one, so the merge is with this record.
      obtain rfl : current = r := List.inj_on_of_nodup_map hids hcur hr (hown.trans he)
      simp only [Event.on, Event.updateOf, if_pos he, Option.elim_some]
      subst hres
      exact List.mem_set (List.getElem?_eq_some_iff.mp hi).1 _
    · simp only [Event.on, Event.updateOf, if_neg he, Option.elim_none]
      exact View.mem_set_of_ne hr hi fun h => he (hid.symm.trans (h ▸ rfl))
  | deleteResource hi hid =>
    refine View.mem_eraseIdx_of_ne hr hi ?_
    rintro rfl
    exact hd (hid ▸ rfl)
  | _ => exact hr

theorem holds_step (hq : Throughout (fun _ s => s.Named) Job.Named s) (h : Holds r s)
    (hs : Step E s e t) (hu : Unchanged s e t) (hr : e ≠ .restart)
    (hd : e ≠ .done (.deleteResource r.id)) : Holds (e.on r) t := by
  cases hs with
  | begin hl hw hid hcid hb =>
    have hb := AppState.begun_of_begin hb
    have hj := hq.waiting _ (hw ▸ List.mem_append_right _ List.mem_cons_self)
    refine ⟨by simp, ?_, ?_⟩
    · rintro c u ⟨⟩ hu'
      rw [commit_state, hb.revert_resources hid hcid hu']
      exact h.idle hl
    · rintro c ⟨⟩ hdel
      rw [hb.job_eq] at hdel ⊢
      exact begun_on hb hq.state.ids (h.idle hl) hj (fun id req current answer he =>
        hu id req current answer (he ▸ rfl)) hdel
  | saved hl hu' =>
    have hmade := h.made _ hl
    exact ⟨by simp, by rintro c u ⟨⟩ ⟨⟩, by rintro c ⟨⟩; exact hmade⟩
  | saveIgnored hl hu' =>
    have hmade := h.made _ hl
    exact ⟨by simp, by rintro c u ⟨⟩ ⟨⟩, by rintro c ⟨⟩; exact hmade⟩
  | saveFailed hl hu' | saveUnsynced hl hu' => exact ⟨fun _ => h.due _ _ hl hu', by simp, by simp⟩
  | effect hl hu' he =>
    have hmade := h.made _ hl
    refine ⟨by simp, ?_, ?_⟩
    · rintro c u ⟨⟩ hu''
      simp [hu'] at hu''
    · rintro c ⟨⟩ hdel
      rw [apply_state]
      exact hmade hdel
  | finish hl hu' he hj =>
    refine ⟨fun _ => h.made _ hl fun hdel => hd (hdel ▸ rfl), by simp, by simp⟩
  | unlock hl hu' hj =>
    have hmade := h.made _ hl
    rw [hj] at hmade
    exact ⟨fun _ => hmade (by simp), by simp, by simp⟩
  | @setLastSeen k now hk hl =>
    rcases touch_eq s (s.sessions k).connectorId now with he | ⟨connector, hc, he⟩
    · rwa [he]
    · rw [he]
      exact ⟨h.idle, by simp [hl], by simp [hl]⟩
  | restart => exact absurd rfl hr
  | _ => exact ⟨h.idle, h.due, h.made⟩

theorem holds_run {Init : Server → Prop} {es : List Event}
    (hq : Throughout (fun _ s => s.Named) Job.Named s) (h : Holds r s)
    (hrun : ((system E Init).restrict Unchanged).MTr s es t) (hr : .restart ∉ es)
    (hd : .done (.deleteResource r.id) ∉ es) :
    Holds (serially r (es.filterMap (Event.updateOf r.id))) t := by
  induction hrun generalizing r with
  | refl => exact h
  | @stepL s u t e es hs _ ih =>
    rw [serially_cons, ← Event.on_id e]
    refine ih (hq.step upheld_named hs.1) (holds_step hq h hs.1 hs.2 ?_ ?_) ?_ ?_
    · rintro rfl
      exact hr List.mem_cons_self
    · rintro rfl
      exact hd List.mem_cons_self
    · exact fun hmem => hr (List.mem_cons_of_mem _ hmem)
    · rw [Event.on_id]
      exact fun hmem => hd (List.mem_cons_of_mem _ hmem)

/-- In every run in which each update finds the record it has read unchanged when it gets the
lock, a record ends up as if the successful updates had run one after the other, in the order of
their answers, and that is what is published. -/
theorem updates_serialise (E : Env) {s t : Server} {es : List Event} {r : Resource}
    (h : (system E Starting).Reachable s) (hl : s.holder = none) (hr : r ∈ s.state.resources)
    (hrun : ((system E Starting).restrict Unchanged).MTr s es t) (hl' : t.holder = none)
    (hn : .restart ∉ es) (hd : .done (.deleteResource r.id) ∉ es) :
    ∃ r', r' = serially r (es.filterMap (Event.updateOf r.id)) ∧ r' ∈ t.state.resources ∧
      (t.booted = true → t.routes (E.fqdn t.state.domain r'.subdomain) =
        if r'.enabled then some (.fromResource E r') else none) := by
  have hholds := holds_run (named h) ⟨fun _ => hr, by simp [hl], by simp [hl]⟩ hrun hn hd
  have ht := h.trans hrun.of_restrict
  have hrouted := routed ht
  have hkeyed := (named ht).state.keyed E hrouted.ascii.1
  exact ⟨_, rfl, hholds.idle hl', fun hb => (hrouted.idle hl').apply_key hkeyed hb (hholds.idle hl')⟩

section Runs

/-- A handler with the lock, up to its answer, undisturbed. -/
theorem handler_run {Init : Server → Prop} {C : Server → Event → Server → Prop} {before after : List Job}
    {job : Job} {fresh : Fresh} {state : AppState} {u : Undo} {x y : Effect}
    (hC : ∀ s e t, (∀ job, e ≠ .begin job) → C s e t) (hl : s.holder = none)
    (hw : s.waiting = before ++ job :: after) (hid : ∀ r ∈ s.state.resources, r.id ≠ fresh.id)
    (hcid : fresh.id ∉ s.state.connectors)
    (hb : s.state.begin E fresh job = .ok (state, ⟨job, some u, [x, y]⟩))
    (hc : ∀ t, C s (.begin job) t) (hj : ∀ id, job ≠ .regenerateConnectorToken id) :
    ∃ t, ((system E Init).restrict C).MTr s
        [.begin job, .internal, .internal, .internal, .done job] t ∧
      t.holder = none ∧ t.waiting = before ++ after ∧ t.state = state ∧
      t.routes = s.routes.after E state.domain [x, y] := by
  refine ⟨_, .stepL ⟨.begin hl hw hid hcid hb, hc _⟩ <| .stepL ⟨.saved rfl rfl, hC _ _ _ (by simp)⟩ <|
    .stepL ⟨.effect rfl rfl rfl, hC _ _ _ (by simp)⟩ <|
    .stepL ⟨.effect rfl rfl rfl, hC _ _ _ (by simp)⟩ <|
    .stepL ⟨@Step.finish E _ ⟨job, none, []⟩ rfl rfl rfl hj, hC _ _ _ (by simp)⟩ .refl, rfl, ?_, ?_, ?_⟩
  · simp
  · simp
  · cases x <;> cases y <;> rfl

def disable : Job := .updateResource "r1" { enabled := some false } sampleResource loopback

def disabled : Resource := { sampleResource with enabled := false }

/-- A rename that reads the record before it is disabled, and writes it afterwards, makes it
enabled again. Both requests succeed, and the resource stays published. -/
theorem disable_lost_to_rename :
    ∃ es t, (system sampleEnv Starting).MTr (holding [sampleResource]) es t ∧
      es.filterMap (Event.updateOf "r1") = [{ enabled := some false }, { subdomain := some "web" }] ∧
      t.holder = none ∧ t.state.resources = [renamed] ∧
      t.routes "web.example.com" = some (.fromResource sampleEnv renamed) ∧
      renamed ≠ serially sampleResource [{ enabled := some false }, { subdomain := some "web" }] ∧
      renamed ≠ serially sampleResource [{ subdomain := some "web" }, { enabled := some false }] := by
  let s := { holding [sampleResource] with waiting := [disable, rename] }
  have h1 : Step sampleEnv (holding [sampleResource]) .internal _ :=
    @Step.request _ _ (.updateResource "r1" { enabled := some false }) disable loopback rfl rfl
  have h2 : Step sampleEnv _ .internal s :=
    @Step.request _ { holding [sampleResource] with waiting := [disable] }
      (.updateResource "r1" { subdomain := some "web" }) rename loopback rfl rfl
  obtain ⟨t, ht, hl, hw, hst, -⟩ := @handler_run sampleEnv s Starting (fun _ _ _ => True)
    [] [rename] disable ⟨"r2", ""⟩ { resources := [disabled], domain := "example.com" }
    (.replaceResource 0 sampleResource) (.removeResource "app") (.publish disabled) (by simp)
    rfl rfl (by decide) Finmap.notMem_empty rfl
    (by simp) (by simp [disable])
  obtain ⟨v, hv, hl', -, hst', hro⟩ := @handler_run sampleEnv t Starting (fun _ _ _ => True)
    [] [] rename ⟨"r2", ""⟩ { resources := [renamed], domain := "example.com" }
    (.replaceResource 0 disabled) (.removeResource "app") (.publish renamed) (by simp) hl hw
    (by rw [hst]; decide)
    (by rw [hst]; exact Finmap.notMem_empty) (by rw [hst]; rfl) (by simp) (by simp [rename])
  refine ⟨_, v, .stepL h1 (.stepL h2 (ht.of_restrict.trans hv.of_restrict)), by decide, hl', ?_, ?_,
    by decide, by decide⟩
  · rw [hst']
  · have hk : sampleEnv.fqdn "example.com" "web" = "web.example.com" := by decide
    rw [hro, ← hk]
    change (t.routes.removeResource sampleEnv "example.com" "app").publish sampleEnv "example.com"
      renamed (sampleEnv.fqdn "example.com" renamed.subdomain) = _
    exact Routes.publish_apply renamed rfl

def renameAgain : Job := .updateResource "r1" { subdomain := some "web" } disabled loopback

/-- The same two requests, the second of them after the first. -/
theorem updates_serialise_in_turn :
    ∃ es t, ((system sampleEnv Starting).restrict Unchanged).MTr
        (holding [sampleResource]) es t ∧
      es.filterMap (Event.updateOf "r1") = [{ enabled := some false }, { subdomain := some "web" }] ∧
      ∃ r, r = serially sampleResource [{ enabled := some false }, { subdomain := some "web" }] ∧
        r ∈ t.state.resources ∧ (t.booted = true →
          t.routes (sampleEnv.fqdn t.state.domain r.subdomain) =
            if r.enabled then some (.fromResource sampleEnv r) else none) := by
  have hC : ∀ s e t, (∀ job, e ≠ .begin job) → Unchanged s e t := by
    intro s e t he id req current answer hb
    exact absurd hb (he _)
  let s := { holding [sampleResource] with waiting := [disable] }
  have h1 : Step sampleEnv (holding [sampleResource]) .internal s :=
    @Step.request _ _ (.updateResource "r1" { enabled := some false }) disable loopback rfl rfl
  obtain ⟨t, ht, hl, hw, hst, -⟩ := @handler_run sampleEnv s Starting Unchanged
    [] [] disable ⟨"r2", ""⟩ { resources := [disabled], domain := "example.com" }
    (.replaceResource 0 sampleResource) (.removeResource "app") (.publish disabled) hC rfl rfl
    (by decide) Finmap.notMem_empty rfl (by rintro _ _ _ _ _ ⟨⟩; decide) (by simp [disable])
  let t' := { t with waiting := t.waiting ++ [renameAgain] }
  have h2 : Step sampleEnv t .internal t' :=
    @Step.request _ t (.updateResource "r1" { subdomain := some "web" }) renameAgain loopback hl
      (by rw [hst]; rfl)
  obtain ⟨v, hv, hl', -⟩ := @handler_run sampleEnv t' Starting Unchanged [] [] renameAgain
    ⟨"r2", ""⟩ { resources := [{ disabled with subdomain := "web" }], domain := "example.com" }
    (.replaceResource 0 disabled) (.removeResource "app")
    (.publish { disabled with subdomain := "web" }) hC hl (by simp [t', hw]) (by simp [t', hst]; decide)
    (by simp only [t', hst]; exact Finmap.notMem_empty) (by simp only [t', hst]; rfl)
    (by rintro _ _ _ _ _ ⟨⟩; simp [t', hst]) (by simp [renameAgain])
  have hrun := LTS.MTr.stepL (L := (system sampleEnv Starting).restrict Unchanged)
    ⟨h1, hC _ _ _ (by simp)⟩ (ht.trans (.stepL ⟨h2, hC _ _ _ (by simp)⟩ hv))
  exact ⟨_, v, hrun, by decide, updates_serialise sampleEnv (.init starting_holding) rfl
    List.mem_cons_self hrun hl' (by decide) (by decide)⟩

end Runs

end Server

end X2rp.Admin
