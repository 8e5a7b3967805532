import X2rp.Admin.Credentials
import X2rp.Connector.Enrolment

/-! The connector's loop and the server's state side by side: a connector runs for as long as its
token stands, and no longer. -/
namespace X2rp.Connector

open Admin Http
open Proxy (homeEnv)

/-- `StatusCode::as_u16`. -/
def asU16 : StatusCode → Nat
  | .badRequest => 400
  | .unauthorized => 401
  | .forbidden => 403
  | .notFound => 404
  | .methodNotAllowed => 405
  | .conflict => 409
  | .tooManyRequests => 429
  | .internalServerError => 500
  | .serviceUnavailable => 503

/-- What the handler's answer is to the loop. -/
def Poll.ofAnswer : Except StatusCode ServerSettings → Poll
  | .ok settings => .response 200 (some settings)
  | .error status => .response (asU16 status) none

/-- What comes of a request that never gets to the handler: nothing, or an error of the edge. -/
def Poll.Missed : Poll → Prop
  | .failed => True
  | .response status _ => status ≠ 401 ∧ ¬ (200 ≤ status ∧ status < 300)

/-- `answer` is the handler's, on its way to the connector. -/
structure Service where
  server : Server
  loop : Loop := {}
  answer : Option (Except StatusCode ServerSettings) := none

namespace Service

inductive Event
  | server (e : Admin.Event)
  | loop
  | handled
  | delivered
  | missed
deriving DecidableEq

section Steps

variable (E : Env) (initialized : Bool) (secret token : String)

/-- The request of a connector is handled at one moment, under the read lock, and its answer may be
late or lost. -/
inductive Step : Service → Event → Service → Prop
  | server {s : Service} {e : Admin.Event} {t : Server} (hs : Server.Step E s.server e t) :
      Step s (.server e) { s with server := t }
  | loop {s : Service} {t : Loop} (hs : Loop.Step s.loop .internal t) : Step s .loop { s with loop := t }
  | handled {s : Service} {find : String → Option Admin.Connector} (hp : s.loop.phase = .polling)
      (hl : s.server.holder = none) (hf : Searches E s.server.state find) :
      Step s .handled { s with
        answer := some (connectorGetSettings initialized secret find
          [("authorization", bearerAuth token)]) }
  | delivered {s : Service} {answer : Except StatusCode ServerSettings} {t : Loop}
      (ha : s.answer = some answer) (hs : Loop.Step s.loop (.poll (.ofAnswer answer)) t) :
      Step s .delivered { s with loop := t, answer := none }
  | missed {s : Service} {poll : Poll} {t : Loop} (hm : poll.Missed)
      (hs : Loop.Step s.loop (.poll poll) t) : Step s .missed { s with loop := t, answer := none }

def system (Init : Service → Prop) : LTS Service Event := ⟨Init, Step E initialized secret token⟩

end Steps

variable {E : Env} {initialized : Bool} {secret token id hash : String} {s t : Service} {e : Event}

/-- The connector's token is stored: in memory, on disk and after a failed save. -/
def Stands (s : Server) (id hash : String) : Prop :=
  s.Everywhere fun m => Connectors.hash? m id = some hash

/-- Nobody has the token: neither in memory, nor on disk, nor after a failed save. -/
def Gone (s : Server) (hash : String) : Prop :=
  s.Everywhere fun m => ∀ id, Connectors.hash? m id ≠ some hash

/-- A step that does not revoke the connector's token. -/
def Spares (id : String) (_ : Service) (e : Event) (_ : Service) : Prop :=
  ∀ job, e = .server (.begin job) → ¬ job.Revokes id

/-- A step that does not issue the token again. -/
def NotIssued (hash : String) (_ : Service) (e : Event) (t : Service) : Prop :=
  ∀ job, e = .server (.begin job) → ∀ id, t.server.state.tokenHash? id ≠ some hash

theorem stands_step {e : Admin.Event} {s t : Server} (h : Stands s id hash)
    (hs : Server.Step E s e t) (hn : ∀ job, e = .begin job → ¬ job.Revokes id) : Stands t id hash := by
  refine Server.Everywhere.step h hs (untouched_of_hash? (P := fun tokens => tokens id = some hash)) ?_
  rintro job rfl
  cases hs with
  | begin hl hw hid hcid hb =>
    exact ((AppState.begun_of_begin hb).tokenHash? hcid h.memory).resolve_right (hn job rfl)

theorem gone_step {e : Admin.Event} {s t : Server} (h : Gone s hash) (hs : Server.Step E s e t)
    (hn : ∀ job, e = .begin job → ∀ id, t.state.tokenHash? id ≠ some hash) : Gone t hash :=
  Server.Everywhere.step h hs (untouched_of_hash? (P := fun tokens => ∀ id, tokens id ≠ some hash)) hn

section Answers

variable {find : String → Option Admin.Connector} {headers : Headers}

/-- With a token that is stored the answer is not a refusal. -/
theorem answer_of_stands (ht : bearerToken headers = some token)
    (hf : Searches E s.server.state find)
    (hs : s.server.state.tokenHash? id = some (E.hashToken token)) :
    connectorGetSettings initialized secret find headers ≠ .error .unauthorized := by
  obtain ⟨connector, hc, hh⟩ := Option.map_eq_some_iff.mp hs
  have hsearch := hf token
  split at hsearch
  · rename_i found hfound
    simp only [connectorGetSettings, ht, hfound]
    cases initialized with
    | false => simp [throw, throwThe, MonadExceptOf.throw, bind, Except.bind]
    | true =>
      by_cases he : secret = ""
      · simp [he, throw, throwThe, MonadExceptOf.throw, bind, Except.bind]
      · simp [he, pure, Except.pure]
  · exact absurd ⟨⟨id, hc⟩, hh⟩ (hsearch connector)

/-- With a token that is not, it is. -/
theorem answer_of_gone (ht : bearerToken headers = some token)
    (hf : Searches E s.server.state find)
    (hs : ∀ id, s.server.state.tokenHash? id ≠ some (E.hashToken token)) :
    connectorGetSettings true secret find headers = .error .unauthorized := by
  have hsearch := hf token
  split at hsearch
  · obtain ⟨⟨id, hc⟩, hh⟩ := hsearch
    exact absurd (by simp [AppState.tokenHash?, hc, hh]) (hs id)
  · rename_i hfound
    simp [connectorGetSettings, ht, hfound, throw, throwThe, MonadExceptOf.throw]

/-- Settings that are handed out have the server's secret in them. -/
theorem secret_of_answer {settings : ServerSettings}
    (h : connectorGetSettings initialized secret find headers = .ok settings) :
    settings.obfuscationSecret = secret := by
  unfold connectorGetSettings at h
  cases initialized with
  | false => cases h
  | true =>
    cases ht : bearerToken headers with
    | none => simp [ht, throw, throwThe, MonadExceptOf.throw] at h
    | some token =>
      cases hf : find token with
      | none => simp [ht, hf, throw, throwThe, MonadExceptOf.throw] at h
      | some connector =>
        by_cases he : secret = ""
        · simp [ht, hf, he, throw, throwThe, MonadExceptOf.throw, bind, Except.bind] at h
        · simp only [ht, hf, he] at h
          exact (congrArg ServerSettings.obfuscationSecret (Except.ok.inj h)).symm

end Answers

section Loop

variable {l l' : Loop} {poll : Poll} {config : TransportConfig}

/-- Only a 401 ends the loop. -/
theorem polled_eq_none : config.polled poll = none ↔ ∃ settings, poll = .response 401 settings := by
  cases poll with
  | failed => simp [TransportConfig.polled]
  | response status settings =>
    simp only [TransportConfig.polled, Poll.response.injEq, exists_and_left, exists_eq', and_true]
    split
    · simp [*]
    · rename_i h
      refine iff_of_false ?_ h
      split
      · split <;> simp
      · simp

theorem polled_ofAnswer_eq_none {answer : Except StatusCode ServerSettings} :
    config.polled (.ofAnswer answer) = none ↔ answer = .error .unauthorized := by
  rw [polled_eq_none]
  cases answer with
  | ok settings => simp [Poll.ofAnswer]
  | error status => cases status <;> simp [Poll.ofAnswer, asU16]

theorem first_eq_quic (h : config.first = .quic) :
    config.forceWss = false ∧ config.obfuscationSecret ≠ "" := by
  unfold TransportConfig.first at h
  split at h
  · cases h
  · split at h
    · cases h
    · exact ⟨Bool.eq_false_iff.mpr ‹_›, ‹_›⟩

/-- The loop is at a QUIC connection. -/
def OnQuic (l : Loop) : Prop :=
  ∃ started, l.phase = .dialling .quic started ∨ l.phase = .connected .quic started

/-- Without an answer the loop neither stops nor changes its mind. -/
theorem loop_internal (hs : Loop.Step l .internal l') : l'.config = l.config ∧ l'.starts = l.starts ∧
    (l'.phase = .stopped → l.phase = .stopped) ∧ (OnQuic l' → OnQuic l) := by
  have hended : ∀ started, (l.ended started).config = l.config ∧ (l.ended started).phase ≠ .stopped ∧
      ¬ OnQuic (l.ended started) := by
    intro started
    unfold Loop.ended
    split <;> simp [OnQuic]
  cases hs with
  | wait => exact ⟨rfl, rfl, id, id⟩
  | fallBack hp => exact ⟨rfl, rfl, by simp, by simp [OnQuic]⟩
  | @connect transport started hp =>
    refine ⟨rfl, rfl, by simp, ?_⟩
    rintro ⟨started', h | h⟩
    · cases h
    · cases h
      exact ⟨started, .inl hp⟩
  | connectFailed hp | disconnect hp =>
    obtain ⟨hc, hp', hq⟩ := hended _
    exact ⟨hc, (Loop.ended_fields _).1, fun h => absurd h hp', fun h => absurd h hq⟩
  | wake hp => exact ⟨rfl, rfl, by simp, by simp [OnQuic]⟩

end Loop

theorem bearerToken_issued {bytes : Vector UInt8 32} :
    bearerToken [("authorization", bearerAuth (randomHex bytes))] = some (randomHex bytes) := by
  have hsize := utf8ByteSize_randomHex bytes
  have hmax : Proto.maxAuthTokenLen = 512 := rfl
  exact bearerToken_bearerAuth rfl isAlphanum_randomHex (by omega) (by omega)

/-- What holds of the two for as long as the token stands. -/
structure Running (secret id hash : String) (s : Service) : Prop where
  stands : Stands s.server id hash
  answer : ∀ r, s.answer = some r →
    r ≠ .error .unauthorized ∧ ∀ settings, r = .ok settings → settings.obfuscationSecret = secret
  running : s.loop.phase ≠ .stopped
  config : s.loop.config.obfuscationSecret = "" ∨ s.loop.config.obfuscationSecret = secret
  quic : OnQuic s.loop → s.loop.config.first = .quic

/-- The loop goes on with what the last settings were. -/
theorem Running.polled {poll : Poll} {l : Loop} (h : Running secret id hash s)
    (hn : s.loop.config.polled poll ≠ none)
    (hc : ∀ config, s.loop.config.polled poll = some config →
      config.obfuscationSecret = "" ∨ config.obfuscationSecret = secret)
    (hs : Loop.Step s.loop (.poll poll) l) :
    Running secret id hash { s with loop := l, answer := none } := by
  cases hs with
  | @poll _ config hp ha =>
    refine ⟨h.stands, by simp, by simp [Loop.runSession], hc config ha, ?_⟩
    rintro ⟨started, hq | hq⟩
    · simp only [Loop.runSession, Phase.dialling.injEq] at hq
      exact hq.1
    · simp [Loop.runSession] at hq
  | stop hp ha => exact absurd ha hn

theorem Running.step (h : Running secret id (E.hashToken token) s)
    (ht : bearerToken [("authorization", bearerAuth token)] = some token)
    (hs : Step E initialized secret token s e t) (hn : Spares id s e t) :
    Running secret id (E.hashToken token) t := by
  cases hs with
  | server hs =>
    refine ⟨stands_step h.stands hs fun job he => hn job (he ▸ rfl), h.answer, h.running, h.config,
      h.quic⟩
  | loop hs =>
    obtain ⟨hc, -, hp, hq⟩ := loop_internal hs
    refine ⟨h.stands, h.answer, fun he => h.running (hp he), ?_, fun he => ?_⟩
    · rw [hc]
      exact h.config
    · rw [hc]
      exact h.quic (hq he)
  | handled hp hl hf =>
    refine ⟨h.stands, ?_, h.running, h.config, h.quic⟩
    rintro r ⟨⟩
    exact ⟨answer_of_stands ht hf h.stands.memory, fun settings hr => secret_of_answer hr⟩
  | @delivered answer l ha hs =>
    obtain ⟨hne, hsecret⟩ := h.answer answer ha
    refine h.polled (fun he => hne (polled_ofAnswer_eq_none.mp he)) (fun config hc => ?_) hs
    cases answer with
    | ok settings =>
      cases hc
      exact .inr (hsecret settings rfl)
    | error status => cases status <;> cases hc <;> exact h.config
  | @missed poll l hm hs =>
    refine h.polled (fun he => ?_) (fun config hc => ?_) hs
    · obtain ⟨settings, rfl⟩ := polled_eq_none.mp he
      exact hm.1 rfl
    · cases poll with
      | failed =>
        cases hc
        exact h.config
      | response status settings =>
        simp only [TransportConfig.polled, if_neg hm.1, if_neg hm.2] at hc
        cases hc
        exact h.config

/-- For as long as its token is not revoked, whatever else the admin does, however saves fail, the
server restarts and answers get lost, a connector never gives up, and it takes to QUIC only with the
server's own secret and when the last settings it got allowed it. -/
theorem standing_connector_runs (E : Env) (initialized : Bool) (secret id : String)
    (bytes : Vector UInt8 32)
    (h : ((system E initialized secret (randomHex bytes) fun s =>
      Stands s.server id (E.hashToken (randomHex bytes)) ∧ s.loop = {} ∧ s.answer = none).restrict
        (Spares id)).Reachable s) :
    s.loop.phase ≠ .stopped ∧ (OnQuic s.loop → s.loop.config = ⟨secret, false⟩ ∧ secret ≠ "") := by
  have hr : Running secret id (E.hashToken (randomHex bytes)) s := by
    refine h.invariant (fun s hs => ?_) fun _ _ _ hi hs => hi.step bearerToken_issued hs.1 hs.2
    obtain ⟨hst, hl, ha⟩ := hs
    exact ⟨hst, by simp [ha], by simp [hl], by simp [hl], by simp [hl, OnQuic]⟩
  refine ⟨hr.running, fun hq => ?_⟩
  obtain ⟨hforce, hne⟩ := first_eq_quic (hr.quic hq)
  have hsecret := hr.config.resolve_left hne
  refine ⟨?_, hsecret ▸ hne⟩
  rw [← hsecret, ← hforce]

/-- The server of the enrolment, before its connector has come up. -/
def waiting : Service := { server := { state := enrolled.state, file := enrolled.state } }

theorem stands_waiting : Stands waiting.server "c1" (homeEnv.hashToken (randomHex sampleBytes)) := by
  have hc : Connectors.hash? enrolled.state.connectors "c1" =
      some (homeEnv.hashToken (randomHex sampleBytes)) := by
    rw [Connectors.hash?, enrolled, Finmap.lookup_insert, Option.map_some]
    rfl
  exact ⟨hc, hc, by simp [waiting]⟩

/-- A connector polls, gets the settings and comes up over QUIC. -/
theorem standing_connector_runs_quic : ∃ s : Service,
    ((system homeEnv true "5ec7e7" (randomHex sampleBytes) fun s =>
      Stands s.server "c1" (homeEnv.hashToken (randomHex sampleBytes)) ∧ s.loop = {} ∧
        s.answer = none).restrict (Spares "c1")).Reachable s ∧
    OnQuic s.loop ∧ s.loop.phase ≠ .stopped ∧ s.loop.config = ⟨"5ec7e7", false⟩ := by
  have h0 : ((system homeEnv true "5ec7e7" (randomHex sampleBytes) fun s =>
      Stands s.server "c1" (homeEnv.hashToken (randomHex sampleBytes)) ∧ s.loop = {} ∧
        s.answer = none).restrict (Spares "c1")).Reachable waiting := .init ⟨stands_waiting, rfl, rfl⟩
  have h1 := h0.step ⟨.handled rfl rfl searches_enrolled, fun _ h => Event.noConfusion h⟩
  have hfind : findEnrolled (randomHex sampleBytes) = some enrolledConnector := if_pos rfl
  have hanswer : connectorGetSettings true "5ec7e7" findEnrolled
      [("authorization", bearerAuth (randomHex sampleBytes))] = .ok ⟨"5ec7e7", false⟩ :=
    connectorGetSettings_eq bearerToken_issued hfind (by decide)
  rw [hanswer] at h1
  have h2 := h1.step ⟨.delivered rfl (.poll rfl rfl), fun _ h => Event.noConfusion h⟩
  have h3 := h2.step ⟨.loop (@Loop.Step.connect _ .quic 0 rfl), fun _ h => Event.noConfusion h⟩
  obtain ⟨hrun, hquic⟩ := standing_connector_runs homeEnv true "5ec7e7" "c1" sampleBytes h3
  refine ⟨_, h3, ?_, hrun, (hquic ⟨0, .inr rfl⟩).1⟩
  exact ⟨0, .inr rfl⟩

theorem stopped_step {l l' : Loop} {e : LoopEvent} (hs : Loop.Step l e l') (hp : l.phase = .stopped) :
    l'.phase = .stopped := by
  cases hs with
  | wait => exact hp
  | _ h => cases hp.symm.trans h

/-- The one answer that a connector without a token can get. -/
structure Refused (hash : String) (s : Service) : Prop where
  gone : Gone s.server hash
  answer : ∀ r, s.answer = some r → r = .error .unauthorized

theorem Refused.step (h : Refused (E.hashToken token) s)
    (ht : bearerToken [("authorization", bearerAuth token)] = some token)
    (hs : Step E true secret token s e t) (hn : NotIssued (E.hashToken token) s e t) :
    Refused (E.hashToken token) t ∧
      t.loop.starts.length ≤ s.loop.starts.length + [e].count .missed ∧
      (s.loop.phase = .stopped ∨ e = .delivered → t.loop.phase = .stopped) := by
  cases hs with
  | server hs =>
    refine ⟨⟨gone_step h.gone hs fun job he => hn job (he ▸ rfl), h.answer⟩, Nat.le_add_right _ _, ?_⟩
    simp
  | loop hs =>
    refine ⟨⟨h.gone, h.answer⟩, ?_, ?_⟩
    · rw [(loop_internal hs).2.1]
      exact Nat.le_add_right _ _
    · rintro (hp | ⟨⟨⟩⟩)
      exact stopped_step hs hp
  | handled hp hl hf =>
    refine ⟨⟨h.gone, ?_⟩, Nat.le_add_right _ _, by simp⟩
    rintro r ⟨⟩
    exact answer_of_gone ht hf h.gone.memory
  | @delivered answer l ha hs =>
    obtain rfl := h.answer answer ha
    refine ⟨⟨h.gone, by simp⟩, ?_⟩
    cases hs with
    | poll hp hc => cases hc
    | stop hp hc => exact ⟨Nat.le_add_right _ _, fun _ => rfl⟩
  | @missed poll l hm hs =>
    refine ⟨⟨h.gone, by simp⟩, ?_, ?_⟩
    · cases hs with
      | poll hp hc => simp [Loop.runSession]
      | stop hp hc => exact Nat.le_add_right _ _
    · rintro (hp | ⟨⟨⟩⟩)
      exact stopped_step hs hp

theorem refused_run {es : List Event} {Init : Service → Prop}
    (ht : bearerToken [("authorization", bearerAuth token)] = some token)
    (hr : ((system E true secret token Init).restrict (NotIssued (E.hashToken token))).MTr s es t)
    (h : Refused (E.hashToken token) s) :
    t.loop.starts.length ≤ s.loop.starts.length + es.count .missed ∧
      (s.loop.phase = .stopped ∨ .delivered ∈ es → t.loop.phase = .stopped) := by
  induction hr with
  | refl => simp
  | @stepL s u t e es hs _ ih =>
    obtain ⟨hu, hstarts, hstop⟩ := h.step ht hs.1 hs.2
    obtain ⟨ihstarts, ihstop⟩ := ih hu
    refine ⟨?_, ?_⟩
    · have hcount : ([e] ++ es).count .missed = [e].count .missed + es.count .missed :=
        List.count_append
      rw [List.singleton_append] at hcount
      omega
    · rintro (hp | hmem)
      · exact ihstop (.inl (hstop (.inl hp)))
      · rcases List.mem_cons.mp hmem with rfl | hmem
        · exact ihstop (.inl (hstop (.inr rfl)))
        · exact ihstop (.inr hmem)

/-- An answer from before may still be on its way; nothing else gets a connector in. -/
theorem gone_run_step (hg : Gone s.server (E.hashToken token))
    (ht : bearerToken [("authorization", bearerAuth token)] = some token)
    (hs : Step E true secret token s e t) (hn : NotIssued (E.hashToken token) s e t) :
    (Refused (E.hashToken token) t ∧
      t.loop.starts.length ≤ s.loop.starts.length + [e].count .missed + [e].count .delivered) ∨
    (Gone t.server (E.hashToken token) ∧ t.loop.starts = s.loop.starts ∧
      [e].count .missed = 0 ∧ [e].count .delivered = 0) := by
  have hpoll : ∀ {poll l}, Loop.Step s.loop (.poll poll) l →
      l.starts.length ≤ s.loop.starts.length + 1 := by
    intro poll l hs
    cases hs with
    | poll hp hc => simp [Loop.runSession]
    | stop hp hc => exact Nat.le_succ _
  cases hs with
  | server hs => exact .inr ⟨gone_step hg hs fun job he => hn job (he ▸ rfl), rfl, rfl, rfl⟩
  | loop hs => exact .inr ⟨hg, (loop_internal hs).2.1, rfl, rfl⟩
  | handled hp hl hf =>
    refine .inl ⟨⟨hg, ?_⟩, Nat.le_add_right _ _⟩
    rintro r ⟨⟩
    exact answer_of_gone ht hf hg.memory
  | delivered ha hs => exact .inl ⟨⟨hg, by simp⟩, hpoll hs⟩
  | missed hm hs => exact .inl ⟨⟨hg, by simp⟩, hpoll hs⟩

theorem gone_run {es : List Event} {Init : Service → Prop}
    (ht : bearerToken [("authorization", bearerAuth token)] = some token)
    (hr : ((system E true secret token Init).restrict (NotIssued (E.hashToken token))).MTr s es t)
    (hg : Gone s.server (E.hashToken token)) :
    t.loop.starts.length ≤ s.loop.starts.length + es.count .missed + 1 ∧
      (2 ≤ es.count .delivered → t.loop.phase = .stopped) := by
  induction hr with
  | refl => simp
  | @stepL s u t e es hs hrest ih =>
    have hcount : ∀ a, (e :: es).count a = [e].count a + es.count a :=
      fun a => @List.count_append _ _ a [e] es
    rw [hcount, hcount]
    rcases gone_run_step hg ht hs.1 hs.2 with ⟨hu, hstarts⟩ | ⟨hu, hstarts, hmissed, hdelivered⟩
    · obtain ⟨hlater, hstop⟩ := refused_run ht hrest hu
      have hone : [e].count .delivered ≤ 1 := List.count_le_length
      refine ⟨by omega, fun htwo => hstop (.inr (List.count_pos_iff.mp (by omega)))⟩
    · obtain ⟨hlater, hstop⟩ := ih hu
      rw [hstarts] at hlater
      exact ⟨by omega, fun htwo => hstop (by omega)⟩

/-- Once its token is gone from a server that is set up, a connector starts at most one more session
on an answer that was on its way, and one for each poll that does not get through; the first answer
from after that time stops it for good. -/
theorem revoked_connector_stops (E : Env) (secret : String) (bytes : Vector UInt8 32)
    {es : List Event} (hg : Gone s.server (E.hashToken (randomHex bytes)))
    (hr : ((system E true secret (randomHex bytes) (· = s)).restrict
      (NotIssued (E.hashToken (randomHex bytes)))).MTr s es t) :
    t.loop.starts.length ≤ s.loop.starts.length + es.count .missed + 1 ∧
      (2 ≤ es.count .delivered → t.loop.phase = .stopped) ∧
      (s.answer = none → t.loop.starts.length ≤ s.loop.starts.length + es.count .missed ∧
        (.delivered ∈ es → t.loop.phase = .stopped)) := by
  obtain ⟨hstarts, hstop⟩ := gone_run bearerToken_issued hr hg
  refine ⟨hstarts, hstop, fun ha => ?_⟩
  obtain ⟨hstarts, hstop⟩ := refused_run bearerToken_issued hr ⟨hg, by simp [ha]⟩
  exact ⟨hstarts, fun hd => hstop (.inr hd)⟩

/-- A connector that is deleted while the settings are on their way to it. -/
def deleted : Service where
  server := { state := {}, file := {} }
  answer := some (.ok ⟨"5ec7e7", true⟩)

theorem gone_deleted : Gone deleted.server (homeEnv.hashToken (randomHex sampleBytes)) := by
  have hnone : ∀ id, Connectors.hash? (∅ : Connectors) id ≠
      some (homeEnv.hashToken (randomHex sampleBytes)) := by
    simp [Connectors.hash?]
  exact ⟨hnone, hnone, by simp [deleted]⟩

/-- The loop after the session that this answer led to, a second later. -/
def once : Loop := ⟨second, ⟨"5ec7e7", true⟩, 1, .polling, [0]⟩

/-- It starts that one session, and the next poll stops it. -/
theorem revoked_connector_stops_deleted :
    Gone deleted.server (homeEnv.hashToken (randomHex sampleBytes)) ∧
    ∃ es t, ((system homeEnv true "5ec7e7" (randomHex sampleBytes) (· = deleted)).restrict
        (NotIssued (homeEnv.hashToken (randomHex sampleBytes)))).MTr deleted es t ∧
      es.count .missed = 0 ∧ es.count .delivered = 2 ∧ t.loop.starts = [0] ∧
      t.loop.phase = .stopped := by
  have hfind : Searches homeEnv deleted.server.state fun _ => none := by
    intro token connector h
    obtain ⟨id, hid⟩ := h.1
    exact absurd hid (by simp [deleted])
  have hanswer : connectorGetSettings true "5ec7e7" (fun _ => none)
      [("authorization", bearerAuth (randomHex sampleBytes))] = .error .unauthorized :=
    answer_of_gone (s := deleted) bearerToken_issued hfind gone_deleted.memory
  have hquiet : ∀ s t : Service, ∀ e, (∀ job, e ≠ .server (.begin job)) →
      NotIssued (homeEnv.hashToken (randomHex sampleBytes)) s e t :=
    fun s t e hne job he => absurd he (hne job)
  have hr : ((system homeEnv true "5ec7e7" (randomHex sampleBytes) (· = deleted)).restrict
      (NotIssued (homeEnv.hashToken (randomHex sampleBytes)))).MTr deleted
        [.delivered, .loop, .loop, .loop, .handled, .delivered]
        { deleted with loop := { once with phase := .stopped }, answer := none } :=
    .stepL ⟨.delivered rfl (.poll rfl rfl), hquiet _ _ _ (by simp)⟩ <|
    .stepL ⟨.loop (.connectFailed rfl), hquiet _ _ _ (by simp)⟩ <|
    .stepL ⟨.loop (@Loop.Step.wait _ second), hquiet _ _ _ (by simp)⟩ <|
    .stepL ⟨.loop (@Loop.Step.wake _ second rfl (by decide)), hquiet _ _ _ (by simp)⟩ <|
    .stepL ⟨.handled rfl rfl hfind, hquiet _ _ _ (by simp)⟩ <|
    .stepL ⟨.delivered rfl (hanswer ▸ .stop rfl rfl), hquiet _ _ _ (by simp)⟩ .refl
  obtain ⟨-, hstop, -⟩ := revoked_connector_stops homeEnv "5ec7e7" sampleBytes gone_deleted hr
  exact ⟨gone_deleted, _, _, hr, by decide, by decide, rfl, hstop (by decide)⟩

end Service

end X2rp.Connector
