import X2rp.Budget
import X2rp.Lts

/-! The connector's `reconnect_loop`: when it dials, over which transport, and when it gives up. -/
namespace X2rp.Connector

open Budget

/-- A second, in nanoseconds. -/
def second : Nat := 10 ^ 9

def stableSession : Nat := 30 * second

/-- Exp backoff for a failed reconnect: 1, 2, 4, 8, 16, 30s (capped at 30s). -/
def reconnectBackoffSecs (attempt : Nat) : Nat := min (1 <<< min (attempt - 1) 5) 30

/-- `u32::saturating_add(1)`. -/
def saturatingSucc (n : Nat) : Nat := min (n + 1) (2 ^ 32 - 1)

structure ServerSettings where
  obfuscationSecret : String
  forceWss : Bool
deriving DecidableEq, Repr

/-- What `run_session` goes by; the server and the token never change. -/
structure TransportConfig where
  obfuscationSecret : String := ""
  forceWss : Bool := false
deriving DecidableEq, Repr

/-- What comes of a request for the settings: a status with the body, if that parses, or nothing. -/
inductive Poll
  | response (status : Nat) (settings : Option ServerSettings)
  | failed
deriving DecidableEq, Repr

/-- The configuration after a poll; none after the one answer that ends the loop. -/
def TransportConfig.polled (config : TransportConfig) : Poll → Option TransportConfig
  | .response status settings =>
    if status = 401 then none
    else if 200 ≤ status ∧ status < 300 then
      match settings with
      | some settings => some ⟨settings.obfuscationSecret, settings.forceWss⟩
      | none => some config
    else some config
  | .failed => some config

inductive Transport
  | quic
  | wss
deriving DecidableEq, Repr

/-- What `run_session` tries first. -/
def TransportConfig.first (config : TransportConfig) : Transport :=
  if config.forceWss then .wss else if config.obfuscationSecret = "" then .wss else .quic

inductive Phase
  | polling
  /-- `run_session` was called at `started`. -/
  | dialling (transport : Transport) (started : Nat)
  | connected (transport : Transport) (started : Nat)
  | sleeping (wake : Nat)
  | stopped
deriving DecidableEq, Repr

/-- `starts` is history: when `run_session` was called, oldest first. -/
structure Loop where
  now : Nat := 0
  config : TransportConfig := {}
  retryCount : Nat := 0
  phase : Phase := .polling
  starts : List Nat := []
deriving DecidableEq, Repr

inductive LoopEvent
  | internal
  | poll (answer : Poll)
deriving DecidableEq, Repr

namespace Loop

/-- `run_session` has returned. -/
def ended (s : Loop) (started : Nat) : Loop :=
  if stableSession ≤ s.now - started then { s with retryCount := 0, phase := .polling }
  else
    let retryCount := saturatingSucc s.retryCount
    { s with retryCount, phase := .sleeping (s.now + reconnectBackoffSecs retryCount * second) }

/-- `run_session` is called. -/
def runSession (s : Loop) (config : TransportConfig) : Loop :=
  { s with config, phase := .dialling config.first s.now, starts := s.starts ++ [s.now] }

/-- Any answers, any failures, and any time between them. -/
inductive Step : Loop → LoopEvent → Loop → Prop
  | wait {s : Loop} {d : Nat} : Step s .internal { s with now := s.now + d }
  | poll {s : Loop} {answer : Poll} {config : TransportConfig} (hp : s.phase = .polling)
      (ha : s.config.polled answer = some config) : Step s (.poll answer) (s.runSession config)
  | stop {s : Loop} {answer : Poll} (hp : s.phase = .polling)
      (ha : s.config.polled answer = none) : Step s (.poll answer) { s with phase := .stopped }
  | fallBack {s : Loop} {started : Nat} (hp : s.phase = .dialling .quic started) :
      Step s .internal { s with phase := .dialling .wss started }
  | connect {s : Loop} {transport : Transport} {started : Nat}
      (hp : s.phase = .dialling transport started) :
      Step s .internal { s with phase := .connected transport started }
  | connectFailed {s : Loop} {started : Nat} (hp : s.phase = .dialling .wss started) :
      Step s .internal (s.ended started)
  | disconnect {s : Loop} {transport : Transport} {started : Nat}
      (hp : s.phase = .connected transport started) : Step s .internal (s.ended started)
  | wake {s : Loop} {wake : Nat} (hp : s.phase = .sleeping wake) (hw : wake ≤ s.now) :
      Step s .internal { s with phase := .polling }

def system : LTS Loop LoopEvent := ⟨fun s => s = {}, Step⟩

variable {s t : Loop} {e : LoopEvent}

/-- What the count of failures is worth, in ninths of a dial: how many more dials may follow in
quick succession. -/
def slack : Nat → Nat
  | 0 => 30
  | 1 => 22
  | 2 => 15
  | 3 => 10
  | _ => 9

theorem slack_bounds (r : Nat) : 9 ≤ slack r ∧ slack r ≤ 30 := by
  match r with
  | 0 | 1 | 2 | 3 => decide
  | _ + 4 => exact ⟨Nat.le_refl 9, (show 9 ≤ 30 by decide)⟩

/-- A dial is paid for by the wait that follows it and the slack that is lost. -/
theorem slack_succ (r : Nat) :
    9 + slack (saturatingSucc r) ≤ slack r + reconnectBackoffSecs (saturatingSucc r) := by
  match r with
  | 0 | 1 | 2 | 3 | 4 => decide
  | r + 5 =>
    have hs : saturatingSucc (r + 5) = saturatingSucc (r + 5) - 6 + 6 := by
      unfold saturatingSucc
      omega
    have h1 : slack (saturatingSucc (r + 5)) = 9 := by rw [hs]; rfl
    have h2 : reconnectBackoffSecs (saturatingSucc (r + 5)) = 30 := by
      have hmin : min (saturatingSucc (r + 5) - 1) 5 = 5 := by omega
      rw [reconnectBackoffSecs, hmin]
      rfl
    have h3 := (slack_bounds (r + 5)).1
    omega

/-- A dial at the time `x` would be within bounds, and leave the slack. -/
def InBudget (s : Loop) (x : Nat) : Prop :=
  ∀ a, since s.starts a * (9 * second) + slack s.retryCount * second ≤ 30 * second + (x - a)

/-- What is known of the next dial in each phase. -/
def Next (s : Loop) : Prop :=
  match s.phase with
  | .polling => s.InBudget s.now
  | .sleeping wake => s.InBudget wake
  | .dialling _ started | .connected _ started =>
    started ≤ s.now ∧ (∀ x ∈ s.starts, x ≤ started) ∧
      ∀ a, a ≤ started → since s.starts a * (9 * second) + slack s.retryCount * second ≤
        39 * second + (started - a)
  | .stopped => True

structure Paced (s : Loop) : Prop where
  windows : ∀ a d, inWindow s.starts a d * (9 * second) ≤ 30 * second + d
  past : ∀ x ∈ s.starts, x ≤ s.now
  next : s.Next

/-- After a session the next dial is in budget: the session has lasted, or the backoff makes up
for it. -/
theorem next_over {started : Nat} (hs : started ≤ s.now) (hx : ∀ x ∈ s.starts, x ≤ started)
    (hb : ∀ a, a ≤ started → since s.starts a * (9 * second) + slack s.retryCount * second ≤
      39 * second + (started - a)) : (s.ended started).Next := by
  have hlate : ∀ a, started < a → since s.starts a = 0 := by
    intro a ha
    refine since_eq_zero fun x hmem => ?_
    have := hx x hmem
    omega
  unfold ended
  split
  · rename_i hstable
    unfold stableSession at hstable
    have hslack := Nat.mul_le_mul_right second (slack_bounds s.retryCount).1
    intro a
    change since s.starts a * (9 * second) + 30 * second ≤ 30 * second + (s.now - a)
    by_cases ha : a ≤ started
    · have := hb a ha
      omega
    · rw [hlate a (by omega)]
      omega
  · have hnext := Nat.mul_le_mul_right second (slack_succ s.retryCount)
    have hbound := Nat.mul_le_mul_right second (slack_bounds (saturatingSucc s.retryCount)).2
    rw [Nat.add_mul, Nat.add_mul] at hnext
    intro a
    change since s.starts a * (9 * second) + slack (saturatingSucc s.retryCount) * second ≤
      30 * second + (s.now + reconnectBackoffSecs (saturatingSucc s.retryCount) * second - a)
    by_cases ha : a ≤ started
    · have := hb a ha
      omega
    · rw [hlate a (by omega)]
      omega

theorem ended_fields (started : Nat) :
    (s.ended started).starts = s.starts ∧ (s.ended started).now = s.now := by
  unfold ended
  split <;> exact ⟨rfl, rfl⟩

theorem Paced.step (h : Paced s) (hs : Step s e t) : Paced t := by
  have hnext := h.next
  unfold Next at hnext
  cases hs with
  | @wait d =>
    refine ⟨h.windows, fun x hx => (h.past x hx).trans (Nat.le_add_right _ _), ?_⟩
    unfold Next
    dsimp only
    -- Time only helps.
    split at hnext
    · intro a
      have := hnext a
      dsimp only
      omega
    · exact hnext
    · exact ⟨hnext.1.trans (Nat.le_add_right _ _), hnext.2⟩
    · exact ⟨hnext.1.trans (Nat.le_add_right _ _), hnext.2⟩
    · trivial
  | @poll answer config hp ha =>
    rw [hp] at hnext
    have hslack := Nat.mul_le_mul_right second (slack_bounds s.retryCount).1
    refine ⟨window_snoc h.windows fun a ha => ?_, ?_, Nat.le_refl _, ?_, fun a ha => ?_⟩
    · have := hnext a
      rw [Nat.add_mul, Nat.one_mul]
      omega
    · intro x hx
      rcases List.mem_append.mp hx with hx | hx
      · exact h.past x hx
      · rw [List.mem_singleton.mp hx]
        exact Nat.le_refl _
    · intro x hx
      rcases List.mem_append.mp hx with hx | hx
      · exact h.past x hx
      · rw [List.mem_singleton.mp hx]
    · have := hnext a
      change since (s.starts ++ [s.now]) a * (9 * second) + slack s.retryCount * second ≤
        39 * second + (s.now - a)
      rw [since_append, since_singleton ha, Nat.add_mul, Nat.one_mul]
      omega
  | stop hp ha => exact ⟨h.windows, h.past, trivial⟩
  | fallBack hp | connect hp =>
    rw [hp] at hnext
    exact ⟨h.windows, h.past, hnext⟩
  | @connectFailed started hp | @disconnect transport started hp =>
    rw [hp] at hnext
    obtain ⟨hstarts, hnow⟩ := ended_fields (s := s) started
    refine ⟨hstarts ▸ h.windows, ?_, next_over hnext.1 hnext.2.1 hnext.2.2⟩
    rw [hstarts, hnow]
    exact h.past
  | @wake wake hp hw =>
    rw [hp] at hnext
    refine ⟨h.windows, h.past, fun a => ?_⟩
    have := hnext a
    change since s.starts a * (9 * second) + slack s.retryCount * second ≤
      30 * second + (s.now - a)
    omega

/-- Whatever the server and the network do, in any window of `d` seconds the connector starts at
most (30 + d) / 9 sessions: no outage and no server that hangs up at once makes it dial hot. -/
theorem dials_are_paced (h : system.Reachable s) (a d : Nat) :
    inWindow s.starts a (d * second) * 9 ≤ 30 + d := by
  have hp : Paced s := by
    refine h.invariant ?_ fun _ _ _ hi hs => hi.step hs
    rintro _ rfl
    exact ⟨by simp, by simp, fun a => by simp [since, slack]⟩
  have hw := hp.windows a (d * second)
  rw [← Nat.mul_assoc, ← Nat.add_mul] at hw
  exact Nat.le_of_mul_le_mul_right hw (by decide)

/-- A round in which the server cannot be reached at all. -/
def round (s : Loop) : Loop :=
  { s with
    now := s.now + reconnectBackoffSecs (saturatingSucc s.retryCount) * second
    retryCount := saturatingSucc s.retryCount
    starts := s.starts ++ [s.now] }

theorem reachable_round (h : system.Reachable s) (hp : s.phase = .polling)
    (hc : s.config.first = .wss) : system.Reachable s.round := by
  have h1 := h.step (@Step.poll s .failed s.config hp rfl)
  have h2 := h1.step (@Step.connectFailed _ s.now (by simp [runSession, hc]))
  have hended : (s.runSession s.config).ended s.now =
      { s with
        retryCount := saturatingSucc s.retryCount
        phase := .sleeping (s.now + reconnectBackoffSecs (saturatingSucc s.retryCount) * second)
        starts := s.starts ++ [s.now] } := by
    simp [ended, runSession, stableSession, second]
  rw [hended] at h2
  have h3 := (h2.step (@Step.wait _ (reconnectBackoffSecs (saturatingSucc s.retryCount) * second))).step
    (.wake rfl (Nat.le_refl _))
  have he : { s with
      now := s.now + reconnectBackoffSecs (saturatingSucc s.retryCount) * second
      retryCount := saturatingSucc s.retryCount
      phase := .polling
      starts := s.starts ++ [s.now] } = s.round := by
    rw [round, hp]
  exact he ▸ h3

/-- Five dials in the first fifteen seconds of an outage, which is as many as there can be. -/
theorem dials_are_paced_outage : ∃ s, system.Reachable s ∧ inWindow s.starts 0 (15 * second) = 5 ∧
    inWindow s.starts 0 (15 * second) * 9 ≤ 30 + 15 := by
  have h0 : system.Reachable {} := .init rfl
  have h1 := reachable_round h0 rfl rfl
  have h2 := reachable_round h1 rfl rfl
  have h3 := reachable_round h2 rfl rfl
  have h4 := reachable_round h3 rfl rfl
  have h5 := reachable_round h4 rfl rfl
  exact ⟨_, h5, by decide, dials_are_paced h5 0 15⟩

end Loop

end X2rp.Connector
