import X2rp.Admin.Records
import X2rp.Proto.Codec

/-! The write loop of a connector's WSS session, and the tunnels to stored routes. -/
namespace X2rp.Wss

open Proto Admin

/-- What the write loop of `run_session` wakes up to: a message from the queue or its end, the
heartbeat, or the shutdown. -/
inductive Wake
  | recv (msg : Option Message)
  | ping
  | shutdown
deriving DecidableEq

inductive WsMessage
  | binary (body : Bytes)
  | ping
deriving DecidableEq

/-- The frame to send next; without one the loop breaks off. -/
def Wake.frame : Wake → Option WsMessage
  | .recv msg =>
    match msg.map Message.encode with
    | some (.ok body) => some (.binary body)
    | _ => none
  | .ping => some .ping
  | .shutdown => none

/-- The frames that get out, and whether the loop is still going. Each wake comes with whether the
sink takes the frame. -/
def writeLoop : List (Wake × Bool) → List WsMessage × Bool
  | [] => ([], true)
  | (wake, sent) :: rest =>
    match wake.frame with
    | none => ([], false)
    | some frame =>
      if sent then (frame :: (writeLoop rest).1, (writeLoop rest).2) else ([], false)

variable {wakes : List (Wake × Bool)} {wake : Wake} {streamId : UInt32} {target : String}

theorem writeLoop_going : (writeLoop wakes).2 = true ↔ ∀ w ∈ wakes, w.1.frame ≠ none ∧ w.2 = true := by
  induction wakes with
  | nil => simp [writeLoop]
  | cons w rest ih =>
    obtain ⟨wake, sent⟩ := w
    rw [List.forall_mem_cons, ← ih, writeLoop]
    cases hf : wake.frame with
    | none => simp
    | some frame => cases sent <;> simp

/-- A loop that was going is ended by a wake that gives no frame, and by nothing else. -/
theorem writeLoop_snoc (hw : (writeLoop wakes).2 = true) :
    (writeLoop (wakes ++ [(wake, true)])).2 = true ↔ wake.frame ≠ none := by
  rw [writeLoop_going] at hw ⊢
  simp only [List.mem_append, List.mem_singleton, or_imp, forall_and, forall_eq]
  constructor
  · exact fun h => h.1.2
  · exact fun h => ⟨⟨fun w hm => (hw w hm).1, h⟩, fun w hm => (hw w hm).2, trivial⟩

theorem encode_connect (streamId : UInt32) : (∃ body, (Message.connect streamId target).encode = .ok body) ↔
    target.utf8ByteSize ≤ maxConnectTargetLen := by
  simp only [Message.encode_eq_ok_iff, Message.Fits, exists_and_left, exists_eq, and_true]

theorem frame_connect : (Wake.recv (some (.connect streamId target))).frame ≠ none ↔
    target.utf8ByteSize ≤ maxConnectTargetLen := by
  rw [← encode_connect streamId]
  simp only [Wake.frame, Option.map_some]
  cases (Message.connect streamId target).encode with
  | ok body => simp
  | error e => simp

/-- The first message of a session gets out if it can be encoded. -/
theorem writeLoop_connect : (writeLoop [(.recv (some (.connect streamId target)), true)]).2 = true ↔
    target.utf8ByteSize ≤ maxConnectTargetLen :=
  (writeLoop_snoc (show (writeLoop []).2 = true from rfl)).trans frame_connect

/-- The tunnel's first message does not end the session. -/
def Opens (target : String) : Prop :=
  ∀ streamId wakes, (writeLoop wakes).2 = true →
    (writeLoop (wakes ++ [(.recv (some (.connect streamId target)), true)])).2 = true

theorem opens_iff : Opens target ↔ target.utf8ByteSize ≤ maxConnectTargetLen := by
  constructor
  · intro h
    exact writeLoop_connect.mp (h 0 [] rfl)
  · intro h streamId wakes hw
    exact (writeLoop_snoc hw).mpr (frame_connect.mpr h)

variable {E : Env} {s t : Server}

/-- A server that has stored no resource yet. -/
structure Blank (s : Server) : Prop where
  waiting : s.waiting = []
  holder : s.holder = none
  state : s.state.resources = []
  file : s.file.resources = []

theorem Blank.records {P : Resource → Prop} (h : Blank s) : s.Records P where
  state r hr := by simp [h.state] at hr
  file r hr := by simp [h.file] at hr
  undo c u hc := by simp [h.holder] at hc
  effects c r hc := by simp [h.holder] at hc
  waiting job hj := by simp [h.waiting] at hj

def Validated (E : Env) (r : Resource) : Prop :=
  ∃ answer, validateTarget E answer r.target r.connectorId = .ok ()

theorem writes_validated {req : Request} {job : Job} {state : AppState}
    {answer : Option (List SocketAddr)} (h : Prepared E state answer req job) :
    job.Writes (Validated E) := by
  cases h with
  | createResource hd hv =>
    rintro fresh r answer ⟨⟩
    exact ⟨_, hv⟩
  | updateResource hc hmem hid hv =>
    rintro fresh r answer ⟨⟩
    exact ⟨_, hv⟩
  | _ => exact nofun

/-- A record that goes through a connector has a target that fits into a Connect. -/
def Short (r : Resource) : Prop :=
  r.connectorId.isSome → r.target.utf8ByteSize ≤ maxConnectTargetLen

/-- The condition on a step: no handler has a longer one ready. -/
def WritesShort (_ : Server) (_ : Admin.Event) (t : Server) : Prop := ∀ job ∈ t.waiting, job.Writes Short

/-- A tunnel opens exactly if its target is within the limit of a Connect, which the gate that all
stored targets have passed does not ask for. If the handlers never have a longer target to write for a
connector, no stored route can end a session. -/
theorem stored_routes_open (E : Env) :
    (∀ target, (∀ streamId, ∃ body, (Message.connect streamId target).encode = .ok body) ↔
      target.utf8ByteSize ≤ maxConnectTargetLen) ∧
    (∀ s, (Server.system E Blank).Reachable s → ∀ r ∈ s.state.resources, Validated E r ∧
      (Opens r.target ↔ r.target.utf8ByteSize ≤ maxConnectTargetLen)) ∧
    ∀ s, ((Server.system E Blank).restrict WritesShort).Reachable s → ∀ r ∈ s.state.resources,
      r.connectorId.isSome → Opens r.target := by
  refine ⟨fun target => ?_, fun s hs r hr => ⟨?_, opens_iff⟩, fun s hs r hr hc => ?_⟩
  · simp only [encode_connect, forall_const]
  · have hrec : s.Records (Validated E) := hs.invariant (fun s hb => Blank.records hb)
      fun s e t h hstep => Server.records_step h hstep fun _ _ _ hp _ => writes_validated hp
    exact hrec.state r hr
  · have hrec : s.Records Short := hs.invariant (fun s hb => Blank.records hb)
      fun s e t h hstep => Server.records_step h hstep.1 fun _ _ job _ hj => hstep.2 job hj
    exact opens_iff.mpr (hrec.state r hr hc)

section Runs

/-- Other crates that take this for the URI of an origin in a LAN, user and password included. -/
def lanEnv (target : String) : Env :=
  { sampleEnv with
    parseUri := fun t =>
      if t = target then some ⟨some "http", some "10.0.0.5", some 8080, some ("/", none)⟩ else none
    parseAddr := fun host => if host = "10.0.0.5" then some (.v4 (.new 10 0 0 5)) else none }

/-- A server with one connector. -/
def linked : Server :=
  { state := { connectors := Finmap.singleton "c1" sampleConnector, domain := "example.com" },
    file := { domain := "example.com" } }

def lanResource (target : String) : Resource :=
  { id := "r1", subdomain := "app", target, connectorId := some "c1" }

theorem lan_validated : validateTarget (lanEnv target) none target (some "c1") = .ok () := by
  have hp : parseHttpTargetHostPort (lanEnv target) target = .ok ("10.0.0.5", 8080, false) := by
    simp only [parseHttpTargetHostPort, lanEnv, if_true]
    rfl
  rw [validateTarget, hp]
  rfl

/-- The handler that is to store it. -/
def lanJob (target : String) : Job :=
  .createResource { id := "", subdomain := "app", target, connectorId := some "c1" } none

theorem lan_prepare (state : AppState) :
    (Request.createResource ⟨"app", target, some "c1", []⟩).prepare (lanEnv target) state none =
      .ok (lanJob target) := by
  have hname : normalizeSubdomain "app" = "app" := by decide
  have hvalid : validateSubdomain "app" = .ok () := by decide
  have hid : normalizeConnectorId (some "c1") = some "c1" := by decide
  have hlist : parseAllowlist (lanEnv target) [] = .ok [] := rfl
  simp only [Request.prepare, CreateResourceRequest.draft, hname, hvalid, hid, hlist, bind,
    Except.bind, pure, Except.pure, lan_validated, lanJob]

/-- The target gets stored. -/
theorem lan_reachable (target : String) {C : Server → Admin.Event → Server → Prop}
    (hC : ∀ s e t, (∀ job ∈ t.waiting, job = lanJob target) → C s e t) :
    ∃ s, ((Server.system (lanEnv target) Blank).restrict C).Reachable s ∧
      s.state.resources = [lanResource target] := by
  have hlinked : ((Server.system (lanEnv target) Blank).restrict C).Reachable linked :=
    .init ⟨rfl, rfl, rfl, rfl⟩
  have hrequest := hlinked.step ⟨.request rfl (lan_prepare _), hC _ _ _ (by simp [linked])⟩
  have hconnector : "r1" ∉ linked.state.connectors := by simp [linked]
  have hbegin := hrequest.step ⟨@Server.Step.begin _ _ (lanJob target) [] [] ⟨"r1", ""⟩ _ _ rfl rfl
    nofun hconnector rfl, hC _ _ _ fun _ hm => absurd hm List.not_mem_nil⟩
  exact ⟨_, hbegin, rfl⟩

/-- A target of ordinary length is stored, and its tunnels open. -/
theorem stored_routes_open_lan : ∃ s,
    ((Server.system (lanEnv "http://10.0.0.5:8080") Blank).restrict WritesShort).Reachable s ∧
    ∃ r ∈ s.state.resources, r.connectorId = some "c1" ∧ Opens r.target := by
  have hshort : (lanJob "http://10.0.0.5:8080").Writes Short := by
    rintro fresh r answer ⟨⟩ _
    exact show "http://10.0.0.5:8080".utf8ByteSize ≤ maxConnectTargetLen by decide
  obtain ⟨s, hs, hr⟩ := lan_reachable "http://10.0.0.5:8080" (C := WritesShort)
    fun s e t hjobs job hj => hjobs job hj ▸ hshort
  have hmem : lanResource "http://10.0.0.5:8080" ∈ s.state.resources :=
    hr ▸ List.mem_singleton_self _
  exact ⟨s, hs, _, hmem, rfl, (stored_routes_open _).2.2 s hs _ hmem rfl⟩

/-- A user name of this length. -/
def user : Nat → String
  | 0 => ""
  | n + 1 => user n ++ "u"

theorem size_user (n : Nat) : (user n).utf8ByteSize = n := by
  induction n with
  | zero => rfl
  | succ n ih =>
    rw [user, String.utf8ByteSize_append, ih]
    rfl

def userTarget (n : Nat) : String := "http://" ++ user n ++ "@10.0.0.5:8080"

theorem size_userTarget (n : Nat) : (userTarget n).utf8ByteSize = 7 + n + 14 := by
  rw [userTarget, String.utf8ByteSize_append, String.utf8ByteSize_append, size_user]
  rfl

/-- No tunnel to a target that is too long can be opened, and the attempt ends the session. -/
theorem lan_ends_session (hlong : ¬ target.utf8ByteSize ≤ maxConnectTargetLen) : ∃ s,
    (Server.system (lanEnv target) Blank).Reachable s ∧
    ∃ r ∈ s.state.resources, r.connectorId = some "c1" ∧ Validated (lanEnv target) r ∧
      ∀ streamId, (∀ body, (Message.connect streamId r.target).encode ≠ .ok body) ∧
        (writeLoop [(.recv (some (.connect streamId r.target)), true)]).2 = false := by
  obtain ⟨s, hs, hr⟩ := lan_reachable target (C := fun _ _ _ => True) fun _ _ _ _ => trivial
  have hmem : lanResource target ∈ s.state.resources := hr ▸ List.mem_singleton_self _
  refine ⟨s, hs.of_restrict, _, hmem, rfl, ⟨none, lan_validated⟩, fun streamId => ⟨?_, ?_⟩⟩
  · exact fun body hb => hlong ((encode_connect streamId).mp ⟨body, hb⟩)
  · rw [← Bool.not_eq_true]
    exact fun h => hlong (writeLoop_connect.mp h)

/-- A target with a long user name passes the gate and is stored. No tunnel to it can be opened, and
the attempt ends the session. -/
theorem long_target_ends_session : ∃ s,
    (Server.system (lanEnv (userTarget 2048)) Blank).Reachable s ∧
    ∃ r ∈ s.state.resources, r.connectorId = some "c1" ∧ Validated (lanEnv (userTarget 2048)) r ∧
      ∀ streamId, (∀ body, (Message.connect streamId r.target).encode ≠ .ok body) ∧
        (writeLoop [(.recv (some (.connect streamId r.target)), true)]).2 = false := by
  refine lan_ends_session ?_
  rw [size_userTarget]
  decide

end Runs

end X2rp.Wss
