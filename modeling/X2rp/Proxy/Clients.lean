import X2rp.Proxy.Texts
import X2rp.Proxy.Gateway

/-! What the edge makes of a client's address: the key of its budget, and whether it is on the
allowlist of a resource. -/
namespace X2rp.Proxy

open Proto Admin

variable {E : Env} {a b : SocketAddr} {ip ip' : IpAddr} {net : IpNet} {entries stored : List String}

/-- What is left of type IPv6 is not an IPv4 address in disguise. -/
theorem toIpv4Mapped_of_toCanonical {addr : Ipv6Addr} (h : ip.toCanonical = .v6 addr) :
    addr.toIpv4Mapped = none := by
  cases ip with
  | v4 => cases h
  | v6 addr' =>
    simp only [IpAddr.toCanonical] at h
    split at h
    · cases h
    · cases h
      assumption

@[simp] theorem toCanonical_toCanonical : ip.toCanonical.toCanonical = ip.toCanonical := by
  cases h : ip.toCanonical with
  | v4 => rfl
  | v6 => simp [IpAddr.toCanonical, toIpv4Mapped_of_toCanonical h]

theorem toCanonical_toIpv6Mapped (addr : Ipv4Addr) :
    (IpAddr.v6 addr.toIpv6Mapped).toCanonical = .v4 addr := by
  have h : addr.toIpv6Mapped.toIpv4Mapped = some addr :=
    Ipv6Addr.toIpv4Mapped_eq_some_iff.mpr rfl
  simp only [IpAddr.toCanonical, h]

section Key

/-- The key of a client, from its address alone. -/
theorem clientKey_peer (ht : AddrTexts E) : clientKey E (clientIpFromPeer E (some a)) =
    match a.ip.toCanonical with
    | .v4 addr => E.displayAddr (.v4 addr)
    | .v6 addr => E.displayAddr (.v6 (addr &&& (BitVec.allOnes 128 <<< 64))) ++ "/64" := by
  simp only [clientIpFromPeer, Option.map_some, Option.getD_some, clientKey, ht.parse]
  split
  · rename_i addr h
    simp only [Option.some_inj] at h
    simp only [h, toIpv4Mapped_of_toCanonical h]
  · rename_i h
    split
    · rename_i he
      rw [he]
    · rename_i addr he
      exact absurd (congrArg some he) (h addr)

theorem ne_of_slash (ht : AddrTexts E) (text : String) : E.displayAddr ip ≠ text ++ "/64" := by
  intro h
  refine ht.no_slash ip ?_
  rw [h, String.toList_append]
  simp

/-- Two clients share a budget exactly if they have the same IPv4 address, whichever way they came,
or if their IPv6 addresses are of one /64. -/
theorem keys_partition (E : Env) (ht : AddrTexts E) (a b : SocketAddr) :
    clientKey E (clientIpFromPeer E (some a)) = clientKey E (clientIpFromPeer E (some b)) ↔
      (∃ addr, a.ip.toCanonical = .v4 addr ∧ b.ip.toCanonical = .v4 addr) ∨
      ∃ addr addr', a.ip.toCanonical = .v6 addr ∧ b.ip.toCanonical = .v6 addr' ∧
        InBlock addr addr' 64 := by
  rw [clientKey_peer ht, clientKey_peer ht]
  cases a.ip.toCanonical with
  | v4 addr =>
    cases b.ip.toCanonical with
    | v4 addr' =>
      constructor
      · intro h
        cases ht.inj h
        exact .inl ⟨addr, rfl, rfl⟩
      · rintro (⟨_, ⟨⟩, ⟨⟩⟩ | ⟨_, _, ⟨⟩, _⟩)
        rfl
    | v6 addr' =>
      constructor
      · intro h
        exact absurd h (ne_of_slash ht _)
      · rintro (⟨_, _, ⟨⟩⟩ | ⟨_, _, ⟨⟩, _⟩)
  | v6 addr =>
    cases b.ip.toCanonical with
    | v4 addr' =>
      constructor
      · intro h
        exact absurd h.symm (ne_of_slash ht _)
      · rintro (⟨_, ⟨⟩, _⟩ | ⟨_, _, _, ⟨⟩, _⟩)
    | v6 addr' =>
      constructor
      · intro h
        have h := ht.inj (String.append_left_inj "/64" |>.mp h)
        refine .inr ⟨addr, addr', rfl, rfl, ?_⟩
        exact (and_prefix_eq_iff 64).mp (IpAddr.v6.inj h)
      · rintro (⟨_, ⟨⟩, _⟩ | ⟨_, _, ⟨⟩, ⟨⟩, hb⟩)
        have hb : addr &&& BitVec.allOnes 128 <<< 64 = addr' &&& BitVec.allOnes 128 <<< 64 :=
          (and_prefix_eq_iff 64).mpr hb
        dsimp only
        rw [hb]

/-- By either stack, it is one client. -/
theorem keys_partition_home : clientKey homeEnv (clientIpFromPeer homeEnv (some ⟨.v4 home, 443⟩)) =
    clientKey homeEnv (clientIpFromPeer homeEnv (some ⟨.v6 home.toIpv6Mapped, 8443⟩)) :=
  (keys_partition homeEnv addrTexts_home _ _).mpr
    (.inl ⟨home, rfl, toCanonical_toIpv6Mapped home⟩)

end Key

section Allowlist

theorem trim_of_plain {text : String} (h : ∀ c ∈ text.toList, isWhitespace c = false) :
    trim text = text := by
  apply String.toList_inj.mp
  have hdrop : ∀ l : List Char, (∀ c ∈ l, isWhitespace c = false) → l.dropWhile isWhitespace = l := by
    intro l hl
    cases l with
    | nil => rfl
    | cons c l => simp [hl c List.mem_cons_self]
  rw [trim, String.toList_ofList, hdrop _ h, hdrop _ fun c hc => h c (List.mem_reverse.mp hc),
    List.reverse_reverse]

/-- The block that an entry stands for. -/
def entryNet (E : Env) (entry : String) : Option IpNet :=
  (E.parseNet entry).or ((E.parseAddr entry).map .ofAddr)

/-- The blocks of a list of entries. -/
def nets (E : Env) (entries : List String) : List IpNet :=
  ((entries.map trim).filter (· ≠ "")).filterMap (entryNet E)

theorem mapM_ok {α β ε : Type} {f : α → Except ε β} {g : α → Option β} {l : List α} {l' : List β}
    (hf : ∀ a b, f a = .ok b → g a = some b) (h : l.mapM f = .ok l') :
    l' = l.filterMap g ∧ ∀ a ∈ l, g a ≠ none := by
  induction l generalizing l' with
  | nil =>
    cases h
    exact ⟨rfl, by simp⟩
  | cons a l ih =>
    rw [List.mapM_cons] at h
    cases ha : f a with
    | error e =>
      rw [ha] at h
      cases h
    | ok b =>
      cases hl : l.mapM f with
      | error e =>
        rw [ha, hl] at h
        cases h
      | ok bs =>
        rw [ha, hl] at h
        cases h
        obtain ⟨hbs, hsome⟩ := ih hl
        rw [List.filterMap_cons_some (hf a b ha), ← hbs, List.forall_mem_cons]
        exact ⟨rfl, by simp [hf a b ha], hsome⟩

theorem mapM_map {α β ε : Type} {f : α → Except ε β} {g : β → α} {l : List β}
    (h : ∀ b ∈ l, f (g b) = .ok b) : (l.map g).mapM f = .ok l := by
  induction l with
  | nil => rfl
  | cons b l ih =>
    rw [List.forall_mem_cons] at h
    rw [List.map_cons, List.mapM_cons, h.1, ih h.2]
    rfl

theorem parse_eq_nets {blocks : List IpNet} (h : Allowlist.parse E entries = .ok blocks) :
    blocks = nets E entries ∧
      ∀ entry ∈ (entries.map trim).filter (· ≠ ""), entryNet E entry ≠ none := by
  refine mapM_ok (fun entry net he => ?_) h
  unfold entryNet
  split at he <;> cases he <;> simp_all

theorem valid_of_mem_nets (ht : NetTexts E) (h : net ∈ nets E entries) : Valid net := by
  obtain ⟨entry, -, he⟩ := List.mem_filterMap.mp h
  unfold entryNet at he
  cases hp : E.parseNet entry with
  | some net' =>
    rw [hp] at he
    cases he
    exact ht.valid entry _ hp
  | none =>
    rw [hp, Option.none_or, Option.map_eq_some_iff] at he
    obtain ⟨ip, -, rfl⟩ := he
    cases ip <;> exact le_rfl

/-- What has been accepted is stored in a form that means the same. -/
theorem parse_stored (ht : NetTexts E) (h : parseAllowlist E entries = .ok stored) :
    Allowlist.parse E stored = .ok (nets E entries) := by
  unfold parseAllowlist at h
  split at h
  · rename_i blocks hb
    cases h
    obtain ⟨rfl, -⟩ := parse_eq_nets hb
    have hvalid : ∀ net ∈ nets E entries, Valid net := fun _ => valid_of_mem_nets ht
    generalize nets E entries = blocks at hvalid
    have hplain : ((blocks.map E.displayNet).map trim).filter (· ≠ "") = blocks.map E.displayNet := by
      rw [List.map_map, List.filter_eq_self.mpr]
      · exact List.map_congr_left fun net hn => trim_of_plain (ht.plain net (hvalid net hn))
      · intro text htext
        obtain ⟨net, hn, rfl⟩ := List.mem_map.mp htext
        simp [trim_of_plain (ht.plain net (hvalid net hn)), ht.nonempty net (hvalid net hn)]
    rw [Allowlist.parse, hplain]
    exact mapM_map fun net hn => by rw [ht.parse net (hvalid net hn)]
  · cases h

/-- Entries that a request brings in, and the form that they are stored in. -/
inductive Accepted (E : Env) (entries : List String) : List String → Prop
  | created {req : CreateResourceRequest} {draft : Resource} (he : req.allowedClientCidrs = entries)
      (h : req.draft E = .ok draft) : Accepted E entries draft.allowedClientCidrs
  | updated {req checked : UpdateResourceRequest} {stored : List String}
      (he : req.allowedClientCidrs = some entries) (h : req.checked E = .ok checked)
      (hs : checked.allowedClientCidrs = some stored) : Accepted E entries stored

theorem Accepted.parsed (h : Accepted E entries stored) : parseAllowlist E entries = .ok stored := by
  cases h with
  | @created req draft he h =>
    subst he
    simp only [CreateResourceRequest.draft, bind, Except.bind] at h
    split at h
    · cases h
    · split at h
      · cases h
      · cases h
        assumption
  | @updated req checked stored he h hs =>
    cases hp : parseAllowlist E entries with
    | error status =>
      have hmap : Option.mapM (parseAllowlist E) (some entries) = .error status := by
        rw [Option.mapM_some, hp]
        rfl
      simp only [UpdateResourceRequest.checked, he, hmap, bind, Except.bind] at h
      split at h
      · split at h <;> cases h
      · cases h
    | ok blocks =>
      have hmap : Option.mapM (parseAllowlist E) (some entries) = .ok (some blocks) := by
        rw [Option.mapM_some, hp]
        rfl
      simp only [UpdateResourceRequest.checked, he, hmap, bind, Except.bind] at h
      split at h
      · split at h
        · cases h
        · cases h
          exact congrArg _ (Option.some_inj.mp hs)
      · cases h
        exact congrArg _ (Option.some_inj.mp hs)

/-- The client is in a block that some entry stands for, in one of its forms. -/
def Listed (E : Env) (entries : List String) (client : IpAddr) : Prop :=
  (∀ entry ∈ entries, trim entry = "") ∨
    ∃ entry ∈ entries, trim entry ≠ "" ∧ ∃ net, entryNet E (trim entry) = some net ∧
      ∃ ip, ip.toCanonical = client.toCanonical ∧ contains net ip = true

/-- An IPv6 entry covers the IPv4-mapped form of the client's address, and no IPv4 entry covers the
address itself. -/
def Disguised (E : Env) (entries : List String) (client : IpAddr) : Prop :=
  ∃ addr, client.toCanonical = .v4 addr ∧
    (∃ net ∈ nets E entries, contains net (.v6 addr.toIpv6Mapped) = true) ∧
    ∀ net ∈ nets E entries, contains net (.v4 addr) = false

/-- A request that is within its budget and has a route is stopped for its client alone. -/
theorem requestFilter_forbidden {domain fresh k : String} {routes : Routes} {connectors : Managers}
    {check : Tier → String → Bool} {req : Request} {resource : ProxyResource}
    (hs : select domain routes req.host = some (k, resource))
    (hrate : requestFilter E domain routes connectors check fresh req ≠ .error .tooManyRequests) :
    requestFilter E domain routes connectors check fresh req = .error .forbidden ↔
      resource.allowedClients.any
        (fun blocks => (E.parseAddr (clientIpFromPeer E req.client)).any (admits blocks)) = false := by
  unfold requestFilter at hrate ⊢
  simp only [hs, bind, Except.bind, pure, Except.pure, throw, throwThe, MonadExceptOf.throw] at hrate ⊢
  generalize check _ _ = allowed at hrate ⊢
  cases allowed with
  | false => exact absurd rfl hrate
  | true =>
    generalize resource.allowedClients.any _ = admitted
    cases admitted with
    | false => exact ⟨fun _ => rfl, fun _ => rfl⟩
    | true =>
      refine ⟨fun h => ?_, nofun⟩
      cases hc : resource.connectorId with
      | none => simp [hc] at h
      | some id => cases hm : connectors id <;> simp [hc, hm] at h

theorem eq_of_toCanonical_v6 {addr : Ipv6Addr} (h : ip.toCanonical = .v6 addr) : ip = .v6 addr := by
  cases ip with
  | v4 => cases h
  | v6 addr' =>
    simp only [IpAddr.toCanonical] at h
    split at h
    · cases h
    · exact h

/-- The two forms of an IPv4 address. -/
theorem toCanonical_eq_v4 {addr : Ipv4Addr} :
    ip.toCanonical = .v4 addr ↔ ip = .v4 addr ∨ ip = .v6 addr.toIpv6Mapped := by
  constructor
  · intro h
    cases ip with
    | v4 => exact .inl h
    | v6 addr' =>
      simp only [IpAddr.toCanonical] at h
      split at h
      · rename_i hm
        cases h
        exact .inr (congrArg _ (Ipv6Addr.toIpv4Mapped_eq_some_iff.mp hm))
      · cases h
  · rintro (rfl | rfl)
    · rfl
    · exact toCanonical_toIpv6Mapped addr

/-- Of a list that has been accepted, every entry but the blank ones stands for a block. -/
theorem Accepted.listed_iff (h : Accepted E entries stored) : Listed E entries ip ↔
    nets E entries = [] ∨
      ∃ net ∈ nets E entries, ∃ ip', ip'.toCanonical = ip.toCanonical ∧ contains net ip' = true := by
  have hparse := h.parsed
  unfold parseAllowlist at hparse
  split at hparse
  · rename_i blocks hb
    obtain ⟨-, hsome⟩ := parse_eq_nets hb
    refine or_congr ⟨fun hblank => ?_, fun hnil entry he => ?_⟩ ⟨?_, ?_⟩
    · have : (entries.map trim).filter (· ≠ "") = [] := by simpa using hblank
      rw [nets, this]
      rfl
    · by_contra hne
      refine hsome (trim entry) ?_ (List.filterMap_eq_nil_iff.mp hnil _ ?_)
      all_goals
        simp only [List.mem_filter, List.mem_map, decide_eq_true_eq]
        exact ⟨⟨entry, he, rfl⟩, hne⟩
    · rintro ⟨entry, he, hne, net, hnet, hip⟩
      refine ⟨net, List.mem_filterMap.mpr ⟨trim entry, ?_, hnet⟩, hip⟩
      simp only [List.mem_filter, List.mem_map, decide_eq_true_eq]
      exact ⟨⟨entry, he, rfl⟩, hne⟩
    · rintro ⟨net, hnet, hip⟩
      obtain ⟨text, htext, he⟩ := List.mem_filterMap.mp hnet
      simp only [List.mem_filter, List.mem_map, decide_eq_true_eq] at htext
      obtain ⟨⟨entry, hentry, rfl⟩, hne⟩ := htext
      exact ⟨entry, hentry, hne, net, he, hip⟩
  · cases hparse

theorem admits_iff {blocks : List IpNet} : admits blocks ip = true ↔
    blocks = [] ∨ ∃ net ∈ blocks, contains net ip.toCanonical = true := by
  simp [admits]

theorem or_iff_or_or {p q r : Prop} (h : p → ¬ r) : (p ∨ q ↔ p ∨ q ∨ r) ↔ ¬ (r ∧ ¬ q) := by
  tauto

/-- The edge lets a client pass exactly if it is listed, unless only an IPv6 entry lists its IPv4
address: the client's address has been put into its IPv4 form, and the entry has not. -/
theorem allowlist_exact (E : Env) (ha : AddrTexts E) (hn : NetTexts E) {entries stored : List String}
    (hacc : Accepted E entries stored) {resource : Resource}
    (hr : resource.allowedClientCidrs = stored) {domain fresh k : String} {routes : Routes}
    {connectors : Managers} {check : Tier → String → Bool} {req : Request} {client : SocketAddr}
    (hc : req.client = some client)
    (hs : select domain routes req.host = some (k, .fromResource E resource))
    (hrate : requestFilter E domain routes connectors check fresh req ≠ .error .tooManyRequests) :
    (requestFilter E domain routes connectors check fresh req ≠ .error .forbidden ↔
        Listed E entries client.ip) ↔
      ¬ Disguised E entries client.ip := by
  subst hr
  have hclients : (ProxyResource.fromResource E resource).allowedClients =
      some (nets E entries) := by
    simp [ProxyResource.fromResource, parse_stored hn hacc.parsed, Except.toOption]
  have hpass : requestFilter E domain routes connectors check fresh req ≠ .error .forbidden ↔
      nets E entries = [] ∨
        ∃ net ∈ nets E entries, contains net client.ip.toCanonical = true := by
    rw [Ne, requestFilter_forbidden hs hrate, hclients, hc, clientIpFromPeer, Option.map_some,
      Option.getD_some, ha.parse, Option.any_some, Option.any_some, Bool.not_eq_false, admits_iff,
      toCanonical_toCanonical]
  rw [hpass, hacc.listed_iff, Disguised]
  cases hcan : client.ip.toCanonical with
  | v6 addr =>
    -- An IPv6 address that is no other one's disguise has only this form.
    refine ⟨fun _ => by simp, fun _ => or_congr_right (exists_congr fun net => and_congr_right fun _ => ?_)⟩
    constructor
    · intro h
      exact ⟨.v6 addr, by rw [← hcan, toCanonical_toCanonical], h⟩
    · rintro ⟨ip', he, h⟩
      rwa [eq_of_toCanonical_v6 he] at h
  | v4 addr =>
    have hforms : (∃ net ∈ nets E entries, ∃ ip', ip'.toCanonical = .v4 addr ∧
        contains net ip' = true) ↔ (∃ net ∈ nets E entries, contains net (.v4 addr) = true) ∨
          ∃ net ∈ nets E entries, contains net (.v6 addr.toIpv6Mapped) = true := by
      simp only [toCanonical_eq_v4, or_and_right, exists_or, exists_eq_left, and_or_left]
    have hdisguised : (∃ addr', IpAddr.v4 addr = .v4 addr' ∧
        (∃ net ∈ nets E entries, contains net (.v6 addr'.toIpv6Mapped) = true) ∧
        ∀ net ∈ nets E entries, contains net (.v4 addr') = false) ↔
          (∃ net ∈ nets E entries, contains net (.v6 addr.toIpv6Mapped) = true) ∧
            ¬ ∃ net ∈ nets E entries, contains net (.v4 addr) = true := by
      simp
    have hnil : nets E entries = [] →
        ¬ ∃ net ∈ nets E entries, contains net (.v6 addr.toIpv6Mapped) = true := by
      intro h
      simp [h]
    rw [hforms, hdisguised]
    exact or_iff_or_or hnil

/-- A resource for whoever is on a list. -/
def guarded (stored : List String) : Resource := { sampleResource with allowedClientCidrs := stored }

def guardedRoutes (stored : List String) : Routes :=
  Function.update (fun _ => none) "app.example.com" (some (.fromResource homeEnv (guarded stored)))

def requestFrom (ip : IpAddr) : Request :=
  { requestFor "app.example.com" with client := some ⟨ip, 50000⟩ }

/-- What a client gets to hear that has budget left. -/
def visit (stored : List String) (ip : IpAddr) : Except StatusCode RequestCtx :=
  requestFilter homeEnv "example.com" (guardedRoutes stored) (fun _ => none) (fun _ _ => true) "id-1"
    (requestFrom ip)

theorem select_guarded (stored : List String) (ip : IpAddr) :
    select "example.com" (guardedRoutes stored) (requestFrom ip).host =
      some ("app.example.com", .fromResource homeEnv (guarded stored)) := by
  have h : (requestFrom ip).host = "app.example.com" :=
    show (requestFor "app.example.com").host = _ by decide
  rw [h, select, if_neg (by decide), guardedRoutes, Function.update_self, Option.map_some]

theorem accepted_home : Accepted homeEnv ["203.0.113.9"] ["203.0.113.9/32"] :=
  @Accepted.created homeEnv _
    { subdomain := "app", target := "http://127.0.0.1:8080", allowedClientCidrs := ["203.0.113.9"] }
    { guarded ["203.0.113.9/32"] with id := "" } rfl rfl

theorem accepted_mapped : Accepted homeEnv ["::ffff:203.0.113.9"] ["::ffff:203.0.113.9/128"] :=
  @Accepted.created homeEnv _
    { subdomain := "app", target := "http://127.0.0.1:8080",
      allowedClientCidrs := ["::ffff:203.0.113.9"] }
    { guarded ["::ffff:203.0.113.9/128"] with id := "" } rfl rfl

/-- Listed in its IPv4 form, the host may come by either stack. -/
theorem allowlist_exact_home :
    visit ["203.0.113.9/32"] (.v6 home.toIpv6Mapped) ≠ .error .forbidden ↔
      Listed homeEnv ["203.0.113.9"] (.v6 home.toIpv6Mapped) := by
  refine (allowlist_exact homeEnv addrTexts_home netTexts_home accepted_home
    (show (guarded ["203.0.113.9/32"]).allowedClientCidrs = _ from rfl)
    (show (requestFrom (.v6 home.toIpv6Mapped)).client = some ⟨.v6 home.toIpv6Mapped, 50000⟩ from rfl)
    (select_guarded _ _) ?_).mpr ?_
  · rw [requestFilter, select_guarded]
    nofun
  · rintro ⟨addr, haddr, -, h⟩
    obtain rfl := IpAddr.v4.inj (haddr.symm.trans (toCanonical_toIpv6Mapped home))
    have hnets : nets homeEnv ["203.0.113.9"] = [⟨.v4 home, 32⟩] := by rfl
    cases h ⟨.v4 home, 32⟩ (hnets ▸ List.mem_singleton_self _)

/-- The host's own address is listed, in the form that it comes with, and it may not pass. -/
theorem mapped_entry_refused :
    Accepted homeEnv ["::ffff:203.0.113.9"] ["::ffff:203.0.113.9/128"] ∧
      Listed homeEnv ["::ffff:203.0.113.9"] (.v6 home.toIpv6Mapped) ∧
      visit ["::ffff:203.0.113.9/128"] (.v6 home.toIpv6Mapped) = .error .forbidden ∧
      visit ["::ffff:203.0.113.9/128"] (.v4 home) = .error .forbidden := by
  refine ⟨accepted_mapped, ?_, ?_, ?_⟩
  · have htrim : trim "::ffff:203.0.113.9" = "::ffff:203.0.113.9" := by decide
    refine .inr ⟨_, List.mem_singleton_self _, by rw [htrim]; decide, ⟨.v6 home.toIpv6Mapped, 128⟩, ?_,
      .v6 home.toIpv6Mapped, rfl, by decide⟩
    rw [htrim]
    rfl
  · rfl
  · rfl

end Allowlist

end X2rp.Proxy
