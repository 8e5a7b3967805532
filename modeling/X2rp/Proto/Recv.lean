import X2rp.Proto.Decrypt

/-! `poll_recv` on a batch of datagrams: those that decrypt move to the front. -/
namespace X2rp.Proto.Obfs

open Chunks

/-- A view of memory: `region` says of which, `bytes` is what is there. -/
structure IoSlice (ι : Type) where
  region : ι
  bytes : Bytes
deriving DecidableEq

/-- A `RecvMeta` with the fields that are passed on: the addresses and the ECN mark. -/
structure PacketMeta (ρ : Type) where
  recv : RecvMeta
  route : ρ
deriving DecidableEq

variable {α ι ρ : Type}

/-- `slice::swap`. -/
def swap (l : List α) (i j : Nat) : Except Panic (List α) :=
  match l[i]?, l[j]? with
  | some a, some b => .ok ((l.set i b).set j a)
  | _, _ => .error .outOfBounds

/-- `l[i] = a`. -/
def assign (l : List α) (i : Nat) (a : α) : Except Panic (List α) :=
  if i < l.length then .ok (l.set i a) else .error .outOfBounds

/-- `l[i]`. -/
def index (l : List α) (i : Nat) : Except Panic α :=
  match l[i]? with
  | some a => .ok a
  | none => .error .outOfBounds

/-- The variables of the loop in `poll_recv`; `out` is its argument `meta`. -/
structure Batch (ι ρ : Type) where
  bufs : List (IoSlice ι)
  udpMeta : List (PacketMeta ρ)
  out : List (PacketMeta ρ)
  validCount : Nat := 0

/-- One round of the loop. -/
def recvRound (C : Cipher) (secret : Secret) (b : Batch ι ρ) (i : Nat) :
    Except Panic (Batch ι ρ) := do
  let buf ← index b.bufs i
  let info ← index b.udpMeta i
  let (bytes, recv, result) ← decryptMetaPayloadMut C secret buf.bytes info.recv
  let bufs := b.bufs.set i { buf with bytes }
  let udpMeta := b.udpMeta.set i { info with recv }
  match result with
  | .error _ => return { b with bufs, udpMeta }
  | .ok () =>
    let bufs ← swap bufs b.validCount i
    let udpMeta ← swap udpMeta b.validCount i
    let out ← assign b.out b.validCount (← index udpMeta b.validCount)
    return { bufs, udpMeta, out, validCount := b.validCount + 1 }

inductive Poll
  | ready (count : Nat)
  | pending
deriving DecidableEq

def recvLoop (C : Cipher) (secret : Secret) (packetCount : Nat) (b : Batch ι ρ) :
    Except Panic (Batch ι ρ) :=
  (List.range packetCount).foldlM (recvRound C secret) b

/-- `poll_recv` from the moment that it has received `packetCount` datagrams. -/
def pollRecv (C : Cipher) (secret : Secret) (packetCount : Nat) (bufs : List (IoSlice ι))
    (udpMeta out : List (PacketMeta ρ)) : Except Panic (Poll × Batch ι ρ) := do
  let b ← recvLoop C secret packetCount { bufs, udpMeta, out }
  return (if 0 < b.validCount then .ready b.validCount else .pending, b)

/-- How many datagrams it asks for at most. -/
def maxPackets (batchSize : Nat) (bufs : List (IoSlice ι)) (out : List (PacketMeta ρ)) : Nat :=
  min (min bufs.length out.length) batchSize

/-- A packet that is accepted, as it is handed on. -/
def accepted? (C : Cipher) (secret : Secret) (packet : IoSlice ι × PacketMeta ρ) :
    Option (IoSlice ι × PacketMeta ρ) :=
  match decryptMetaPayload C secret packet.1.bytes packet.2.recv with
  | .ok (bytes, recv) => some ({ packet.1 with bytes }, { packet.2 with recv })
  | .error _ => none

/-- The buffer of a packet after the attempt to decrypt it in place. -/
def attempted (C : Cipher) (secret : Secret) (packet : IoSlice ι × PacketMeta ρ) : IoSlice ι :=
  match decryptMetaPayloadMut C secret packet.1.bytes packet.2.recv with
  | .ok (bytes, _) => { packet.1 with bytes }
  | .error _ => packet.1

variable {C : Cipher} {secret : Secret} {b : Batch ι ρ} {bufs : List (IoSlice ι)}
  {udpMeta out : List (PacketMeta ρ)} {packet packet' : IoSlice ι × PacketMeta ρ} {i k : Nat}

/-- What the socket says of a packet fits the buffer that the packet is in. -/
def Fits (packet : IoSlice ι × PacketMeta ρ) : Prop :=
  packet.2.recv.len ≤ packet.1.bytes.length ∧
    packet.2.recv.len + packet.2.recv.stride < usizeSize

theorem decrypt_accepted (hf : Fits packet) (h : accepted? C secret packet = some packet') :
    decryptMetaPayloadMut C secret packet.1.bytes packet.2.recv =
      .ok (packet'.1.bytes, packet'.2.recv, .ok ()) ∧
    packet' = ({ packet.1 with bytes := packet'.1.bytes }, { packet.2 with recv := packet'.2.recv }) ∧
    attempted C secret packet = packet'.1 := by
  obtain ⟨buf', -, ⟨info', hpure, hmut⟩ | ⟨e, hpure, -⟩⟩ :=
    decryptMetaPayloadMut_eq C secret hf.1 hf.2
  · simp only [accepted?, hpure, Option.some_inj] at h
    subst h
    exact ⟨hmut, rfl, by simp only [attempted, hmut]⟩
  · simp [accepted?, hpure] at h

theorem decrypt_rejected (hf : Fits packet) (h : accepted? C secret packet = none) :
    ∃ e, decryptMetaPayloadMut C secret packet.1.bytes packet.2.recv =
      .ok ((attempted C secret packet).bytes, packet.2.recv, .error e) ∧
    attempted C secret packet = { packet.1 with bytes := (attempted C secret packet).bytes } := by
  obtain ⟨buf', -, ⟨info', hpure, -⟩ | ⟨e, -, hmut⟩⟩ :=
    decryptMetaPayloadMut_eq C secret hf.1 hf.2
  · simp [accepted?, hpure] at h
  · have he : attempted C secret packet = { packet.1 with bytes := buf' } := by
      simp only [attempted, hmut]
    exact ⟨e, by rw [he, hmut], by rw [he]⟩

/-- The element behind `skipped` changes places with the first one of it. -/
theorem swap_front (front skipped rest : List α) (a : α) :
    ∃ skipped' : List α, skipped'.Perm skipped ∧
      swap (front ++ skipped ++ a :: rest) front.length (front.length + skipped.length) =
        .ok (front ++ [a] ++ skipped' ++ rest) := by
  cases skipped with
  | nil => exact ⟨[], .refl _, by simp [swap]⟩
  | cons first others =>
    refine ⟨others ++ [first], List.perm_append_singleton first others, ?_⟩
    have hi : (front ++ first :: others ++ a :: rest)[front.length]? = some first := by simp
    have hj : (front ++ first :: others ++ a :: rest)[front.length + (first :: others).length]? =
        some a := by
      rw [← List.length_append, List.getElem?_append_right le_rfl]
      simp
    have hset : (front ++ first :: others ++ a :: rest).set front.length a =
        front ++ a :: others ++ a :: rest := by simp
    simp only [swap, hi, hj, hset]
    rw [show front.length + (first :: others).length = (front ++ a :: others).length by simp,
      List.set_append_right _ _ le_rfl]
    simp

theorem recvRound_rejected (hb : index b.bufs i = .ok packet.1)
    (hm : index b.udpMeta i = .ok packet.2) (hf : Fits packet)
    (h : accepted? C secret packet = none) :
    recvRound C secret b i = .ok { b with
      bufs := b.bufs.set i (attempted C secret packet), udpMeta := b.udpMeta.set i packet.2 } := by
  obtain ⟨e, hmut, he⟩ := decrypt_rejected hf h
  unfold recvRound
  rw [hb, ok_bind, hm, ok_bind, hmut, ok_bind, he]
  rfl

theorem recvRound_accepted {info : PacketMeta ρ} (hb : index b.bufs i = .ok packet.1)
    (hm : index b.udpMeta i = .ok packet.2) (hf : Fits packet)
    (h : accepted? C secret packet = some packet')
    (hs : swap (b.bufs.set i packet'.1) b.validCount i = .ok bufs)
    (hs' : swap (b.udpMeta.set i packet'.2) b.validCount i = .ok udpMeta)
    (hi : index udpMeta b.validCount = .ok info) (ho : b.validCount < b.out.length) :
    recvRound C secret b i =
      .ok ⟨bufs, udpMeta, b.out.set b.validCount info, b.validCount + 1⟩ := by
  obtain ⟨hmut, he, -⟩ := decrypt_accepted hf h
  rw [he] at hs hs'
  unfold recvRound
  rw [hb, ok_bind, hm, ok_bind, hmut, ok_bind]
  dsimp only
  rw [hs, ok_bind, hs', ok_bind, hi, ok_bind, assign, if_pos ho]
  rfl

section Loop

variable {done rest : List (IoSlice ι × PacketMeta ρ)} {spare : List (IoSlice ι)}
  {spareMeta : List (PacketMeta ρ)}

/-- The packets that are handed on, in the order they came in. -/
def accepted (C : Cipher) (secret : Secret) (packets : List (IoSlice ι × PacketMeta ρ)) :
    List (IoSlice ι × PacketMeta ρ) :=
  packets.filterMap (accepted? C secret)

theorem length_accepted_le : (accepted C secret done).length ≤ done.length :=
  List.length_filterMap_le ..

/-- The loop with `done` behind it and `rest` to come. What has been accepted is in front, what has
been skipped is behind that in some order, and nothing else has moved. -/
structure Compacted (C : Cipher) (secret : Secret) (done rest : List (IoSlice ι × PacketMeta ρ))
    (spare : List (IoSlice ι)) (spareMeta out : List (PacketMeta ρ)) (b : Batch ι ρ) : Prop where
  bufs : ∃ skipped, ((accepted C secret done).map Prod.fst ++ skipped).Perm
      (done.map (attempted C secret)) ∧
    b.bufs = (accepted C secret done).map Prod.fst ++ skipped ++ (rest.map Prod.fst ++ spare)
  udpMeta : ∃ skipped : List (PacketMeta ρ),
    (accepted C secret done).length + skipped.length = done.length ∧
    b.udpMeta = (accepted C secret done).map Prod.snd ++ skipped ++ (rest.map Prod.snd ++ spareMeta)
  out : b.out = (accepted C secret done).map Prod.snd ++ out.drop (accepted C secret done).length
  validCount : b.validCount = (accepted C secret done).length

theorem index_append {l₁ l₂ : List α} {a : α} {n : Nat} (h : l₁.length = n) :
    index (l₁ ++ a :: l₂) n = .ok a := by
  subst h
  simp [index]

theorem set_append {l₁ l₂ : List α} {a a' : α} {n : Nat} (h : l₁.length = n) :
    (l₁ ++ a :: l₂).set n a' = l₁ ++ a' :: l₂ := by
  subst h
  simp

theorem recvRound_compacted (hf : Fits packet) (hout : done.length < out.length)
    (h : Compacted C secret done (packet :: rest) spare spareMeta out b) :
    ∃ b', recvRound C secret b done.length = .ok b' ∧
      Compacted C secret (done ++ [packet]) rest spare spareMeta out b' := by
  obtain ⟨⟨skipped, hperm, hbufs⟩, ⟨skippedMeta, hcount, hudp⟩, hout', hvalid⟩ := h
  have hlen : ((accepted C secret done).map Prod.fst ++ skipped).length = done.length := by
    simpa using hperm.length_eq
  have hlenMeta : ((accepted C secret done).map Prod.snd ++ skippedMeta).length = done.length := by
    simpa using hcount
  rw [List.map_cons, List.cons_append] at hbufs hudp
  have hb : index b.bufs done.length = .ok packet.1 := hbufs ▸ index_append hlen
  have hm : index b.udpMeta done.length = .ok packet.2 := hudp ▸ index_append hlenMeta
  cases hp : accepted? C secret packet with
  | none =>
    have hacc : accepted C secret (done ++ [packet]) = accepted C secret done := by
      simp [accepted, hp]
    refine ⟨_, recvRound_rejected hb hm hf hp, ?_, ?_, ?_, ?_⟩
    · refine ⟨skipped ++ [attempted C secret packet], ?_, ?_⟩
      · rw [hacc, ← List.append_assoc, List.map_append]
        exact hperm.append_right _
      · rw [hacc, hbufs, set_append hlen]
        simp
    · refine ⟨skippedMeta ++ [packet.2], by rw [hacc]; simp; omega, ?_⟩
      rw [hacc, hudp, set_append hlenMeta]
      simp
    · rw [hacc, hout']
    · rw [hacc, hvalid]
  | some packet' =>
    have hacc : accepted C secret (done ++ [packet]) = accepted C secret done ++ [packet'] := by
      simp [accepted, hp]
    have hle : (accepted C secret done).length ≤ done.length := length_accepted_le
    obtain ⟨skipped', hperm', hswap⟩ := swap_front ((accepted C secret done).map Prod.fst) skipped
      (rest.map Prod.fst ++ spare) packet'.1
    obtain ⟨skippedMeta', hpermMeta, hswapMeta⟩ := swap_front
      ((accepted C secret done).map Prod.snd) skippedMeta (rest.map Prod.snd ++ spareMeta) packet'.2
    rw [← List.length_append, hlen, List.length_map, ← hvalid] at hswap
    rw [← List.length_append, hlenMeta, List.length_map, ← hvalid] at hswapMeta
    have hi : index ((accepted C secret done).map Prod.snd ++ [packet'.2] ++ skippedMeta' ++
        (rest.map Prod.snd ++ spareMeta)) b.validCount = .ok packet'.2 := by
      rw [hvalid, List.append_assoc, List.append_assoc, List.singleton_append]
      exact index_append (List.length_map _)
    have ho : b.validCount < b.out.length := by
      rw [hvalid, hout']
      simp
      omega
    refine ⟨_, recvRound_accepted hb hm hf hp (by rw [hbufs, set_append hlen, hswap])
      (by rw [hudp, set_append hlenMeta, hswapMeta]) hi ho, ?_, ?_, ?_, ?_⟩
    · refine ⟨skipped', ?_, by simp [hacc]⟩
      rw [hacc, List.map_append, List.map_append, List.map_singleton, List.map_singleton,
        (decrypt_accepted hf hp).2.2]
      calc (accepted C secret done).map Prod.fst ++ [packet'.1] ++ skipped'
        _ = (accepted C secret done).map Prod.fst ++ ([packet'.1] ++ skipped') :=
          List.append_assoc ..
        List.Perm _ ((accepted C secret done).map Prod.fst ++ (skipped ++ [packet'.1])) :=
          .append_left _ (List.perm_append_comm.trans (hperm'.append_right _))
        _ = (accepted C secret done).map Prod.fst ++ skipped ++ [packet'.1] :=
          (List.append_assoc ..).symm
        List.Perm _ (done.map (attempted C secret) ++ [packet'.1]) := hperm.append_right _
    · refine ⟨skippedMeta', ?_, by simp [hacc]⟩
      rw [hacc]
      have := hpermMeta.length_eq
      simp
      omega
    · have hdrop := List.drop_eq_getElem_cons (show (accepted C secret done).length < out.length by
        omega)
      rw [hacc, hout', hvalid, hdrop, set_append (List.length_map _)]
      simp
    · rw [hacc, hvalid]
      simp

theorem recvLoop_compacted (hf : ∀ packet ∈ rest, Fits packet)
    (hout : done.length + rest.length ≤ out.length)
    (h : Compacted C secret done rest spare spareMeta out b) :
    ∃ b', (List.range' done.length rest.length).foldlM (recvRound C secret) b = .ok b' ∧
      Compacted C secret (done ++ rest) [] spare spareMeta out b' := by
  induction rest generalizing done b with
  | nil => exact ⟨b, rfl, by simpa using h⟩
  | cons packet rest ih =>
    rw [List.forall_mem_cons] at hf
    rw [List.length_cons] at hout
    obtain ⟨b₁, hround, h₁⟩ := recvRound_compacted hf.1 (by omega) h
    obtain ⟨b', hloop, h'⟩ := ih hf.2 (by simp; omega) h₁
    refine ⟨b', ?_, by simpa using h'⟩
    rw [List.length_cons, List.range'_succ, List.foldlM_cons, hround, ok_bind]
    simpa using hloop

end Loop

/-- The packets of a batch: each buffer with what the socket says of it. -/
def arrived (packetCount : Nat) (bufs : List (IoSlice ι)) (udpMeta : List (PacketMeta ρ)) :
    List (IoSlice ι × PacketMeta ρ) :=
  (bufs.zip udpMeta).take packetCount

theorem arrived_fst (hu : k ≤ udpMeta.length) :
    (arrived k bufs udpMeta).map Prod.fst = bufs.take k := by
  rw [arrived, List.zip, List.take_zipWith]
  exact List.map_fst_zip (by simp; omega)

theorem arrived_snd (hb : k ≤ bufs.length) :
    (arrived k bufs udpMeta).map Prod.snd = udpMeta.take k := by
  rw [arrived, List.zip, List.take_zipWith]
  exact List.map_snd_zip (by simp; omega)

theorem length_arrived (hb : k ≤ bufs.length) (hu : k ≤ udpMeta.length) :
    (arrived k bufs udpMeta).length = k := by
  rw [← List.length_map Prod.fst, arrived_fst hu]
  simpa using hb

theorem attempted_region (packet : IoSlice ι × PacketMeta ρ) :
    (attempted C secret packet).region = packet.1.region := by
  unfold attempted
  split <;> rfl

/-- Whatever is accepted and whatever is not, the loop ends without aborting and has filtered the
batch: in front are the accepted packets in the order of their arrival, each decrypted and with its
own metadata, and behind them all the other buffers. -/
theorem recv_filters (C : Cipher) (secret : Secret) (batchSize packetCount : Nat)
    (bufs : List (IoSlice ι)) (udpMeta out : List (PacketMeta ρ))
    (hudp : udpMeta.length = batchSize) (hcount : packetCount ≤ maxPackets batchSize bufs out)
    (hf : ∀ packet ∈ arrived packetCount bufs udpMeta, Fits packet) :
    ∃ b, pollRecv C secret packetCount bufs udpMeta out =
        .ok (if 0 < b.validCount then .ready b.validCount else .pending, b) ∧
      b.validCount = (accepted C secret (arrived packetCount bufs udpMeta)).length ∧
      (∀ i < b.validCount,
        ∃ packet, (accepted C secret (arrived packetCount bufs udpMeta))[i]? = some packet ∧
          b.bufs[i]? = some packet.1 ∧ b.out[i]? = some packet.2) ∧
      b.bufs.Perm ((arrived packetCount bufs udpMeta).map (attempted C secret) ++
        bufs.drop packetCount) ∧
      (b.bufs.map IoSlice.region).Perm (bufs.map IoSlice.region) ∧
      b.out.drop b.validCount = out.drop b.validCount := by
  have hb : packetCount ≤ bufs.length := by
    unfold maxPackets at hcount
    omega
  have hu : packetCount ≤ udpMeta.length := by
    unfold maxPackets at hcount
    omega
  have ho : packetCount ≤ out.length := by
    unfold maxPackets at hcount
    omega
  have hlen := length_arrived hb hu
  have hfst : (arrived packetCount bufs udpMeta).map Prod.fst = bufs.take packetCount :=
    arrived_fst hu
  have hstart : Compacted C secret [] (arrived packetCount bufs udpMeta) (bufs.drop packetCount)
      (udpMeta.drop packetCount) out { bufs, udpMeta, out } := by
    refine ⟨⟨[], by simp [accepted], ?_⟩, ⟨[], by simp [accepted], ?_⟩, by simp [accepted],
      by simp [accepted]⟩
    · simp [accepted, hfst]
    · simp [accepted, arrived_snd hb]
  obtain ⟨b, hloop, hend⟩ := recvLoop_compacted hf (by simpa [hlen] using ho) hstart
  rw [List.nil_append] at hend
  obtain ⟨⟨skipped, hperm, hbufs⟩, -, hout, hvalid⟩ := hend
  rw [List.length_nil, hlen, ← List.range_eq_range'] at hloop
  have hall : b.bufs.Perm ((arrived packetCount bufs udpMeta).map (attempted C secret) ++
      bufs.drop packetCount) := by
    rw [hbufs]
    simpa using hperm.append_right (bufs.drop packetCount)
  refine ⟨b, ?_, hvalid, fun i hi => ?_, hall, ?_, ?_⟩
  · unfold pollRecv recvLoop
    rw [hloop, ok_bind]
    rfl
  · rw [hvalid] at hi
    refine ⟨_, List.getElem?_eq_getElem hi, ?_, ?_⟩
    · rw [hbufs, List.append_assoc, List.getElem?_append_left (by simpa using hi)]
      simp [hi]
    · rw [hout, List.getElem?_append_left (by simpa using hi)]
      simp [hi]
  · -- To decrypt a buffer in place does not change which one it is.
    have hregion : ((arrived packetCount bufs udpMeta).map (attempted C secret)).map
        IoSlice.region = (bufs.take packetCount).map IoSlice.region := by
      rw [← hfst, List.map_map, List.map_map]
      exact List.map_congr_left fun packet _ => attempted_region packet
    have := hall.map IoSlice.region
    rwa [List.map_append, hregion, ← List.map_append, List.take_append_drop] at this
  · rw [hout, hvalid]
    exact List.drop_left' (List.length_map _)

/-- Garbage from one peer, a packet from another one, and a buffer that was not needed. -/
def mixedBufs : List (IoSlice Nat) :=
  [⟨0, [9, 9, 9, 9, 9]⟩, ⟨1, List.replicate 12 0 ++ [46, 40]⟩, ⟨2, []⟩]

def mixedMeta : List (PacketMeta String) :=
  ⟨⟨5, 5⟩, "198.51.100.1"⟩ :: ⟨⟨14, 14⟩, "203.0.113.9"⟩ :: List.replicate 30 ⟨⟨0, 0⟩, ""⟩

theorem accepted_mixed : ∃ rest, accepted sampleCipher sampleSecret (arrived 2 mixedBufs mixedMeta) =
    [(⟨1, [1, 2] ++ rest⟩, ⟨⟨2, 2⟩, "203.0.113.9"⟩)] := by
  obtain ⟨rest, hrest⟩ := decryptMetaPayload_sound sampleCipher sampleSecret
    (show (⟨14, 14⟩ : RecvMeta).len ≤ (List.replicate 12 0 ++ [46, 40] : Bytes).length by decide)
    (by unfold RecvMeta.Sound; decide)
  have hcut : chunks 14 (List.take 14 (List.replicate 12 0 ++ [46, 40]) : Bytes) =
      [List.replicate 12 0 ++ [46, 40]] :=
    chunks_of_length_le (by decide) (by decide)
  have hdec : decoded sampleCipher sampleSecret (List.replicate 12 0 ++ [46, 40]) ⟨14, 14⟩ =
      [1, 2] := by
    rw [decoded, hcut]
    decide
  rw [hdec] at hrest
  refine ⟨rest, ?_⟩
  have hgarbage : accepted? sampleCipher sampleSecret
      ((⟨0, [9, 9, 9, 9, 9]⟩, ⟨⟨5, 5⟩, "198.51.100.1"⟩) : IoSlice Nat × PacketMeta String) = none :=
    rfl
  have hgood : accepted? sampleCipher sampleSecret
      ((⟨1, List.replicate 12 0 ++ [46, 40]⟩, ⟨⟨14, 14⟩, "203.0.113.9"⟩) :
        IoSlice Nat × PacketMeta String) = some (⟨1, [1, 2] ++ rest⟩, ⟨⟨2, 2⟩, "203.0.113.9"⟩) := by
    simp only [accepted?, hrest]
    rfl
  change List.filterMap _ [_, _] = _
  rw [List.filterMap_cons_none hgarbage, List.filterMap_cons_some hgood]
  rfl

theorem recv_filters_mixed : ∃ b rest, pollRecv sampleCipher sampleSecret 2 mixedBufs mixedMeta
      (List.replicate 3 ⟨⟨0, 0⟩, ""⟩) = .ok (.ready 1, b) ∧
    b.bufs[0]? = some ⟨1, [1, 2] ++ rest⟩ ∧ b.out[0]? = some ⟨⟨2, 2⟩, "203.0.113.9"⟩ := by
  obtain ⟨rest, hacc⟩ := accepted_mixed
  obtain ⟨b, hpoll, hvalid, hfront, -⟩ := recv_filters sampleCipher sampleSecret 32 2 mixedBufs
    mixedMeta (List.replicate 3 ⟨⟨0, 0⟩, ""⟩) (by decide) (by decide) (by unfold Fits; decide)
  rw [hacc] at hvalid hfront
  obtain ⟨packet, hpacket, hbuf, hout⟩ := hfront 0 (by simp [hvalid])
  obtain rfl : _ = packet := Option.some_inj.mp hpacket
  exact ⟨b, rest, by simpa [hvalid] using hpoll, hbuf, hout⟩

end X2rp.Proto.Obfs
