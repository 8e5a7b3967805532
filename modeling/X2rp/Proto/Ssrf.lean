import Mathlib.Data.BitVec
import Mathlib.Tactic.NormNum

/-! IP addresses and the guards that say which of them may be dialled. -/
namespace X2rp.Proto

abbrev Ipv4Addr := BitVec 32

abbrev Ipv6Addr := BitVec 128

inductive IpAddr
  | v4 (addr : Ipv4Addr)
  | v6 (addr : Ipv6Addr)
deriving DecidableEq, Repr

structure SocketAddr where
  ip : IpAddr
  port : UInt16
deriving DecidableEq

namespace Ipv4Addr

def new (a b c d : BitVec 8) : Ipv4Addr :=
  .ofNat 32 (a.toNat * 2 ^ 24 + b.toNat * 2 ^ 16 + c.toNat * 2 ^ 8 + d.toNat)

/-- Octet `i`, from the left. -/
def octet (addr : Ipv4Addr) (i : Nat) : BitVec 8 := addr.extractLsb' (24 - 8 * i) 8

def broadcast : Ipv4Addr := new 255 255 255 255

def isUnspecified (addr : Ipv4Addr) : Bool := addr == 0

def isLoopback (addr : Ipv4Addr) : Bool := addr.octet 0 == 127

def isLinkLocal (addr : Ipv4Addr) : Bool := addr.octet 0 == 169 && addr.octet 1 == 254

def isMulticast (addr : Ipv4Addr) : Bool :=
  decide (224 ≤ (addr.octet 0).toNat ∧ (addr.octet 0).toNat ≤ 239)

end Ipv4Addr

namespace Ipv6Addr

def new (a b c d e f g h : BitVec 16) : Ipv6Addr :=
  .ofNat 128 (a.toNat * 2 ^ 112 + b.toNat * 2 ^ 96 + c.toNat * 2 ^ 80 + d.toNat * 2 ^ 64 +
    e.toNat * 2 ^ 48 + f.toNat * 2 ^ 32 + g.toNat * 2 ^ 16 + h.toNat)

/-- Segment `i`, from the left. -/
def segment (addr : Ipv6Addr) (i : Nat) : BitVec 16 := addr.extractLsb' (112 - 16 * i) 16

def isUnspecified (addr : Ipv6Addr) : Bool := addr == 0

def isLoopback (addr : Ipv6Addr) : Bool := addr == 1

def isMulticast (addr : Ipv6Addr) : Bool := addr.segment 0 &&& 0xff00 == 0xff00

def isUnicastLinkLocal (addr : Ipv6Addr) : Bool := addr.segment 0 &&& 0xffc0 == 0xfe80

/-- The four octets of the last two segments. -/
def lastOctets (addr : Ipv6Addr) : Ipv4Addr :=
  .new ((addr.segment 6 >>> 8).setWidth 8) ((addr.segment 6).setWidth 8)
    ((addr.segment 7 >>> 8).setWidth 8) ((addr.segment 7).setWidth 8)

def toIpv4Mapped (addr : Ipv6Addr) : Option Ipv4Addr :=
  if addr.segment 0 = 0 ∧ addr.segment 1 = 0 ∧ addr.segment 2 = 0 ∧ addr.segment 3 = 0 ∧
      addr.segment 4 = 0 ∧ addr.segment 5 = 0xffff then some addr.lastOctets
  else none

end Ipv6Addr

namespace IpAddr

def isLoopback : IpAddr → Bool
  | v4 addr => addr.isLoopback
  | v6 addr => addr.isLoopback

/-- An IPv4-mapped address in its IPv4 form. -/
def toCanonical : IpAddr → IpAddr
  | v4 addr => v4 addr
  | v6 addr =>
    match addr.toIpv4Mapped with
    | some addr => v4 addr
    | none => v6 addr

end IpAddr

/-- The IPv4 address in an IPv4-mapped or a NAT64-synthesized one. -/
def toIpv4Synthesized (addr : Ipv6Addr) : Option Ipv4Addr :=
  match addr.toIpv4Mapped with
  | some addr => some addr
  | none =>
    if addr.segment 0 = 0x0064 ∧ addr.segment 1 = 0xff9b ∧ addr.segment 2 = 0 ∧
        addr.segment 3 = 0 ∧ addr.segment 4 = 0 ∧ addr.segment 5 = 0 then some addr.lastOctets
    else none

def isMetadataIp : IpAddr → Bool
  | .v4 addr =>
    addr == .new 169 254 169 254 || addr == .new 100 100 100 200 || addr == .new 168 63 129 16
  | .v6 addr => addr.segment 0 == 0xfd00 && addr.segment 1 == 0x0ec2

/-- `is_strictly_dangerous_ip` on IPv4. -/
def isStrictlyDangerousIpv4 (addr : Ipv4Addr) : Bool :=
  addr.isLinkLocal || addr.isUnspecified || addr.isMulticast || addr == .broadcast ||
    isMetadataIp (.v4 addr)

/-- Metadata, link-local, multicast or unspecified: never a target, not even of a connector. -/
def isStrictlyDangerousIp : IpAddr → Bool
  | .v4 addr => isStrictlyDangerousIpv4 addr
  | .v6 addr =>
    addr.isUnspecified || addr.isMulticast || addr.isUnicastLinkLocal ||
      isMetadataIp (.v6 addr) || (toIpv4Synthesized addr).any isStrictlyDangerousIpv4

/-- Loopback, also in its IPv4-mapped form: valid as a direct upstream on this host. -/
def isLocalDirectTargetIp (ip : IpAddr) : Bool := ip.toCanonical.isLoopback

/-- The block `net/len`: the leading `len` bits are those of `net`. -/
def InBlock {w : Nat} (addr net : BitVec w) (len : Nat) : Prop :=
  addr.toNat / 2 ^ (w - len) = net.toNat / 2 ^ (w - len)

instance {w : Nat} (addr net : BitVec w) (len : Nat) : Decidable (InBlock addr net len) :=
  inferInstanceAs (Decidable (_ = _))

theorem inBlock_iff {w len k q : Nat} {addr net : BitVec w} (hk : w - len = k)
    (hq : net.toNat / 2 ^ k = q) : InBlock addr net len ↔ addr.toNat / 2 ^ k = q := by
  rw [InBlock, hk, hq]

/-- Two addresses agree under a netmask exactly if their leading bits do. -/
theorem and_prefix_eq_iff {w : Nat} (k : Nat) {x y : BitVec w} :
    x &&& BitVec.allOnes w <<< k = y &&& BitVec.allOnes w <<< k ↔
      x.toNat / 2 ^ k = y.toNat / 2 ^ k := by
  have toNat_top : ∀ z : BitVec w, (z >>> k <<< k).toNat = z.toNat / 2 ^ k * 2 ^ k := by
    intro z
    rw [BitVec.toNat_shiftLeft, BitVec.toNat_ushiftRight, Nat.shiftLeft_eq,
      Nat.shiftRight_eq_div_pow]
    exact Nat.mod_eq_of_lt (Nat.lt_of_le_of_lt (Nat.div_mul_le_self _ _) z.isLt)
  rw [← BitVec.shiftLeft_ushiftRight, ← BitVec.shiftLeft_ushiftRight, ← BitVec.toNat_inj, toNat_top,
    toNat_top, Nat.mul_left_inj (Nat.two_pow_pos k).ne']

/-- The IPv4 address `addr` under a 96-bit head. -/
def Ipv4Addr.under (head : Nat) (addr : Ipv4Addr) : Ipv6Addr := .ofNat 128 (head * 2 ^ 32 + addr.toNat)

/-- `::ffff:addr`. -/
def Ipv4Addr.toIpv6Mapped (addr : Ipv4Addr) : Ipv6Addr := addr.under 0xffff

/-- `64:ff9b::addr`. -/
def Ipv4Addr.toNat64 (addr : Ipv4Addr) : Ipv6Addr := addr.under 0x64ff9b0000000000000000

namespace Ipv4Addr

variable {addr : Ipv4Addr}

theorem toNat_octet (i : Nat) : (addr.octet i).toNat = addr.toNat / 2 ^ (24 - 8 * i) % 2 ^ 8 := by
  simp [octet, Nat.shiftRight_eq_div_pow]

theorem octet_eq_iff {i n : Nat} (hn : n < 2 ^ 8) :
    addr.octet i = BitVec.ofNat 8 n ↔ addr.toNat / 2 ^ (24 - 8 * i) % 2 ^ 8 = n := by
  rw [← BitVec.toNat_inj, toNat_octet, BitVec.toNat_ofNat, Nat.mod_eq_of_lt hn]

theorem isLinkLocal_iff : addr.isLinkLocal = true ↔ InBlock addr (new 169 254 0 0) 16 := by
  have := addr.isLt
  rw [inBlock_iff (k := 16) (q := 43518) rfl (by decide), isLinkLocal, Bool.and_eq_true,
    beq_iff_eq, beq_iff_eq]
  refine (and_congr (octet_eq_iff (n := 169) (by decide))
    (octet_eq_iff (n := 254) (by decide))).trans ?_
  norm_num
  omega

theorem isMulticast_iff : addr.isMulticast = true ↔ InBlock addr (new 224 0 0 0) 4 := by
  have := addr.isLt
  rw [inBlock_iff (k := 28) (q := 14) rfl (by decide), isMulticast, decide_eq_true_eq, toNat_octet]
  norm_num
  omega

end Ipv4Addr

namespace Ipv6Addr

variable {addr : Ipv6Addr}

theorem toNat_segment (i : Nat) :
    (addr.segment i).toNat = addr.toNat / 2 ^ (112 - 16 * i) % 2 ^ 16 := by
  simp [segment, Nat.shiftRight_eq_div_pow]

theorem segment_eq_iff {i n : Nat} (hn : n < 2 ^ 16) :
    addr.segment i = BitVec.ofNat 16 n ↔ addr.toNat / 2 ^ (112 - 16 * i) % 2 ^ 16 = n := by
  rw [← BitVec.toNat_inj, toNat_segment, BitVec.toNat_ofNat, Nat.mod_eq_of_lt hn]

theorem toNat_lastOctets : addr.lastOctets.toNat = addr.toNat % 2 ^ 32 := by
  simp only [lastOctets, Ipv4Addr.new, BitVec.toNat_ofNat, BitVec.toNat_setWidth,
    BitVec.toNat_ushiftRight, toNat_segment, Nat.shiftRight_eq_div_pow]
  norm_num
  omega

/-- A segment under a mask is its leading bits. -/
theorem and_mask_eq_iff {x m n : BitVec 16} (k : Nat) (hm : BitVec.allOnes 16 <<< k = m)
    (hn : n >>> k <<< k = n) : x &&& m = n ↔ x.toNat / 2 ^ k = n.toNat / 2 ^ k := by
  rw [BitVec.shiftLeft_ushiftRight] at hn
  rw [← and_prefix_eq_iff k, hn, hm]

theorem isMulticast_iff : addr.isMulticast = true ↔ InBlock addr (new 0xff00 0 0 0 0 0 0 0) 8 := by
  have := addr.isLt
  rw [inBlock_iff (k := 120) (q := 0xff) rfl (by decide), isMulticast, beq_iff_eq,
    and_mask_eq_iff 8 (by decide) (by decide), toNat_segment,
    show (0xff00 : BitVec 16).toNat / 2 ^ 8 = 0xff by decide]
  norm_num
  omega

theorem isUnicastLinkLocal_iff :
    addr.isUnicastLinkLocal = true ↔ InBlock addr (new 0xfe80 0 0 0 0 0 0 0) 10 := by
  have := addr.isLt
  rw [inBlock_iff (k := 118) (q := 0x3fa) rfl (by decide), isUnicastLinkLocal, beq_iff_eq,
    and_mask_eq_iff 6 (by decide) (by decide), toNat_segment,
    show (0xfe80 : BitVec 16).toNat / 2 ^ 6 = 0x3fa by decide]
  norm_num
  omega

/-- A number with one more base-`2 ^ 16` digit at its end. -/
theorem div_eq_append_iff {x k head digit : Nat} (hd : digit < 2 ^ 16) :
    x / 2 ^ k = head * 2 ^ 16 + digit ↔ x / 2 ^ (k + 16) = head ∧ x / 2 ^ k % 2 ^ 16 = digit := by
  rw [Nat.pow_add, ← Nat.div_div_eq_div_mul]
  omega

/-- The leading six segments, read as one number. -/
theorem head_eq_iff (addr : Ipv6Addr) {a b c d e f : Nat} (ha : a < 2 ^ 16)
    (hb : b < 2 ^ 16) (hc : c < 2 ^ 16) (hd : d < 2 ^ 16) (he : e < 2 ^ 16) (hf : f < 2 ^ 16) :
    (addr.segment 0 = BitVec.ofNat 16 a ∧ addr.segment 1 = BitVec.ofNat 16 b ∧
      addr.segment 2 = BitVec.ofNat 16 c ∧ addr.segment 3 = BitVec.ofNat 16 d ∧
      addr.segment 4 = BitVec.ofNat 16 e ∧ addr.segment 5 = BitVec.ofNat 16 f) ↔
    addr.toNat / 2 ^ 32 =
      a * 2 ^ 80 + b * 2 ^ 64 + c * 2 ^ 48 + d * 2 ^ 32 + e * 2 ^ 16 + f := by
  have hdigits : a * 2 ^ 80 + b * 2 ^ 64 + c * 2 ^ 48 + d * 2 ^ 32 + e * 2 ^ 16 + f =
      ((((a * 2 ^ 16 + b) * 2 ^ 16 + c) * 2 ^ 16 + d) * 2 ^ 16 + e) * 2 ^ 16 + f := by
    omega
  have htop : addr.toNat / 2 ^ 112 % 2 ^ 16 = addr.toNat / 2 ^ 112 :=
    Nat.mod_eq_of_lt (Nat.div_lt_of_lt_mul addr.isLt)
  rw [hdigits, div_eq_append_iff hf, div_eq_append_iff he, div_eq_append_iff hd,
    div_eq_append_iff hc, div_eq_append_iff hb, segment_eq_iff ha, segment_eq_iff hb,
    segment_eq_iff hc, segment_eq_iff hd, segment_eq_iff he, segment_eq_iff hf]
  simp only [and_assoc, Nat.reduceAdd, Nat.reduceSub, Nat.reduceMul, htop]

theorem isMetadataIp_iff :
    isMetadataIp (.v6 addr) = true ↔ InBlock addr (new 0xfd00 0x0ec2 0 0 0 0 0 0) 32 := by
  have := addr.isLt
  rw [inBlock_iff (k := 96) (q := 0xfd000ec2) rfl (by decide), isMetadataIp, Bool.and_eq_true,
    beq_iff_eq, beq_iff_eq]
  refine (and_congr (segment_eq_iff (n := 0xfd00) (by decide))
    (segment_eq_iff (n := 0x0ec2) (by decide))).trans ?_
  norm_num at *
  omega

/-- An address is some IPv4 address under its own head. -/
theorem eq_under_iff {head : Nat} (hh : head < 2 ^ 96) {a : Ipv4Addr} :
    addr = a.under head ↔ addr.toNat / 2 ^ 32 = head ∧ addr.lastOctets = a := by
  have := addr.isLt
  have := a.isLt
  rw [← BitVec.toNat_inj, ← BitVec.toNat_inj, toNat_lastOctets, Ipv4Addr.under,
    BitVec.toNat_ofNat]
  norm_num at *
  omega

theorem toIpv4Mapped_eq_some_iff {a : Ipv4Addr} :
    addr.toIpv4Mapped = some a ↔ addr = a.toIpv6Mapped := by
  have hhead := head_eq_iff addr (a := 0) (b := 0) (c := 0) (d := 0) (e := 0)
    (f := 0xffff) (by decide) (by decide) (by decide) (by decide) (by decide) (by decide)
  rw [toIpv4Mapped, Option.ite_none_right_eq_some, Option.some_inj, Ipv4Addr.toIpv6Mapped,
    eq_under_iff (by decide)]
  exact and_congr_left fun _ => hhead

theorem toIpv6Mapped_ne_toNat64 {a b : Ipv4Addr} : a.toIpv6Mapped ≠ b.toNat64 := by
  intro h
  have hm := (eq_under_iff (by decide)).mp (rfl : a.toIpv6Mapped = a.under 0xffff)
  have hn := (eq_under_iff (by decide)).mp (h : a.toIpv6Mapped = b.under 0x64ff9b0000000000000000)
  omega

theorem toIpv4Synthesized_eq_some_iff {a : Ipv4Addr} :
    toIpv4Synthesized addr = some a ↔ addr = a.toIpv6Mapped ∨ addr = a.toNat64 := by
  have hmapped : addr.toIpv4Mapped = some a ↔ _ := toIpv4Mapped_eq_some_iff
  have hhead := head_eq_iff addr (a := 0x64) (b := 0xff9b) (c := 0) (d := 0) (e := 0)
    (f := 0) (by decide) (by decide) (by decide) (by decide) (by decide) (by decide)
  unfold toIpv4Synthesized
  cases h : addr.toIpv4Mapped with
  | some b =>
    rw [h] at hmapped
    have hb := toIpv4Mapped_eq_some_iff.mp h
    refine hmapped.trans (or_iff_left fun hn => ?_).symm
    exact toIpv6Mapped_ne_toNat64 (hb.symm.trans hn)
  | none =>
    rw [h] at hmapped
    have hne : addr ≠ a.toIpv6Mapped := fun he => nomatch hmapped.mpr he
    rw [Option.ite_none_right_eq_some, Option.some_inj, or_iff_right hne, Ipv4Addr.toNat64,
      eq_under_iff (by decide)]
    exact and_congr_left fun _ => hhead

end Ipv6Addr

/-- The IPv4 addresses that no connector dials. -/
def ForbiddenIpv4 (addr : Ipv4Addr) : Prop :=
  InBlock addr (Ipv4Addr.new 169 254 0 0) 16 ∨ InBlock addr (Ipv4Addr.new 224 0 0 0) 4 ∨
    addr = .new 0 0 0 0 ∨ addr = .new 255 255 255 255 ∨ addr = .new 100 100 100 200 ∨
    addr = .new 168 63 129 16

/-- The IPv6 addresses that no connector dials, but for the IPv4 ones in disguise. -/
def ForbiddenIpv6 (addr : Ipv6Addr) : Prop :=
  addr = 0 ∨ InBlock addr (Ipv6Addr.new 0xff00 0 0 0 0 0 0 0) 8 ∨
    InBlock addr (Ipv6Addr.new 0xfe80 0 0 0 0 0 0 0) 10 ∨
    InBlock addr (Ipv6Addr.new 0xfd00 0x0ec2 0 0 0 0 0 0) 32

theorem isStrictlyDangerousIpv4_iff {addr : Ipv4Addr} :
    isStrictlyDangerousIpv4 addr = true ↔ ForbiddenIpv4 addr := by
  have himds : addr = .new 169 254 169 254 → InBlock addr (Ipv4Addr.new 169 254 0 0) 16 := by
    rintro rfl
    decide
  simp only [isStrictlyDangerousIpv4, isMetadataIp, Bool.or_eq_true, Ipv4Addr.isLinkLocal_iff,
    Ipv4Addr.isMulticast_iff, Ipv4Addr.isUnspecified, beq_iff_eq, ForbiddenIpv4]
  rw [show Ipv4Addr.broadcast = .new 255 255 255 255 from rfl,
    show (0 : Ipv4Addr) = .new 0 0 0 0 by decide]
  constructor
  · rintro ((((h | h) | h) | h) | (h | h) | h)
    exacts [.inl h, .inr (.inr (.inl h)), .inr (.inl h), .inr (.inr (.inr (.inl h))),
      .inl (himds h), .inr (.inr (.inr (.inr (.inl h)))), .inr (.inr (.inr (.inr (.inr h))))]
  · rintro (h | h | h | h | h | h)
    exacts [.inl (.inl (.inl (.inl h))), .inl (.inl (.inr h)), .inl (.inl (.inl (.inr h))),
      .inl (.inr h), .inr (.inl (.inr h)), .inr (.inr h)]

theorem isStrictlyDangerousIp_v6_iff {addr : Ipv6Addr} :
    isStrictlyDangerousIp (.v6 addr) = true ↔ ForbiddenIpv6 addr ∨
      ∃ a, (addr = a.toIpv6Mapped ∨ addr = a.toNat64) ∧ ForbiddenIpv4 a := by
  simp only [isStrictlyDangerousIp, Bool.or_eq_true, Ipv6Addr.isMulticast_iff,
    Ipv6Addr.isUnicastLinkLocal_iff, Ipv6Addr.isMetadataIp_iff, Ipv6Addr.isUnspecified, beq_iff_eq,
    ForbiddenIpv6, Option.any_eq_true, Ipv6Addr.toIpv4Synthesized_eq_some_iff,
    isStrictlyDangerousIpv4_iff, or_assoc]

/-- No disguise of an IPv4 address is forbidden on its own account. -/
theorem not_forbiddenIpv6_under {head : Nat} {a : Ipv4Addr} (h0 : 0 < head)
    (hh : head < 2 ^ 87) : ¬ForbiddenIpv6 (a.under head) := by
  have ha := a.isLt
  have hn : (a.under head).toNat = head * 2 ^ 32 + a.toNat := by
    rw [Ipv4Addr.under, BitVec.toNat_ofNat]
    norm_num at *
    omega
  rw [ForbiddenIpv6, inBlock_iff (k := 120) (q := 0xff) rfl (by decide),
    inBlock_iff (k := 118) (q := 0x3fa) rfl (by decide),
    inBlock_iff (k := 96) (q := 0xfd000ec2) rfl (by decide), ← BitVec.toNat_inj, hn,
    show BitVec.toNat (0 : Ipv6Addr) = 0 from rfl]
  norm_num at *
  omega

/-- Disguised or not, an IPv4 address gets the same verdict. -/
theorem isStrictlyDangerousIp_under {a : Ipv4Addr} {head : Nat}
    (hh : head = 0xffff ∨ head = 0x64ff9b0000000000000000) :
    isStrictlyDangerousIp (.v6 (a.under head)) = isStrictlyDangerousIp (.v4 a) := by
  have hnot : ¬ForbiddenIpv6 (a.under head) := by
    rcases hh with rfl | rfl <;> exact not_forbiddenIpv6_under (by decide) (by decide)
  have hlast : ∀ b head', head' = 0xffff ∨ head' = 0x64ff9b0000000000000000 →
      a.under head = b.under head' → a = b := by
    intro b head' hh' h
    have hlt : head < 2 ^ 96 := by rcases hh with rfl | rfl <;> decide
    have hlt' : head' < 2 ^ 96 := by rcases hh' with rfl | rfl <;> decide
    exact ((Ipv6Addr.eq_under_iff hlt).mp rfl).2.symm.trans ((Ipv6Addr.eq_under_iff hlt').mp h).2
  rw [Bool.eq_iff_iff, isStrictlyDangerousIp_v6_iff, or_iff_right hnot]
  refine Iff.trans ⟨?_, fun h => ⟨a, ?_, h⟩⟩ isStrictlyDangerousIpv4_iff.symm
  · rintro ⟨b, hb | hb, h⟩
    · exact hlast b _ (.inl rfl) hb ▸ h
    · exact hlast b _ (.inr rfl) hb ▸ h
  · rcases hh with rfl | rfl
    · exact .inl rfl
    · exact .inr rfl

end X2rp.Proto
