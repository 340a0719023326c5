import Werrss.Machinery.Cidr
import Werrss.Domain.UrlPolicy

/-!
# Application/AssetArchiveService — where asset downloads may go

    URL ──validate──▸ request ──▸ literal address | resolver ──filter──▸ connection
     ▴                                                                       │
     ╰───────────────── redirect, validated again ◂──────────────────────────╯

A download is checked at three places: the URL before its request and before each redirect, and every
address a host name resolves to.  **What they let through is globally reachable, but for three forms
of IPv6 addresses that carry an IPv4 address the checks do not look for, and for local names spelled
with their final dot.**
-/

open Machinery

namespace Werrss

/-! ## Addresses -/

/-- `std::net::Ipv4Addr`. -/
abbrev Ipv4Addr := BitVec 32

/-- `std::net::Ipv6Addr`. -/
abbrev Ipv6Addr := BitVec 128

/-- `std::net::IpAddr`. -/
inductive IpAddr
  | v4 (address : Ipv4Addr)
  | v6 (address : Ipv6Addr)
deriving DecidableEq

namespace Ipv4Addr

/-- `octets()[i]`. -/
def octet (a : Ipv4Addr) (i : ℕ) : ℕ := a.toNat / 256 ^ (3 - i) % 256

/-- `Ipv4Addr::new`. -/
def new (a b c d : ℕ) : Ipv4Addr := BitVec.ofNat 32 (((a * 256 + b) * 256 + c) * 256 + d)

/-- `is_private`. -/
def isPrivate (a : Ipv4Addr) : Bool :=
  a.octet 0 == 10
    || (a.octet 0 == 172 && decide (16 ≤ a.octet 1) && decide (a.octet 1 ≤ 31))
    || (a.octet 0 == 192 && a.octet 1 == 168)

/-- `is_loopback`. -/
def isLoopback (a : Ipv4Addr) : Bool := a.octet 0 == 127

/-- `is_link_local`. -/
def isLinkLocal (a : Ipv4Addr) : Bool := a.octet 0 == 169 && a.octet 1 == 254

/-- `is_unspecified`. -/
def isUnspecified (a : Ipv4Addr) : Bool := a == 0

/-- `is_broadcast`. -/
def isBroadcast (a : Ipv4Addr) : Bool := a == new 255 255 255 255

/-- `is_multicast`. -/
def isMulticast (a : Ipv4Addr) : Bool := decide (224 ≤ a.octet 0) && decide (a.octet 0 ≤ 239)

/-- `ipv4_in_cidr`. -/
def inCidr (a network : Ipv4Addr) (bits : ℕ) : Bool :=
  let mask : Ipv4Addr := if bits = 0 then 0 else BitVec.allOnes 32 <<< (32 - bits)
  a &&& mask == network &&& mask

end Ipv4Addr

namespace Ipv6Addr

/-- `segments()[i]`. -/
def segment (a : Ipv6Addr) (i : ℕ) : BitVec 16 := BitVec.ofNat 16 (a.toNat / 65536 ^ (7 - i))

/-- `Ipv6Addr::new`, of the segments. -/
def new (segments : List ℕ) : Ipv6Addr :=
  BitVec.ofNat 128 (segments.foldl (fun n segment => n * 65536 + segment) 0)

/-- `is_loopback`. -/
def isLoopback (a : Ipv6Addr) : Bool := a == new [0, 0, 0, 0, 0, 0, 0, 1]

/-- `is_unspecified`. -/
def isUnspecified (a : Ipv6Addr) : Bool := a == new [0, 0, 0, 0, 0, 0, 0, 0]

/-- `is_multicast`. -/
def isMulticast (a : Ipv6Addr) : Bool := a.segment 0 &&& 0xff00 == 0xff00

/-- `ipv6_in_cidr`. -/
def inCidr (a network : Ipv6Addr) (bits : ℕ) : Bool :=
  let mask : Ipv6Addr := if bits = 0 then 0 else BitVec.allOnes 128 <<< (128 - bits)
  a &&& mask == network &&& mask

/-- `mapped_ipv4`. -/
def mappedIpv4 (a : Ipv6Addr) : Option Ipv4Addr :=
  if ((List.range 5).all fun i => a.segment i == 0) ∧ a.segment 5 = BitVec.allOnes 16 then
    some (Ipv4Addr.new ((a.segment 6 >>> 8).toNat % 256) ((a.segment 6).toNat % 256)
      ((a.segment 7 >>> 8).toNat % 256) ((a.segment 7).toNat % 256))
  else none

end Ipv6Addr

namespace IpAddr

/-- `is_private_ip`, of an IPv4 address. -/
def isPrivateV4 (a : Ipv4Addr) : Bool :=
  a.isPrivate
    || a.isLoopback
    || a.isLinkLocal
    || a.isUnspecified
    || a.isBroadcast
    || a.isMulticast
    || a.inCidr (Ipv4Addr.new 0 0 0 0) 8
    || a.inCidr (Ipv4Addr.new 100 64 0 0) 10
    || a.inCidr (Ipv4Addr.new 192 0 0 0) 24
    || a.inCidr (Ipv4Addr.new 192 0 2 0) 24
    || a.inCidr (Ipv4Addr.new 198 18 0 0) 15
    || a.inCidr (Ipv4Addr.new 198 51 100 0) 24
    || a.inCidr (Ipv4Addr.new 203 0 113 0) 24
    || a.inCidr (Ipv4Addr.new 240 0 0 0) 4

/-- `is_private_ip`, of an IPv6 address. -/
def isPrivateV6 (a : Ipv6Addr) : Bool :=
  a.mappedIpv4.any isPrivateV4
    || a.isLoopback
    || a.isUnspecified
    || a.isMulticast
    || a.segment 0 &&& 0xfe00 == 0xfc00
    || a.segment 0 &&& 0xffc0 == 0xfe80
    || a.inCidr (Ipv6Addr.new [0xfec0, 0, 0, 0, 0, 0, 0, 0]) 10
    || a.inCidr (Ipv6Addr.new [0x2001, 0x0002, 0, 0, 0, 0, 0, 0]) 48
    || a.inCidr (Ipv6Addr.new [0x2001, 0x0db8, 0, 0, 0, 0, 0, 0]) 32
    || a.inCidr (Ipv6Addr.new [0x2001, 0x0010, 0, 0, 0, 0, 0, 0]) 28

/-- `is_private_ip`. -/
def isPrivateIp : IpAddr → Bool
  | v4 address => isPrivateV4 address
  | v6 address => isPrivateV6 address

/-! ## The blocks behind the checks -/

def block4 (a b c d bits : ℕ) : Cidr 32 := ⟨Ipv4Addr.new a b c d, bits⟩

def block6 (segments : List ℕ) (bits : ℕ) : Cidr 128 := ⟨Ipv6Addr.new segments, bits⟩

/-- The IPv4 blocks no download may reach. -/
def blockedV4 : List (Cidr 32) :=
  [block4 0 0 0 0 8, block4 10 0 0 0 8, block4 100 64 0 0 10, block4 127 0 0 0 8,
    block4 169 254 0 0 16, block4 172 16 0 0 12, block4 192 0 0 0 24, block4 192 0 2 0 24,
    block4 192 168 0 0 16, block4 198 18 0 0 15, block4 198 51 100 0 24, block4 203 0 113 0 24,
    block4 224 0 0 0 4, block4 240 0 0 0 4]

/-- The IPv6 blocks no download may reach. -/
def blockedV6 : List (Cidr 128) :=
  [block6 [0, 0, 0, 0, 0, 0, 0, 0] 128, block6 [0, 0, 0, 0, 0, 0, 0, 1] 128,
    block6 [0x2001, 0x0002, 0, 0, 0, 0, 0, 0] 48, block6 [0x2001, 0x0010, 0, 0, 0, 0, 0, 0] 28,
    block6 [0x2001, 0x0db8, 0, 0, 0, 0, 0, 0] 32, block6 [0xfc00, 0, 0, 0, 0, 0, 0, 0] 7,
    block6 [0xfe80, 0, 0, 0, 0, 0, 0, 0] 10, block6 [0xfec0, 0, 0, 0, 0, 0, 0, 0] 10,
    block6 [0xff00, 0, 0, 0, 0, 0, 0, 0] 8]

def IsBlockedV4 (a : Ipv4Addr) : Prop := ∃ block ∈ blockedV4, block.Contains a

def IsBlockedV6 (a : Ipv6Addr) : Prop := ∃ block ∈ blockedV6, block.Contains a

instance : DecidablePred IsBlockedV4 := fun _ => inferInstanceAs (Decidable (∃ _ ∈ _, _))

instance : DecidablePred IsBlockedV6 := fun _ => inferInstanceAs (Decidable (∃ _ ∈ _, _))

/-- `::ffff:0:0/96`, the IPv4-mapped addresses. -/
def mapped : Cidr 128 := block6 [0, 0, 0, 0, 0, 0xffff, 0, 0] 96

/-- `::/96`, the IPv4-compatible addresses. -/
def compatible : Cidr 128 := block6 [0, 0, 0, 0, 0, 0, 0, 0] 96

/-- `64:ff9b::/96`, the addresses NAT64 translates. -/
def nat64 : Cidr 128 := block6 [0x64, 0xff9b, 0, 0, 0, 0, 0, 0] 96

/-- `2002::/16`, the 6to4 addresses. -/
def sixToFour : Cidr 128 := block6 [0x2002, 0, 0, 0, 0, 0, 0, 0] 16

/-- The IPv4 address in the last 32 bits. -/
def lastBits (a : Ipv6Addr) : Ipv4Addr := a.setWidth 32

/-- The IPv4 address behind the first 16 bits. -/
def afterPrefix (a : Ipv6Addr) : Ipv4Addr := (a >>> 80).setWidth 32

/-- The IPv4 address that an IPv6 address embeds is blocked. -/
def EmbedsBlocked (a : Ipv6Addr) : Prop :=
  ((mapped.Contains a ∨ compatible.Contains a ∨ nat64.Contains a) ∧ IsBlockedV4 (lastBits a)) ∨
    (sixToFour.Contains a ∧ IsBlockedV4 (afterPrefix a))

/-- **The address is globally reachable**: neither blocked, nor an IPv6 form of a blocked one. -/
def IsGloballyReachable : IpAddr → Prop
  | v4 a => ¬ IsBlockedV4 a
  | v6 a => ¬ IsBlockedV6 a ∧ ¬ EmbedsBlocked a

/-- The embeddings that `is_private_ip` does not undo. -/
def HidesBlocked : IpAddr → Prop
  | v4 _ => False
  | v6 a =>
    ((compatible.Contains a ∨ nat64.Contains a) ∧ IsBlockedV4 (lastBits a)) ∨
      (sixToFour.Contains a ∧ IsBlockedV4 (afterPrefix a))

/-! ## What the checks block -/

section Blocks

variable {a b c d bits : ℕ}

/-- A block of IPv4 addresses, in numbers. -/
theorem block4_contains_iff {x : Ipv4Addr}
    (h : ((a * 256 + b) * 256 + c) * 256 + d < 2 ^ 32) :
    (block4 a b c d bits).Contains x ↔
      x.toNat / 2 ^ (32 - bits) = (((a * 256 + b) * 256 + c) * 256 + d) / 2 ^ (32 - bits) := by
  rw [Cidr.Contains, block4, Ipv4Addr.new, BitVec.toNat_ofNat, Nat.mod_eq_of_lt h]

/-- A block of IPv6 addresses, in numbers. -/
theorem block6_contains_iff {x : Ipv6Addr} {segments : List ℕ}
    (h : segments.foldl (fun n segment => n * 65536 + segment) 0 < 2 ^ 128) :
    (block6 segments bits).Contains x ↔ x.toNat / 2 ^ (128 - bits)
      = segments.foldl (fun n segment => n * 65536 + segment) 0 / 2 ^ (128 - bits) := by
  rw [Cidr.Contains, block6, Ipv6Addr.new, BitVec.toNat_ofNat, Nat.mod_eq_of_lt h]

theorem inCidr4_iff {x : Ipv4Addr} :
    x.inCidr (Ipv4Addr.new a b c d) bits = true ↔ (block4 a b c d bits).Contains x := by
  have hmask : (if bits = 0 then 0 else BitVec.allOnes 32 <<< (32 - bits)) = Cidr.mask 32 bits := by
    split_ifs with hbits
    · subst hbits
      decide
    · rfl
  rw [← Cidr.and_mask_eq_iff, Ipv4Addr.inCidr, hmask, beq_iff_eq]
  rfl

theorem inCidr6_iff {x : Ipv6Addr} {segments : List ℕ} :
    x.inCidr (Ipv6Addr.new segments) bits = true ↔ (block6 segments bits).Contains x := by
  have hmask : (if bits = 0 then 0 else BitVec.allOnes 128 <<< (128 - bits))
      = Cidr.mask 128 bits := by
    split_ifs with hbits
    · subst hbits
      decide
    · rfl
  rw [← Cidr.and_mask_eq_iff, Ipv6Addr.inCidr, hmask, beq_iff_eq]
  rfl

end Blocks

section V4

variable {a : Ipv4Addr}

theorem isPrivate_iff : a.isPrivate = true ↔ (block4 10 0 0 0 8).Contains a ∨
    (block4 172 16 0 0 12).Contains a ∨ (block4 192 168 0 0 16).Contains a := by
  have hlt := a.isLt
  rw [block4_contains_iff (by decide), block4_contains_iff (by decide),
    block4_contains_iff (by decide)]
  simp only [Ipv4Addr.isPrivate, Bool.or_eq_true, Bool.and_eq_true, beq_iff_eq, decide_eq_true_eq]
  simp only [Ipv4Addr.octet, Nat.reduceSub, Nat.reducePow, Nat.reduceMul, Nat.reduceAdd,
    Nat.reduceDiv]
  omega

theorem isLoopback4_iff : a.isLoopback = true ↔ (block4 127 0 0 0 8).Contains a := by
  have hlt := a.isLt
  rw [block4_contains_iff (by decide)]
  simp only [Ipv4Addr.isLoopback, beq_iff_eq]
  simp only [Ipv4Addr.octet, Nat.reduceSub, Nat.reducePow, Nat.reduceMul, Nat.reduceAdd,
    Nat.reduceDiv]
  omega

theorem isLinkLocal_iff : a.isLinkLocal = true ↔ (block4 169 254 0 0 16).Contains a := by
  have hlt := a.isLt
  rw [block4_contains_iff (by decide)]
  simp only [Ipv4Addr.isLinkLocal, Bool.and_eq_true, beq_iff_eq]
  simp only [Ipv4Addr.octet, Nat.reduceSub, Nat.reducePow, Nat.reduceMul, Nat.reduceAdd,
    Nat.reduceDiv]
  omega

theorem isMulticast4_iff : a.isMulticast = true ↔ (block4 224 0 0 0 4).Contains a := by
  have hlt := a.isLt
  rw [block4_contains_iff (by decide)]
  simp only [Ipv4Addr.isMulticast, Bool.and_eq_true, decide_eq_true_eq]
  simp only [Ipv4Addr.octet, Nat.reduceSub, Nat.reducePow, Nat.reduceMul, Nat.reduceAdd,
    Nat.reduceDiv]
  omega

/-- The unspecified address lies in its block, as the broadcast address does in the last one. -/
theorem contains_of_isUnspecified4 (h : a.isUnspecified = true) : (block4 0 0 0 0 8).Contains a := by
  rw [Ipv4Addr.isUnspecified, beq_iff_eq] at h
  rw [h]
  decide

theorem contains_of_isBroadcast (h : a.isBroadcast = true) : (block4 240 0 0 0 4).Contains a := by
  rw [Ipv4Addr.isBroadcast, beq_iff_eq] at h
  rw [h]
  decide

/-- **`is_private_ip` blocks the IPv4 blocks**, over all addresses. -/
theorem isPrivateV4_iff : isPrivateV4 a = true ↔ IsBlockedV4 a := by
  have hunspecified := @contains_of_isUnspecified4 a
  have hbroadcast := @contains_of_isBroadcast a
  simp only [isPrivateV4, Bool.or_eq_true, isPrivate_iff, isLoopback4_iff, isLinkLocal_iff,
    isMulticast4_iff, inCidr4_iff, IsBlockedV4, blockedV4, List.exists_mem_cons_iff,
    List.not_mem_nil, false_and, exists_false, or_false]
  tauto

end V4

section V6

variable {a : Ipv6Addr}

theorem toNat_segment {i : ℕ} : (a.segment i).toNat = a.toNat / 65536 ^ (7 - i) % 65536 := by
  rw [Ipv6Addr.segment, BitVec.toNat_ofNat]

/-- A comparison of the first segment under a mask is one of the whole address. -/
theorem segment_and_iff {value bits : ℕ} (hbits : bits ≤ 16) (hvalue : value < 65536) :
    a.segment 0 &&& Cidr.mask 16 bits = BitVec.ofNat 16 value &&& Cidr.mask 16 bits ↔
      (block6 [value, 0, 0, 0, 0, 0, 0, 0] bits).Contains a := by
  have hlt := a.isLt
  have hsegment : (a.segment 0).toNat = a.toNat / 2 ^ 112 := by
    rw [toNat_segment]
    simp only [Nat.reduceSub, Nat.reducePow]
    omega
  have hnetwork : ([value, 0, 0, 0, 0, 0, 0, 0] : List ℕ).foldl
      (fun n segment => n * 65536 + segment) 0 = value * 2 ^ 112 := by
    simp only [List.foldl_cons, List.foldl_nil]
    omega
  have hmasked := @Cidr.and_mask_eq_iff 16 ⟨BitVec.ofNat 16 value, bits⟩ (a.segment 0)
  rw [hmasked, Cidr.Contains, hsegment,
    BitVec.toNat_ofNat, Nat.mod_eq_of_lt hvalue, block6_contains_iff (by rw [hnetwork]; omega),
    hnetwork, Nat.div_div_eq_div_mul, ← Nat.pow_add, show 112 + (16 - bits) = 128 - bits by omega,
    show 2 ^ (128 - bits) = 2 ^ (16 - bits) * 2 ^ 112 by rw [← Nat.pow_add]; congr 1; omega,
    Nat.mul_div_mul_right _ _ (Nat.two_pow_pos 112)]

theorem isMulticast6_iff : a.isMulticast = true ↔
    (block6 [0xff00, 0, 0, 0, 0, 0, 0, 0] 8).Contains a := by
  rw [← segment_and_iff (by decide) (by decide), Ipv6Addr.isMulticast, beq_iff_eq]
  rfl

theorem isUniqueLocal_iff : a.segment 0 &&& 0xfe00 = 0xfc00 ↔
    (block6 [0xfc00, 0, 0, 0, 0, 0, 0, 0] 7).Contains a := by
  rw [← segment_and_iff (by decide) (by decide)]
  rfl

theorem isLinkLocal6_iff : a.segment 0 &&& 0xffc0 = 0xfe80 ↔
    (block6 [0xfe80, 0, 0, 0, 0, 0, 0, 0] 10).Contains a := by
  rw [← segment_and_iff (by decide) (by decide)]
  rfl

/-- A block of all the bits is one address. -/
theorem block6_all_iff {segments : List ℕ} :
    (block6 segments 128).Contains a ↔ a = Ipv6Addr.new segments := by
  rw [Cidr.Contains, block6, ← BitVec.toNat_inj]
  simp only [Nat.sub_self, Nat.pow_zero, Nat.div_one]

/-- **`mapped_ipv4` reads the last 32 bits of a mapped address**, and of no other. -/
theorem mappedIpv4_eq : a.mappedIpv4 = if mapped.Contains a then some (lastBits a) else none := by
  have hlt := a.isLt
  have hmapped : ((List.range 5).all fun i => a.segment i == 0) ∧ a.segment 5 = BitVec.allOnes 16 ↔
      mapped.Contains a := by
    have hzero : ∀ i, a.segment i = 0 ↔ a.toNat / 65536 ^ (7 - i) % 65536 = 0 := fun i => by
      rw [← BitVec.toNat_inj, toNat_segment]
      rfl
    have hdiv : ∀ k, a.toNat / 65536 ^ (k + 1) = a.toNat / 65536 ^ k / 65536 := fun k => by
      rw [Nat.div_div_eq_div_mul, ← Nat.pow_succ]
    rw [mapped, block6_contains_iff (by decide), ← BitVec.toNat_inj, toNat_segment]
    simp only [show List.range 5 = [0, 1, 2, 3, 4] from rfl, List.all_cons, List.all_nil,
      Bool.and_true, Bool.and_eq_true, beq_iff_eq, hzero, BitVec.toNat_allOnes, Nat.reduceSub, hdiv 6,
      hdiv 5, hdiv 4, hdiv 3, hdiv 2]
    simp only [List.foldl_cons, List.foldl_nil, Nat.reducePow, Nat.reduceMul, Nat.reduceAdd,
      Nat.reduceDiv]
    omega
  have hlast : Ipv4Addr.new ((a.segment 6 >>> 8).toNat % 256) ((a.segment 6).toNat % 256)
      ((a.segment 7 >>> 8).toNat % 256) ((a.segment 7).toNat % 256) = lastBits a := by
    rw [← BitVec.toNat_inj, lastBits, BitVec.toNat_setWidth, Ipv4Addr.new, BitVec.toNat_ofNat]
    simp only [BitVec.toNat_ushiftRight, Nat.shiftRight_eq_div_pow, toNat_segment, Nat.reduceSub,
      Nat.reducePow, Nat.div_one]
    omega
  rw [Ipv6Addr.mappedIpv4, hlast]
  exact if_congr hmapped rfl rfl

/-- **`is_private_ip` blocks the IPv6 blocks and the mapped forms of the IPv4 ones**, over all
addresses. -/
theorem isPrivateV6_iff :
    isPrivateV6 a = true ↔ IsBlockedV6 a ∨ (mapped.Contains a ∧ IsBlockedV4 (lastBits a)) := by
  have hmapped : a.mappedIpv4.any isPrivateV4 = true ↔
      mapped.Contains a ∧ IsBlockedV4 (lastBits a) := by
    rw [mappedIpv4_eq, ← isPrivateV4_iff]
    split_ifs with h
    · simp [h]
    · simp [h]
  simp only [isPrivateV6, Bool.or_eq_true, hmapped, Ipv6Addr.isLoopback, Ipv6Addr.isUnspecified,
    beq_iff_eq, isMulticast6_iff, isUniqueLocal_iff, isLinkLocal6_iff, inCidr6_iff, IsBlockedV6,
    blockedV6, List.exists_mem_cons_iff, List.not_mem_nil, false_and, exists_false, or_false,
    block6_all_iff]
  tauto

end V6

/-- **An address that passes is globally reachable, but for the embeddings that are not undone.** -/
theorem isGloballyReachable_iff {address : IpAddr} (h : isPrivateIp address = false) :
    IsGloballyReachable address ↔ ¬ HidesBlocked address := by
  cases address with
  | v4 a =>
    have hblocked : ¬ IsBlockedV4 a := fun hblocked =>
      absurd (isPrivateV4_iff.mpr hblocked) (by rw [show isPrivateV4 a = false from h]; decide)
    exact iff_of_true hblocked id
  | v6 a =>
    have hpasses : ¬ (IsBlockedV6 a ∨ (mapped.Contains a ∧ IsBlockedV4 (lastBits a))) :=
      fun hblocked =>
        absurd (isPrivateV6_iff.mpr hblocked) (by rw [show isPrivateV6 a = false from h]; decide)
    simp only [IsGloballyReachable, HidesBlocked, EmbedsBlocked]
    tauto

end IpAddr

/-! ## URLs -/

/-- `url::Host`. -/
inductive Host
  | domain (name : String)
  | ipv4 (address : Ipv4Addr)
  | ipv6 (address : Ipv6Addr)
deriving DecidableEq

/-- The parsed host of `url::Url`. -/
class UrlHosts (Url : Type) [UrlCrate Url] where
  host : Url → Option Host

/-- `set_fragment(None)` leaves a URL without a fragment as it is. -/
class LawfulClearFragment (Url : Type) [UrlCrate Url] : Prop where
  clearFragment_eq (u : Url) : UrlCrate.fragment u = none → UrlCrate.clearFragment u = u

/-- The host names that `is_safe_asset_url` refuses, of a lower-case name. -/
def isLocalName (name : List Char) : Bool :=
  name == "localhost".toList || ".localhost".toList.isSuffixOf name
    || ".local".toList.isSuffixOf name

section Fetch

variable {Url : Type} [UrlCrate Url] [UrlHosts Url]

/-- `is_allowed_asset_port`. -/
def isAllowedAssetPort (url : Url) : Bool :=
  (UrlCrate.scheme url == "http" && (UrlCrate.port url).all (· == 80))
    || (UrlCrate.scheme url == "https" && (UrlCrate.port url).all (· == 443))

/-- `is_safe_asset_url`, of its host. -/
def isSafeHost : Host → Bool
  | .ipv4 address => !IpAddr.isPrivateIp (.v4 address)
  | .ipv6 address => !IpAddr.isPrivateIp (.v6 address)
  | .domain name => !isLocalName (toAsciiLowercase name).toList

/-- `is_safe_asset_url`. -/
def isSafeAssetUrl (url : Url) : Bool :=
  if (UrlCrate.scheme url ≠ "http" ∧ UrlCrate.scheme url ≠ "https")
      ∨ (UrlHosts.host url).isNone
      ∨ UrlCrate.username url ≠ ""
      ∨ (UrlCrate.password url).isSome
      ∨ (UrlCrate.fragment url).isSome
      ∨ isAllowedAssetPort url = false then
    false
  else (UrlHosts.host url).any isSafeHost

/-- `validate_asset_url`. -/
def validateAssetUrl (url : Url) : Option Url :=
  if isSafeAssetUrl url then some (UrlCrate.clearFragment url) else none

/-- `can_follow_redirect`. -/
def canFollowRedirect (previousCount maxRedirects : ℕ) (url : Url) : Bool :=
  decide (previousCount ≤ maxRedirects) && isSafeAssetUrl url

/-- `filter_resolved_addresses`. -/
def filterResolvedAddresses (addresses : List IpAddr) : List IpAddr :=
  addresses.filter fun address => !address.isPrivateIp

/-! ## Downloads -/

/-- What one request meets: the addresses its host name resolves to this time, which of those it is
handed the client tries, and where its response redirects to, if it does. -/
structure Exchange (Url : Type) where
  dns : List IpAddr
  tries : IpAddr → Bool
  location : Option Url

/-- The addresses the client connects to: a literal one, or some that `SafeDnsResolver` returned. -/
def connections (url : Url) (exchange : Exchange Url) : List IpAddr :=
  match UrlHosts.host url with
  | none => []
  | some (.ipv4 address) => [.v4 address]
  | some (.ipv6 address) => [.v6 address]
  | some (.domain _) => (filterResolvedAddresses exchange.dns).filter exchange.tries

/-- The port the client connects to: the one of the URL, or that of its scheme. -/
def connectedPort (url : Url) : ℕ :=
  (UrlCrate.port url).getD (if UrlCrate.scheme url = "https" then 443 else 80)

/-- The requests of one download, each with what it met.  `previousCount` requests were made when a
redirect is decided; one that connected nowhere has no response. -/
def download (maxRedirects : ℕ) : ℕ → Url → List (Exchange Url) → List (Url × Exchange Url)
  | _, _, [] => []
  | previousCount, url, exchange :: exchanges =>
    (url, exchange) ::
      match exchange.location with
      | none => []
      | some next =>
        if (connections url exchange).isEmpty then []
        else if canFollowRedirect previousCount maxRedirects next then
          download maxRedirects (previousCount + 1) next exchanges
        else []

/-- A call of the service; a URL without exchanges is where a time or byte budget ends the loop. -/
inductive FetchCall (Url : Type)
  | assets (urls : List (Url × Option (List (Exchange Url))))
  | repair (url : Url) (exchanges : List (Exchange Url))

/-- `AssetCachePolicy`, as far as downloads go. -/
structure FetchPolicy where
  maxCountPerArticle : ℕ
  maxRedirects : ℕ

/-- The loop of `fetch_assets_with_context`. -/
def fetchEach (maxRedirects : ℕ) :
    List (Url × Option (List (Exchange Url))) → List (List (Url × Exchange Url))
  | [] => []
  | (_, none) :: _ => []
  | (sourceUrl, some exchanges) :: urls =>
    match validateAssetUrl sourceUrl with
    | none => fetchEach maxRedirects urls
    | some url =>
      if hasProviderSignature url then fetchEach maxRedirects urls
      else download maxRedirects 1 url exchanges :: fetchEach maxRedirects urls

/-- The downloads of a call: `fetch_assets_with_context`, `fetch_asset_for_repair`. -/
def FetchCall.downloads (policy : FetchPolicy) : FetchCall Url → List (List (Url × Exchange Url))
  | .assets urls => fetchEach policy.maxRedirects (urls.take policy.maxCountPerArticle)
  | .repair sourceUrl exchanges =>
    match validateAssetUrl sourceUrl with
    | none => []
    | some url =>
      if policy.maxCountPerArticle = 0 then [] else [download policy.maxRedirects 1 url exchanges]

/-- The host is a local name, with or without its final dot. -/
def IsLocalHost (name : String) : Prop :=
  isLocalName (toAsciiLowercase name).toList = true ∨
    ∃ dotless, (toAsciiLowercase name).toList = dotless ++ ['.'] ∧ isLocalName dotless = true

/-- **A request is safe**: no credentials, no local name, and every connection goes to the port of
its scheme at an address that is globally reachable. -/
def IsSafeRequest (request : Url × Exchange Url) : Prop :=
  UrlCrate.username request.1 = "" ∧ UrlCrate.password request.1 = none ∧
    (∀ name, UrlHosts.host request.1 = some (.domain name) → ¬ IsLocalHost name) ∧
    ∀ address ∈ connections request.1 request.2, address.IsGloballyReachable ∧
      ((UrlCrate.scheme request.1 = "http" ∧ connectedPort request.1 = 80) ∨
        (UrlCrate.scheme request.1 = "https" ∧ connectedPort request.1 = 443))

/-- Every request of every download is safe, and none follows more redirects than allowed. -/
def FetchCall.IsSafe (policy : FetchPolicy) (call : FetchCall Url) : Prop :=
  ∀ requests ∈ call.downloads policy, requests.length ≤ policy.maxRedirects + 1 ∧
    ∀ request ∈ requests, IsSafeRequest request

/-- The name is `localhost.`, or ends in `.localhost.` or `.local.`. -/
def IsDottedLocal (name : String) : Prop :=
  (toAsciiLowercase name).toList = "localhost.".toList ∨
    ".localhost.".toList <:+ (toAsciiLowercase name).toList ∨
    ".local.".toList <:+ (toAsciiLowercase name).toList

/-- The host of the request is a dotted local name, or it connects to an embedding that the checks
do not undo. -/
def EvadesChecks (request : Url × Exchange Url) : Prop :=
  (∃ name, UrlHosts.host request.1 = some (.domain name) ∧ IsDottedLocal name) ∨
    ∃ address ∈ connections request.1 request.2, address.HidesBlocked

/-! ## What passes the checks -/

theorem isSafeAssetUrl_iff {url : Url} : isSafeAssetUrl url = true ↔
    (UrlCrate.scheme url = "http" ∨ UrlCrate.scheme url = "https") ∧ UrlCrate.username url = "" ∧
      UrlCrate.password url = none ∧ UrlCrate.fragment url = none ∧
      isAllowedAssetPort url = true ∧ ∃ host, UrlHosts.host url = some host ∧
        isSafeHost host = true := by
  rw [isSafeAssetUrl]
  cases hhost : UrlHosts.host url with
  | none => simp
  | some host =>
    simp only [Option.isNone_some, Bool.false_eq_true, false_or, Option.any_some, Option.some.injEq,
      exists_eq_left', Option.isSome_iff_ne_none, ne_eq]
    split_ifs with hrefused
    · rw [← Bool.not_eq_true] at hrefused
      tauto
    · rw [← Bool.not_eq_true] at hrefused
      tauto

/-- The port of a URL that passes is the one of its scheme. -/
theorem connectedPort_of_isSafe {url : Url} (h : isSafeAssetUrl url = true) :
    (UrlCrate.scheme url = "http" ∧ connectedPort url = 80) ∨
      (UrlCrate.scheme url = "https" ∧ connectedPort url = 443) := by
  obtain ⟨-, -, -, -, hport, -⟩ := isSafeAssetUrl_iff.mp h
  rw [isAllowedAssetPort, Bool.or_eq_true, Bool.and_eq_true, Bool.and_eq_true, beq_iff_eq,
    beq_iff_eq] at hport
  unfold connectedPort
  rcases hport with ⟨hscheme, hport⟩ | ⟨hscheme, hport⟩
  · refine .inl ⟨hscheme, ?_⟩
    rw [hscheme]
    cases hvalue : UrlCrate.port url with
    | none => rfl
    | some port =>
      rw [hvalue] at hport
      exact beq_iff_eq.mp hport
  · refine .inr ⟨hscheme, ?_⟩
    rw [hscheme]
    cases hvalue : UrlCrate.port url with
    | none => rfl
    | some port =>
      rw [hvalue] at hport
      exact beq_iff_eq.mp hport

/-- Every connection of a URL that passes goes to an address that passes. -/
theorem isPrivateIp_of_mem_connections {url : Url} {exchange : Exchange Url} {address : IpAddr}
    (h : isSafeAssetUrl url = true) (hmem : address ∈ connections url exchange) :
    address.isPrivateIp = false := by
  obtain ⟨-, -, -, -, -, host, hhost, hsafe⟩ := isSafeAssetUrl_iff.mp h
  rw [connections, hhost] at hmem
  cases host with
  | ipv4 a =>
    rw [List.mem_singleton.mp hmem]
    exact Bool.not_eq_true' _ ▸ hsafe
  | ipv6 a =>
    rw [List.mem_singleton.mp hmem]
    exact Bool.not_eq_true' _ ▸ hsafe
  | domain name =>
    have hfiltered := (List.mem_filter.mp (List.mem_filter.mp hmem).1).2
    exact Bool.not_eq_true' _ ▸ hfiltered

/-- A name is local behind a final dot when it is a dotted local name. -/
theorem exists_dotless_iff {name : String} :
    (∃ dotless, (toAsciiLowercase name).toList = dotless ++ ['.'] ∧ isLocalName dotless = true) ↔
      IsDottedLocal name := by
  have hsuffix : ∀ s l : List Char, s ++ ['.'] <:+ l ↔ ∃ dotless, l = dotless ++ ['.'] ∧
      s <:+ dotless := by
    intro s l
    constructor
    · rintro ⟨before, rfl⟩
      exact ⟨before ++ s, by rw [List.append_assoc], List.suffix_append _ _⟩
    · rintro ⟨dotless, rfl, before, rfl⟩
      exact ⟨before, by rw [List.append_assoc]⟩
  rw [IsDottedLocal, show ".localhost.".toList = ".localhost".toList ++ ['.'] from rfl,
    show ".local.".toList = ".local".toList ++ ['.'] from rfl, hsuffix, hsuffix]
  simp only [isLocalName, Bool.or_eq_true, beq_iff_eq, List.isSuffixOf_iff_suffix]
  constructor
  · rintro ⟨dotless, hname, (rfl | hlocal) | hlocal⟩
    · exact .inl hname
    · exact .inr (.inl ⟨dotless, hname, hlocal⟩)
    · exact .inr (.inr ⟨dotless, hname, hlocal⟩)
  · rintro (hname | ⟨dotless, hname, hlocal⟩ | ⟨dotless, hname, hlocal⟩)
    · exact ⟨"localhost".toList, hname, .inl (.inl rfl)⟩
    · exact ⟨dotless, hname, .inl (.inr hlocal)⟩
    · exact ⟨dotless, hname, .inr hlocal⟩

/-- **A request whose URL passes is safe exactly when it does not evade the checks.** -/
theorem isSafeRequest_iff {request : Url × Exchange Url} (h : isSafeAssetUrl request.1 = true) :
    IsSafeRequest request ↔ ¬ EvadesChecks request := by
  obtain ⟨-, husername, hpassword, -, -, host, hhost, hsafe⟩ := isSafeAssetUrl_iff.mp h
  have hport := connectedPort_of_isSafe h
  have haddress : ∀ address ∈ connections request.1 request.2,
      (address.IsGloballyReachable ↔ ¬ address.HidesBlocked) := fun address hmem =>
    IpAddr.isGloballyReachable_iff (isPrivateIp_of_mem_connections h hmem)
  have hname : ∀ name, UrlHosts.host request.1 = some (.domain name) →
      (¬ IsLocalHost name ↔ ¬ IsDottedLocal name) := by
    intro name hdomain
    have hnotLocal : isLocalName (toAsciiLowercase name).toList = false := by
      rw [hhost] at hdomain
      rw [Option.some.inj hdomain] at hsafe
      exact Bool.not_eq_true' _ ▸ hsafe
    rw [IsLocalHost, hnotLocal, exists_dotless_iff]
    simp
  rw [IsSafeRequest, EvadesChecks, not_or]
  constructor
  · rintro ⟨-, -, hlocal, hconnected⟩
    exact ⟨fun ⟨name, hdomain, hdotted⟩ => (hname name hdomain).mp (hlocal name hdomain) hdotted,
      fun ⟨address, hmem, hhides⟩ => (haddress address hmem).mp (hconnected address hmem).1 hhides⟩
  · rintro ⟨hdotted, hhides⟩
    refine ⟨husername, hpassword, fun name hdomain => ?_, fun address hmem => ⟨?_, hport⟩⟩
    · exact (hname name hdomain).mpr fun h => hdotted ⟨name, hdomain, h⟩
    · exact (haddress address hmem).mpr fun h => hhides ⟨address, hmem, h⟩

/-! ## Downloads, hop by hop -/

/-- **Every hop is validated**: a redirect is followed to a URL that passes, or not at all. -/
theorem isSafe_of_mem_download {maxRedirects : ℕ} {exchanges : List (Exchange Url)} :
    ∀ {previousCount : ℕ} {url : Url}, isSafeAssetUrl url = true →
      ∀ request ∈ download maxRedirects previousCount url exchanges,
        isSafeAssetUrl request.1 = true := by
  induction exchanges with
  | nil => intro previousCount url _ request hmem; cases hmem
  | cons exchange exchanges ih =>
    intro previousCount url hsafe request hmem
    rw [download, List.mem_cons] at hmem
    rcases hmem with rfl | hmem
    · exact hsafe
    · split at hmem
      · cases hmem
      · split_ifs at hmem with hconnected hfollow
        · cases hmem
        · exact ih (Bool.and_eq_true_iff.mp hfollow).2 request hmem
        · cases hmem

/-- The requests of a download are counted as its redirects are. -/
theorem length_download_le {maxRedirects : ℕ} {exchanges : List (Exchange Url)} :
    ∀ {previousCount : ℕ} {url : Url}, previousCount ≤ maxRedirects + 1 →
      (download maxRedirects previousCount url exchanges).length + previousCount
        ≤ maxRedirects + 2 := by
  induction exchanges with
  | nil => intro previousCount url hle; simp only [download, List.length_nil]; omega
  | cons exchange exchanges ih =>
    intro previousCount url hle
    rw [download, List.length_cons]
    split
    · simp only [List.length_nil]; omega
    · split_ifs with hconnected hfollow
      · simp only [List.length_nil]; omega
      · have hprevious := of_decide_eq_true (Bool.and_eq_true_iff.mp hfollow).1
        rename_i next _
        have hrest := @ih (previousCount + 1) next (by omega)
        omega
      · simp only [List.length_nil]; omega

variable [LawfulClearFragment Url]

/-- A validated URL is the URL itself, and passes. -/
theorem isSafe_of_validateAssetUrl {sourceUrl url : Url} (h : validateAssetUrl sourceUrl = some url) :
    isSafeAssetUrl url = true := by
  unfold validateAssetUrl at h
  split_ifs at h with hsafe
  obtain ⟨-, -, -, hfragment, -⟩ := isSafeAssetUrl_iff.mp hsafe
  rw [← Option.some.inj h, LawfulClearFragment.clearFragment_eq sourceUrl hfragment]
  exact hsafe

theorem mem_fetchEach {maxRedirects : ℕ} {requests : List (Url × Exchange Url)} :
    ∀ {urls : List (Url × Option (List (Exchange Url)))}, requests ∈ fetchEach maxRedirects urls →
      ∃ url exchanges, isSafeAssetUrl url = true ∧ requests = download maxRedirects 1 url exchanges
  | (_, none) :: _, h => by cases h
  | (sourceUrl, some exchanges) :: urls, h => by
    rw [fetchEach] at h
    split at h
    · exact mem_fetchEach h
    · rename_i url hvalid
      split_ifs at h
      · exact mem_fetchEach h
      · rcases List.mem_cons.mp h with rfl | h
        · exact ⟨url, exchanges, isSafe_of_validateAssetUrl hvalid, rfl⟩
        · exact mem_fetchEach h

/-- Every download of a call starts at a URL that passes. -/
theorem FetchCall.mem_downloads {policy : FetchPolicy} {call : FetchCall Url}
    {requests : List (Url × Exchange Url)} (h : requests ∈ call.downloads policy) :
    ∃ url exchanges, isSafeAssetUrl url = true ∧
      requests = download policy.maxRedirects 1 url exchanges := by
  cases call with
  | assets urls => exact mem_fetchEach h
  | repair sourceUrl exchanges =>
    rw [downloads] at h
    split at h
    · cases h
    · rename_i url hvalid
      split_ifs at h
      · cases h
      · exact ⟨url, exchanges, isSafe_of_validateAssetUrl hvalid, List.mem_singleton.mp h⟩

/-- **Downloads stay outside exactly when no request evades the checks.**  Whatever URLs are asked
for, whatever the responses redirect to and the names resolve to at each request: every request is
without credentials, to no local name, and connects to the port of its scheme at a globally reachable
address, within the redirects allowed, if and only if no request goes to a local name spelled with
its final dot or connects to an IPv4-compatible, NAT64 or 6to4 address of a blocked IPv4 address. -/
theorem fetch_isSafe_iff (policy : FetchPolicy) (call : FetchCall Url) :
    call.IsSafe policy ↔
      ∀ requests ∈ call.downloads policy, ∀ request ∈ requests, ¬ EvadesChecks request := by
  constructor
  · intro hsafe requests hrequests request hmem
    obtain ⟨url, exchanges, hurl, rfl⟩ := FetchCall.mem_downloads hrequests
    exact (isSafeRequest_iff (isSafe_of_mem_download hurl request hmem)).mp
      ((hsafe _ hrequests).2 request hmem)
  · intro hevades requests hrequests
    have hnone := hevades requests hrequests
    obtain ⟨url, exchanges, hurl, rfl⟩ := FetchCall.mem_downloads hrequests
    have hlength : (download policy.maxRedirects 1 url exchanges).length + 1
        ≤ policy.maxRedirects + 2 := length_download_le (by omega)
    refine ⟨by omega, fun request hmem => ?_⟩
    exact (isSafeRequest_iff (isSafe_of_mem_download hurl request hmem)).mpr (hnone request hmem)

end Fetch

/-! ## Three downloads -/

section Samples

/-- The host of a plain URL; one that ends in a number is no name. -/
instance : UrlHosts PlainUrl where
  host url :=
    if ((url.host.toList.reverse.dropWhile (· == '.')).takeWhile (· ≠ '.')).all Char.isDigit then none
    else some (.domain url.host)

instance : LawfulClearFragment PlainUrl := ⟨fun _ _ => rfl⟩

def fetchPolicy : FetchPolicy := ⟨10, 5⟩

/-- One image at `url`, whose name resolves to `address`. -/
def fetchFrom (url : PlainUrl) (address : IpAddr) : FetchCall PlainUrl :=
  .assets [(url, some [⟨[address], fun _ => true, none⟩])]

def cdnImage : PlainUrl := ⟨"https://cdn.example/image.png", by decide⟩

def localImage : PlainUrl := ⟨"https://localhost./image.png", by decide⟩

/-- `64:ff9b::7f00:1`, behind which NAT64 finds `127.0.0.1`. -/
def translatedLoopback : IpAddr := .v6 (Ipv6Addr.new [0x64, 0xff9b, 0, 0, 0, 0, 0x7f00, 1])

/-- Such a call makes one request, if its URL passes. -/
theorem downloads_fetchFrom {url : PlainUrl} (hsafe : isSafeAssetUrl url = true)
    (address : IpAddr) : (fetchFrom url address).downloads fetchPolicy
      = [[(url, ⟨[address], fun _ => true, none⟩)]] := by
  have hvalid : validateAssetUrl url = some url := if_pos hsafe
  have hsigned : hasProviderSignature url = false := rfl
  simp only [FetchCall.downloads, fetchFrom, fetchPolicy, List.take_succ_cons, List.take_nil,
    fetchEach, hvalid, hsigned, Bool.false_eq_true, if_false, download]

/-- A name that resolves to a public address is fetched from there. -/
theorem fetch_isSafe_public :
    (fetchFrom cdnImage (.v4 (Ipv4Addr.new 93 184 216 34))).IsSafe fetchPolicy := by
  refine (fetch_isSafe_iff fetchPolicy _).mpr fun requests hrequests request hmem => ?_
  rw [downloads_fetchFrom (by decide +kernel)] at hrequests
  rw [List.mem_singleton.mp hrequests] at hmem
  rw [List.mem_singleton.mp hmem]
  rintro (⟨name, hname, hdotted⟩ | ⟨address, haddress, hhides⟩)
  · have hlower : (toAsciiLowercase cdnImage.host).toList = "cdn.example".toList := by
      decide +kernel
    obtain rfl : cdnImage.host = name := Host.domain.inj (Option.some.inj hname)
    rw [IsDottedLocal, hlower] at hdotted
    exact absurd hdotted (by decide)
  · have hpublic : connections cdnImage ⟨[.v4 (Ipv4Addr.new 93 184 216 34)], fun _ => true, none⟩
        = [IpAddr.v4 (Ipv4Addr.new 93 184 216 34)] := by decide +kernel
    rw [hpublic] at haddress
    rw [List.mem_singleton.mp haddress] at hhides
    exact hhides

/-- **Two downloads that do not stay outside**: a name that resolves to a NAT64 address of
`127.0.0.1`, and `localhost` with its final dot. -/
theorem fetch_not_isSafe_evading :
    ¬ (fetchFrom cdnImage translatedLoopback).IsSafe fetchPolicy ∧
      ¬ (fetchFrom localImage (.v4 (Ipv4Addr.new 93 184 216 34))).IsSafe fetchPolicy := by
  have hrequest : ∀ {url address}, isSafeAssetUrl url = true →
      (fetchFrom url address).IsSafe fetchPolicy →
      IsSafeRequest (url, ⟨[address], fun _ => true, none⟩) := fun hurl hsafe =>
    (hsafe _ (by rw [downloads_fetchFrom hurl]; exact List.mem_cons_self)).2 _ List.mem_cons_self
  constructor
  · intro hsafe
    have hconnected : translatedLoopback ∈ connections cdnImage
        ⟨[translatedLoopback], fun _ => true, none⟩ := by decide +kernel
    have hembeds : IpAddr.EmbedsBlocked (Ipv6Addr.new [0x64, 0xff9b, 0, 0, 0, 0, 0x7f00, 1]) :=
      .inl (by decide +kernel)
    obtain ⟨-, -, -, hreachable⟩ := hrequest (by decide +kernel) hsafe
    exact (hreachable _ hconnected).1.2 hembeds
  · intro hsafe
    obtain ⟨-, -, hlocal, -⟩ := hrequest (by decide +kernel) hsafe
    exact hlocal localImage.host rfl (.inr ⟨"localhost".toList, by decide +kernel, by decide⟩)

end Samples

end Werrss
