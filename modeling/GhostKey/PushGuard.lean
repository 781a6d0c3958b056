import GhostKey.Foundation.Block
import GhostKey.Foundation.Dialogue

/-!
# The Guard of Push Endpoints

A push subscription names an endpoint of the subscriber's choice, which the server later sends a
POST to. Before each POST the server looks the endpoint's host up and refuses it when one of its
addresses is not public. The HTTP client then looks it up again, and follows redirects.

Layers:
1. addresses, and the tests of `is_public_ip`;
2. what a publicly routable address is, from the blocks that are set aside;
3. `isPublicIp_iff`: the tests accept what is publicly routable, and what they overlook;
4. `assertEndpointPublic`, the HTTP client and `send`;
5. `safe_iff`: when a POST goes to checked, publicly routable addresses only.
-/

namespace GhostKey

open Foundation Program

namespace PushGuard

/-! ## §1 The tests -/

/-- An address by its octets. -/
structure Ipv4Addr where
  o0 : UInt8
  o1 : UInt8
  o2 : UInt8
  o3 : UInt8
  deriving DecidableEq

/-- An address by its segments. -/
structure Ipv6Addr where
  s0 : UInt16
  s1 : UInt16
  s2 : UInt16
  s3 : UInt16
  s4 : UInt16
  s5 : UInt16
  s6 : UInt16
  s7 : UInt16
  deriving DecidableEq

inductive IpAddr where
  | v4 (ip : Ipv4Addr)
  | v6 (ip : Ipv6Addr)
  deriving DecidableEq

namespace Ipv4Addr

def isLoopback (ip : Ipv4Addr) : Bool := ip.o0 = 127

def isPrivate (ip : Ipv4Addr) : Bool :=
  ip.o0 = 10 || (ip.o0 = 172 && 16 ≤ ip.o1 && ip.o1 ≤ 31) || (ip.o0 = 192 && ip.o1 = 168)

def isLinkLocal (ip : Ipv4Addr) : Bool := ip.o0 = 169 && ip.o1 = 254

def isUnspecified (ip : Ipv4Addr) : Bool := ip = ⟨0, 0, 0, 0⟩

def isBroadcast (ip : Ipv4Addr) : Bool := ip = ⟨255, 255, 255, 255⟩

def isDocumentation (ip : Ipv4Addr) : Bool :=
  (ip.o0 = 192 && ip.o1 = 0 && ip.o2 = 2) || (ip.o0 = 198 && ip.o1 = 51 && ip.o2 = 100) ||
    (ip.o0 = 203 && ip.o1 = 0 && ip.o2 = 113)

def isMulticast (ip : Ipv4Addr) : Bool := 224 ≤ ip.o0 && ip.o0 ≤ 239

end Ipv4Addr

def isPublicV4 (ip : Ipv4Addr) : Bool :=
  if ip.isLoopback || ip.isPrivate || ip.isLinkLocal || ip.isUnspecified || ip.isBroadcast ||
      ip.isDocumentation || ip.isMulticast then false
  -- 0.0.0.0/8 "this network"
  else if ip.o0 = 0 then false
  -- 100.64.0.0/10 carrier-grade NAT
  else if ip.o0 = 100 && (ip.o1 &&& 0xc0) = 0x40 then false
  -- 192.0.0.0/24 IETF protocol assignments
  else if ip.o0 = 192 && ip.o1 = 0 && ip.o2 = 0 then false
  -- 198.18.0.0/15 benchmarking
  else if ip.o0 = 198 && (ip.o1 = 18 || ip.o1 = 19) then false
  -- 240.0.0.0/4 reserved
  else if 240 ≤ ip.o0 then false
  else true

/-- The address whose octets are those of two segments. -/
def Ipv4Addr.ofSegments (hi lo : UInt16) : Ipv4Addr :=
  ⟨(hi / 256).toUInt8, (hi % 256).toUInt8, (lo / 256).toUInt8, (lo % 256).toUInt8⟩

namespace Ipv6Addr

def isLoopback (ip : Ipv6Addr) : Bool := ip = ⟨0, 0, 0, 0, 0, 0, 0, 1⟩

def isUnspecified (ip : Ipv6Addr) : Bool := ip = ⟨0, 0, 0, 0, 0, 0, 0, 0⟩

def isMulticast (ip : Ipv6Addr) : Bool := (ip.s0 &&& 0xff00) = 0xff00

def toIpv4Mapped (ip : Ipv6Addr) : Option Ipv4Addr :=
  if ip.s0 = 0 ∧ ip.s1 = 0 ∧ ip.s2 = 0 ∧ ip.s3 = 0 ∧ ip.s4 = 0 ∧ ip.s5 = 0xffff then
    some (.ofSegments ip.s6 ip.s7)
  else none

end Ipv6Addr

def isPublicV6 (ip : Ipv6Addr) : Bool :=
  if ip.isLoopback || ip.isUnspecified || ip.isMulticast then false
  else match ip.toIpv4Mapped with
    -- classify by the embedded v4
    | some v4 => isPublicV4 v4
    | none =>
      -- unique-local fc00::/7
      if (ip.s0 &&& 0xfe00) = 0xfc00 then false
      -- link-local fe80::/10
      else if (ip.s0 &&& 0xffc0) = 0xfe80 then false
      -- documentation 2001:db8::/32
      else if ip.s0 = 0x2001 && ip.s1 = 0x0db8 then false
      else true

def isPublicIp : IpAddr → Bool
  | .v4 ip => isPublicV4 ip
  | .v6 ip => isPublicV6 ip

/-! ## §2 Publicly routable addresses -/

/-- An address as a number. -/
def Ipv4Addr.value (ip : Ipv4Addr) : ℕ :=
  Block.number 8 [ip.o0.toNat, ip.o1.toNat, ip.o2.toNat, ip.o3.toNat]

/-- The first half of an address as a number. -/
def Ipv6Addr.network (ip : Ipv6Addr) : ℕ :=
  Block.number 16 [ip.s0.toNat, ip.s1.toNat, ip.s2.toNat, ip.s3.toNat]

/-- The block of the addresses whose first `len` bits are those of these octets. -/
def cidr4 (o0 o1 o2 o3 len : ℕ) : Block := ⟨Block.number 8 [o0, o1, o2, o3], 32 - len⟩

/-- The block of the addresses whose first `len` bits, at most half of them, are those of these
segments. -/
def cidr6 (s0 s1 s2 s3 len : ℕ) : Block := ⟨Block.number 16 [s0, s1, s2, s3], 64 - len⟩

/-- The blocks of IPv4 that are not publicly routable. -/
def setAside4 : List Block :=
  [cidr4 0 0 0 0 8,       -- "this network"
    cidr4 10 0 0 0 8,     -- private
    cidr4 100 64 0 0 10,  -- carrier-grade NAT
    cidr4 127 0 0 0 8,    -- loopback
    cidr4 169 254 0 0 16, -- link-local
    cidr4 172 16 0 0 12,  -- private
    cidr4 192 0 0 0 24,   -- protocol assignments
    cidr4 192 0 2 0 24,   -- documentation
    cidr4 192 168 0 0 16, -- private
    cidr4 198 18 0 0 15,  -- benchmarking
    cidr4 198 51 100 0 24, -- documentation
    cidr4 203 0 113 0 24, -- documentation
    cidr4 224 0 0 0 4,    -- multicast
    cidr4 240 0 0 0 4]    -- reserved, and broadcast

def Routable4 (ip : Ipv4Addr) : Prop := ∀ b ∈ setAside4, ¬ b.covers ip.value

instance (ip : Ipv4Addr) : Decidable (Routable4 ip) := inferInstanceAs (Decidable (∀ _ ∈ _, _))

/-- The blocks of IPv6 that the tests of `is_public_v6` name. -/
def tested6 : List Block :=
  [cidr6 0xff00 0 0 0 8,      -- multicast
    cidr6 0xfc00 0 0 0 7,     -- unique-local
    cidr6 0xfe80 0 0 0 10,    -- link-local
    cidr6 0x2001 0xdb8 0 0 32] -- documentation

/-- Those they do not. What is routable lies in 2000::/3. -/
def untested6 : List Block :=
  [cidr6 0 0 0 0 3,           -- reserved, with discard and translation within a network
    cidr6 0x2001 0 0 0 23,    -- protocol assignments: Teredo, benchmarking, ORCHID
    cidr6 0x3fff 0 0 0 20,    -- documentation
    cidr6 0x4000 0 0 0 2,     -- reserved, with segment routing
    cidr6 0x8000 0 0 0 1]     -- reserved, with site-local

/-- The blocks of IPv6 that are not publicly routable, whatever they embed. -/
def setAside6 : List Block := tested6 ++ untested6

/-- The IPv4 address that an IPv6 address embeds or translates to. -/
def embedded (ip : Ipv6Addr) : Option Ipv4Addr :=
  if ip.s0 = 0 ∧ ip.s1 = 0 ∧ ip.s2 = 0 ∧ ip.s3 = 0 ∧ ip.s4 = 0 ∧ ip.s5 = 0xffff then
    some (.ofSegments ip.s6 ip.s7) -- mapped, ::ffff:0:0/96
  else if ip.s0 = 0 ∧ ip.s1 = 0 ∧ ip.s2 = 0 ∧ ip.s3 = 0 ∧ ip.s4 = 0 ∧ ip.s5 = 0 then
    some (.ofSegments ip.s6 ip.s7) -- compatible, ::/96
  else if ip.s0 = 0x64 ∧ ip.s1 = 0xff9b ∧ ip.s2 = 0 ∧ ip.s3 = 0 ∧ ip.s4 = 0 ∧ ip.s5 = 0 then
    some (.ofSegments ip.s6 ip.s7) -- NAT64, 64:ff9b::/96
  else if ip.s0 = 0x2002 then some (.ofSegments ip.s1 ip.s2) -- 6to4, 2002::/16
  else none

def Routable6 (ip : Ipv6Addr) : Prop :=
  match embedded ip with
  | some v4 => Routable4 v4
  | none => ∀ b ∈ setAside6, ¬ b.covers ip.network

/-- A publicly routable address; one that embeds an IPv4 address is judged by that. -/
def Routable : IpAddr → Prop
  | .v4 ip => Routable4 ip
  | .v6 ip => Routable6 ip

/-- The addresses no test sees: those that are compatible with, or translate to, an IPv4 address
that is not publicly routable, and those of the blocks that are not tested for. -/
def Overlooked : IpAddr → Prop
  | .v4 _ => False
  | .v6 ip => ip.toIpv4Mapped = none ∧ ip.isLoopback = false ∧ ip.isUnspecified = false ∧
      match embedded ip with
      | some v4 => ¬ Routable4 v4
      | none => (∃ b ∈ untested6, b.covers ip.network) ∧ ∀ b ∈ tested6, ¬ b.covers ip.network

/-! ## §3 The tests and the blocks -/

theorem covers_exact {v x : ℕ} : (⟨v, 0⟩ : Block).covers x ↔ x = v := by simp [Block.covers]

section Digits

variable {k a b c d : ℕ} (digits : ∀ e ∈ [a, b, c, d], e < 2 ^ k)

include digits

/-- A block within the first of four digits. -/
theorem covers_first {part : Block} (base_lt : part.base < 2 ^ k) (free_le : part.free ≤ k) :
    (Block.prefixed k [] part 3).covers (Block.number k [a, b, c, d]) ↔ part.covers a := by
  have block := Block.covers_prefixed [] [] part rfl (by simp) base_lt free_le digits
  exact block.trans (by simp)

/-- One within the second, and so on. -/
theorem covers_second {x : ℕ} {part : Block} (x_lt : x < 2 ^ k) (base_lt : part.base < 2 ^ k)
    (free_le : part.free ≤ k) :
    (Block.prefixed k [x] part 2).covers (Block.number k [a, b, c, d]) ↔
      a = x ∧ part.covers b := by
  have block := Block.covers_prefixed [a] [x] part rfl (by simpa using x_lt) base_lt free_le digits
  exact block.trans (by simp)

theorem covers_third {x y z : ℕ} (x_lt : x < 2 ^ k) (y_lt : y < 2 ^ k) (z_lt : z < 2 ^ k) :
    (Block.prefixed k [x, y] ⟨z, 0⟩ 1).covers (Block.number k [a, b, c, d]) ↔
      a = x ∧ b = y ∧ c = z := by
  have block := Block.covers_prefixed [a, b] [x, y] ⟨z, 0⟩ rfl
    (by simpa using ⟨x_lt, y_lt⟩) z_lt (Nat.zero_le _) digits
  exact block.trans (by simp [covers_exact, and_assoc])

end Digits

section Octets

variable (ip : Ipv4Addr)

theorem octets_lt : ∀ d ∈ [ip.o0.toNat, ip.o1.toNat, ip.o2.toNat, ip.o3.toNat], d < 2 ^ 8 := by
  simp only [List.forall_mem_cons, List.not_mem_nil, IsEmpty.forall_iff, implies_true, and_true]
  exact ⟨ip.o0.toNat_lt, ip.o1.toNat_lt, ip.o2.toNat_lt, ip.o3.toNat_lt⟩

/-- What the blocks of IPv4 ask of the octets. -/
theorem routable4_iff : Routable4 ip ↔
    let a := ip.o0.toNat
    let b := ip.o1.toNat
    let c := ip.o2.toNat
    a ≠ 0 ∧ a ≠ 10 ∧ ¬ (a = 100 ∧ 64 ≤ b ∧ b < 128) ∧ a ≠ 127 ∧ ¬ (a = 169 ∧ b = 254) ∧
      ¬ (a = 172 ∧ 16 ≤ b ∧ b < 32) ∧ ¬ (a = 192 ∧ b = 0 ∧ c = 0) ∧
      ¬ (a = 192 ∧ b = 0 ∧ c = 2) ∧ ¬ (a = 192 ∧ b = 168) ∧ ¬ (a = 198 ∧ 18 ≤ b ∧ b < 20) ∧
      ¬ (a = 198 ∧ b = 51 ∧ c = 100) ∧ ¬ (a = 203 ∧ b = 0 ∧ c = 113) ∧
      ¬ (224 ≤ a ∧ a < 240) ∧ ¬ (240 ≤ a ∧ a < 256) := by
  have one : ∀ v < 2 ^ 8, ((Block.prefixed 8 [] ⟨v, 0⟩ 3).covers ip.value ↔ ip.o0.toNat = v) :=
    fun v lt => (covers_first (octets_lt ip) lt (Nat.zero_le _)).trans covers_exact
  have two : ∀ x < 2 ^ 8, ∀ y < 2 ^ 8, ((Block.prefixed 8 [x] ⟨y, 0⟩ 2).covers ip.value ↔
      ip.o0.toNat = x ∧ ip.o1.toNat = y) := fun x x_lt y y_lt =>
    (covers_second (octets_lt ip) x_lt y_lt (Nat.zero_le _)).trans (and_congr_right' covers_exact)
  have three : ∀ x < 2 ^ 8, ∀ y < 2 ^ 8, ∀ z < 2 ^ 8, ((Block.prefixed 8 [x, y] ⟨z, 0⟩ 1).covers
      ip.value ↔ ip.o0.toNat = x ∧ ip.o1.toNat = y ∧ ip.o2.toNat = z) :=
    fun x x_lt y y_lt z z_lt => covers_third (octets_lt ip) x_lt y_lt z_lt
  -- a range within the first octet, or the second
  have first : ∀ r : Block, r.Aligned → r.base < 2 ^ 8 → r.free ≤ 8 →
      ((Block.prefixed 8 [] r 3).covers ip.value ↔
        r.base ≤ ip.o0.toNat ∧ ip.o0.toNat < r.base + 2 ^ r.free) := fun r aligned lt le =>
    (covers_first (octets_lt ip) lt le).trans (Block.covers_iff aligned _)
  have second : ∀ x < 2 ^ 8, ∀ r : Block, r.Aligned → r.base < 2 ^ 8 → r.free ≤ 8 →
      ((Block.prefixed 8 [x] r 2).covers ip.value ↔ ip.o0.toNat = x ∧
        r.base ≤ ip.o1.toNat ∧ ip.o1.toNat < r.base + 2 ^ r.free) := fun x x_lt r aligned lt le =>
    (covers_second (octets_lt ip) x_lt lt le).trans (and_congr_right' (Block.covers_iff aligned _))
  simp only [Routable4, setAside4, List.forall_mem_cons, List.not_mem_nil, IsEmpty.forall_iff,
    implies_true, and_true]
  have mapped :=
    and_congr (not_congr (one 0 (by decide))) <| and_congr (not_congr (one 10 (by decide))) <|
    and_congr (not_congr (second 100 (by decide) ⟨64, 6⟩ rfl (by decide) (by decide))) <|
    and_congr (not_congr (one 127 (by decide))) <|
    and_congr (not_congr (two 169 (by decide) 254 (by decide))) <|
    and_congr (not_congr (second 172 (by decide) ⟨16, 4⟩ rfl (by decide) (by decide))) <|
    and_congr (not_congr (three 192 (by decide) 0 (by decide) 0 (by decide))) <|
    and_congr (not_congr (three 192 (by decide) 0 (by decide) 2 (by decide))) <|
    and_congr (not_congr (two 192 (by decide) 168 (by decide))) <|
    and_congr (not_congr (second 198 (by decide) ⟨18, 1⟩ rfl (by decide) (by decide))) <|
    and_congr (not_congr (three 198 (by decide) 51 (by decide) 100 (by decide))) <|
    and_congr (not_congr (three 203 (by decide) 0 (by decide) 113 (by decide))) <|
    and_congr (not_congr (first ⟨224, 4⟩ rfl (by decide) (by decide)))
      (not_congr (first ⟨240, 4⟩ rfl (by decide) (by decide)))
  exact mapped

theorem carrier_iff (o : UInt8) : (o &&& 0xc0).toNat = 0x40 ↔ 64 ≤ o.toNat ∧ o.toNat < 128 := by
  have mask : (o &&& 0xc0).toNat = 0x40 ↔ (⟨0x40, 6⟩ : Block).covers o.toNat := by
    rw [← Block.masked_eq_iff (w := 8) (by decide) o.toNat_lt (by decide), UInt8.toNat_and]
    rfl
  rw [mask, Block.covers_iff (by decide)]
  rfl

/-- The tests for IPv4 are the blocks that are set aside. -/
theorem isPublicV4_iff : isPublicV4 ip = true ↔ Routable4 ip := by
  rw [routable4_iff]
  obtain ⟨a, b, c, d⟩ := ip
  have ha := a.toNat_lt
  simp only [isPublicV4, Ipv4Addr.isLoopback, Ipv4Addr.isPrivate, Ipv4Addr.isLinkLocal,
    Ipv4Addr.isUnspecified, Ipv4Addr.isBroadcast, Ipv4Addr.isDocumentation, Ipv4Addr.isMulticast,
    Bool.or_eq_true, Bool.and_eq_true, decide_eq_true_eq, carrier_iff, Ipv4Addr.mk.injEq,
    ← UInt8.toNat_inj, UInt8.le_iff_toNat_le, UInt8.reduceToNat, Bool.ite_eq_true_distrib,
    Bool.false_eq_true, if_false_left, and_true]
  generalize a.toNat = x at ha
  generalize b.toNat = y
  generalize c.toNat = z
  -- the first octet decides which of the blocks can be meant
  by_cases special : x ∈ [0, 10, 100, 127, 169, 172, 192, 198, 203]
  · simp only [List.mem_cons, List.not_mem_nil, or_false] at special
    rcases special with rfl | rfl | rfl | rfl | rfl | rfl | rfl | rfl | rfl <;>
      simp <;> omega
  · simp only [List.mem_cons, List.not_mem_nil, or_false, not_or] at special
    simp only [special]
    simp
    omega

end Octets

section Segments

variable (ip : Ipv6Addr)

theorem segments_lt : ∀ d ∈ [ip.s0.toNat, ip.s1.toNat, ip.s2.toNat, ip.s3.toNat], d < 2 ^ 16 := by
  simp only [List.forall_mem_cons, List.not_mem_nil, IsEmpty.forall_iff, implies_true, and_true]
  exact ⟨ip.s0.toNat_lt, ip.s1.toNat_lt, ip.s2.toNat_lt, ip.s3.toNat_lt⟩

/-- A test of a segment under a mask of its high bits. -/
theorem segment_masked {s mask base : UInt16} (free : ℕ) (free_le : free ≤ 16)
    (high : mask.toNat = 2 ^ 16 - 2 ^ free) (aligned : (⟨base.toNat, free⟩ : Block).Aligned) :
    (s &&& mask) = base ↔ (⟨base.toNat, free⟩ : Block).covers s.toNat := by
  rw [← Block.masked_eq_iff (w := 16) aligned s.toNat_lt free_le, ← UInt16.toNat_inj,
    UInt16.toNat_and, high]

theorem isMulticast_iff : ip.isMulticast = true ↔ (cidr6 0xff00 0 0 0 8).covers ip.network := by
  rw [Ipv6Addr.isMulticast, decide_eq_true_iff]
  exact (segment_masked 8 (by decide) (by decide) (by decide)).trans
    (covers_first (segments_lt ip) (by decide) (by decide)).symm

theorem uniqueLocal_iff : (ip.s0 &&& 0xfe00) = 0xfc00 ↔
    (cidr6 0xfc00 0 0 0 7).covers ip.network := by
  exact (segment_masked 9 (by decide) (by decide) (by decide)).trans
    (covers_first (segments_lt ip) (by decide) (by decide)).symm

theorem linkLocal_iff : (ip.s0 &&& 0xffc0) = 0xfe80 ↔
    (cidr6 0xfe80 0 0 0 10).covers ip.network := by
  exact (segment_masked 6 (by decide) (by decide) (by decide)).trans
    (covers_first (segments_lt ip) (by decide) (by decide)).symm

theorem documentation_iff : (ip.s0 = 0x2001 ∧ ip.s1 = 0x0db8) ↔
    (cidr6 0x2001 0xdb8 0 0 32).covers ip.network := by
  have block : (Block.prefixed 16 [0x2001] ⟨0xdb8, 0⟩ 2).covers ip.network ↔
      ip.s0.toNat = 0x2001 ∧ (⟨0xdb8, 0⟩ : Block).covers ip.s1.toNat :=
    covers_second (segments_lt ip) (by decide) (by decide) (by decide)
  rw [covers_exact] at block
  rw [← UInt16.toNat_inj, ← UInt16.toNat_inj]
  exact block.symm

/-- The tests for IPv6 are the special addresses and the tested blocks, where no IPv4 address is
mapped. -/
theorem isPublicV6_of_unmapped (unmapped : ip.toIpv4Mapped = none) : isPublicV6 ip = true ↔
    ip.isLoopback = false ∧ ip.isUnspecified = false ∧ ∀ b ∈ tested6, ¬ b.covers ip.network := by
  simp only [tested6, List.forall_mem_cons, List.not_mem_nil, IsEmpty.forall_iff, implies_true,
    and_true, ← isMulticast_iff, ← uniqueLocal_iff, ← linkLocal_iff, ← documentation_iff]
  simp only [isPublicV6, unmapped]
  cases ip.isLoopback <;> cases ip.isUnspecified <;> cases ip.isMulticast <;>
    by_cases named : ip.s0 = 0x2001 <;> simp [named]

/-- The tested blocks begin with these segments. -/
theorem clear_of_tested6 (low : ip.s0.toNat < 0xfc00)
    (other : ¬ (ip.s0.toNat = 0x2001 ∧ ip.s1.toNat = 0xdb8)) :
    ∀ b ∈ tested6, ¬ b.covers ip.network := by
  have first : ∀ r : Block, r.Aligned → r.base < 2 ^ 16 → r.free ≤ 16 →
      ((Block.prefixed 16 [] r 3).covers ip.network ↔
        r.base ≤ ip.s0.toNat ∧ ip.s0.toNat < r.base + 2 ^ r.free) := fun r aligned lt le =>
    (covers_first (segments_lt ip) lt le).trans (Block.covers_iff aligned _)
  have multicast := first ⟨0xff00, 8⟩ rfl (by decide) (by decide)
  have uniqueLocal := first ⟨0xfc00, 9⟩ rfl (by decide) (by decide)
  have linkLocal := first ⟨0xfe80, 6⟩ rfl (by decide) (by decide)
  simp only [tested6, List.forall_mem_cons, List.not_mem_nil, IsEmpty.forall_iff, implies_true,
    and_true]
  refine ⟨fun covers => ?_, fun covers => ?_, fun covers => ?_, fun covers => ?_⟩
  · have range := multicast.1 covers
    dsimp only at range
    omega
  · have range := uniqueLocal.1 covers
    dsimp only at range
    omega
  · have range := linkLocal.1 covers
    dsimp only at range
    omega
  · have named := (documentation_iff ip).2 covers
    exact other ⟨congrArg UInt16.toNat named.1, congrArg UInt16.toNat named.2⟩

/-- An address that embeds an IPv4 address is in no tested block. -/
theorem clear_of_embedded {v4 : Ipv4Addr} (embeds : embedded ip = some v4) :
    ∀ b ∈ tested6, ¬ b.covers ip.network := by
  have first : ip.s0 = 0 ∨ ip.s0 = 0x64 ∨ ip.s0 = 0x2002 := by
    unfold embedded at embeds
    split at embeds
    · next mapped => exact .inl mapped.1
    split at embeds
    · next compatible => exact .inl compatible.1
    split at embeds
    · next nat64 => exact .inr (.inl nat64.1)
    split at embeds
    · next six_to_four => exact .inr (.inr six_to_four)
    · cases embeds
  apply clear_of_tested6
  · rcases first with eq | eq | eq <;> rw [eq] <;> decide
  · rcases first with eq | eq | eq <;> rw [eq] <;> exact fun both => absurd both.1 (by decide)

/-- What holds neither of the loopback nor of the unspecified address tells them apart. -/
theorem not_special {P : Ipv6Addr → Prop} (holds : P ip) (loopback : ¬ P ⟨0, 0, 0, 0, 0, 0, 0, 1⟩)
    (unspecified : ¬ P ⟨0, 0, 0, 0, 0, 0, 0, 0⟩) :
    ip.isLoopback = false ∧ ip.isUnspecified = false := by
  constructor
  · apply decide_eq_false
    intro eq
    exact loopback (eq ▸ holds)
  · apply decide_eq_false
    intro eq
    exact unspecified (eq ▸ holds)

/-- The unspecified address and the loopback embed addresses of "this network". -/
theorem not_routable_of_special {v4 : Ipv4Addr} (embeds : embedded ip = some v4)
    (routable : Routable4 v4) : ip.isLoopback = false ∧ ip.isUnspecified = false := by
  have network : ∀ v, v.o0 = 0 → ¬ Routable4 v := by
    intro v zero always
    rw [routable4_iff, zero] at always
    exact always.1 rfl
  apply not_special ip (P := fun ip => embedded ip = some v4) embeds
  · intro loopback
    cases loopback
    exact network _ rfl routable
  · intro unspecified
    cases unspecified
    exact network _ rfl routable

/-- A mapped address is judged by its IPv4 address. -/
theorem isPublicV6_of_mapped {v4 : Ipv4Addr} (mapped : ip.toIpv4Mapped = some v4) :
    embedded ip = some v4 ∧ isPublicV6 ip = isPublicV4 v4 := by
  have shape : (ip.s0 = 0 ∧ ip.s1 = 0 ∧ ip.s2 = 0 ∧ ip.s3 = 0 ∧ ip.s4 = 0 ∧ ip.s5 = 0xffff) ∧
      Ipv4Addr.ofSegments ip.s6 ip.s7 = v4 := by
    unfold Ipv6Addr.toIpv4Mapped at mapped
    split at mapped
    · next zeros => exact ⟨zeros, Option.some.inj mapped⟩
    · cases mapped
  obtain ⟨zeros, same⟩ := shape
  have embeds : embedded ip = some v4 := by rw [embedded, if_pos zeros, same]
  have special : ip.isLoopback = false ∧ ip.isUnspecified = false :=
    not_special ip (P := fun ip => ip.s5 = 0xffff) zeros.2.2.2.2.2 (by decide) (by decide)
  have multicast : ip.isMulticast = false := by
    rw [Ipv6Addr.isMulticast, zeros.1]
    rfl
  refine ⟨embeds, ?_⟩
  simp only [isPublicV6, special, multicast, mapped, Bool.or_self, Bool.false_eq_true, if_false]

/-- The tests for IPv6 accept what is publicly routable, and what they overlook. -/
theorem isPublicV6_iff : isPublicV6 ip = true ↔ Routable6 ip ∨ Overlooked (.v6 ip) := by
  cases mapped : ip.toIpv4Mapped with
  -- a mapped address is tested as the IPv4 address it carries
  | some v4 =>
    obtain ⟨embeds, same⟩ := isPublicV6_of_mapped ip mapped
    simp only [same, isPublicV4_iff, Routable6, embeds, Overlooked, mapped, reduceCtorEq, false_and,
      or_false]
  | none =>
    rw [isPublicV6_of_unmapped ip mapped, Routable6, Overlooked]
    cases embeds : embedded ip with
    | some v4 =>
      simp only [mapped, true_and]
      constructor
      · rintro ⟨loopback, unspecified, -⟩
        by_cases routable : Routable4 v4
        · exact .inl routable
        · exact .inr ⟨loopback, unspecified, routable⟩
      · rintro (routable | ⟨loopback, unspecified, -⟩)
        · obtain ⟨loopback, unspecified⟩ := not_routable_of_special ip embeds routable
          exact ⟨loopback, unspecified, clear_of_embedded ip embeds⟩
        · exact ⟨loopback, unspecified, clear_of_embedded ip embeds⟩
    | none =>
      simp only [mapped, true_and, setAside6, List.forall_mem_append]
      -- nothing embedded: the blocks decide, tested or not
      have plain : ip.isLoopback = false ∧ ip.isUnspecified = false :=
        not_special ip (P := fun ip => embedded ip = none) embeds (by decide) (by decide)
      constructor
      · rintro ⟨-, -, clear⟩
        by_cases untested : ∃ b ∈ untested6, b.covers ip.network
        · exact .inr ⟨plain.1, plain.2, untested, clear⟩
        · exact .inl ⟨clear, fun b mem covers => untested ⟨b, mem, covers⟩⟩
      · rintro (⟨clear, -⟩ | ⟨-, -, -, clear⟩)
        · exact ⟨plain.1, plain.2, clear⟩
        · exact ⟨plain.1, plain.2, clear⟩

end Segments

/-- The tests of the guard accept what is publicly routable, and what they overlook. -/
theorem isPublicIp_iff (ip : IpAddr) : isPublicIp ip = true ↔ Routable ip ∨ Overlooked ip := by
  cases ip with
  | v4 ip => simp [isPublicIp, isPublicV4_iff, Routable, Overlooked]
  | v6 ip => exact isPublicV6_iff ip

/-- Nothing is both. -/
theorem not_routable_of_overlooked {ip : IpAddr} (overlooked : Overlooked ip) : ¬ Routable ip := by
  cases ip with
  | v4 ip => cases overlooked
  | v6 ip =>
    obtain ⟨-, -, -, reason⟩ := overlooked
    rw [Routable, Routable6]
    cases embeds : embedded ip with
    | some v4 =>
      rw [embeds] at reason
      exact reason
    | none =>
      rw [embeds] at reason
      obtain ⟨⟨b, mem, covers⟩, -⟩ := reason
      intro clear
      exact clear b (List.mem_append.2 (.inr mem)) covers

/-! ## §4 The guard and the sender -/

inductive EndpointError where
  | invalid (reason : String)
  | unresolvable (reason : String)
  deriving DecidableEq

inductive PushError where
  | gone
  | transient (reason : String)
  | permanent (reason : String)
  deriving DecidableEq

inductive Method where
  | get
  | post
  deriving DecidableEq

structure Response where
  status : ℕ
  location : Option String
  text : String
  deriving DecidableEq

/-- What a send does outside the process: the guard's lookup, and the HTTP client's own lookups,
connections and requests. A connection comes about with one of some addresses. -/
inductive Act where
  | lookupHost (host : String) (port : ℕ)
  | resolve (host : String)
  | connect (addrs : List IpAddr)
  | request (method : Method) (ip : IpAddr) (url : String)

abbrev Act.Reply : Act → Type
  | .lookupHost _ _ => Except String (List IpAddr)
  | .resolve _ => Except String (List IpAddr)
  | .connect addrs => Except String (Fin addrs.length)
  | .request _ _ _ => Except String Response

abbrev Net (ε α : Type) := Program Act Act.Reply ε α

/-- Subscriptions as they are stored, and a message. -/
structure Subscription where
  endpoint : String
  p256dh_b64 : String
  auth_b64 : String

/-- The parts that are not written here: URLs, the texts of addresses, and the decoding and
sealing of messages. -/
structure Parts (Url Bytes : Type) where
  parse : String → Except String Url
  scheme : Url → String
  hostStr : Url → Option String
  portOrKnownDefault : Url → Option ℕ
  /-- Where a `Location` leads from a URL. -/
  join : String → String → Option String
  parseIp : String → Option IpAddr
  decode : String → Except String Bytes
  encrypt : Bytes → Bytes → Bytes → Except String Bytes
  authorization : String → Except String String

variable {Url Bytes : Type} (parts : Parts Url Bytes)

/-- `host_str()` brackets IPv6 literals. -/
def unbracketed (host : String) : String :=
  match host.toList with
  | '[' :: rest =>
    if rest.getLast? = some ']' then String.ofList rest.dropLast else host
  | _ => host

/-- Where a URL leads: a literal address, or a host by its name. -/
inductive Target where
  | literal (ip : IpAddr)
  | host (host : String) (port : ℕ)

/-- Whom the guard checks. -/
def target (endpoint : String) : Except EndpointError Target := do
  let url ← (parts.parse endpoint).mapError fun e => .invalid s!"endpoint is not a URL: {e}"
  if parts.scheme url ≠ "https" then .error (.invalid "endpoint must be https")
  match parts.hostStr url with
  | none => .error (.invalid "endpoint has no host")
  | some host =>
    match parts.parseIp (unbracketed host) with
    | some ip => .ok (.literal ip)
    | none => .ok (.host (unbracketed host) ((parts.portOrKnownDefault url).getD 443))

/-- The loop over the addresses of a host. -/
def judge (sawAny : Bool) : List IpAddr → Except EndpointError Unit
  | [] => if sawAny then .ok () else .error (.unresolvable "endpoint host did not resolve")
  | addr :: rest =>
    if isPublicIp addr then judge true rest
    else .error (.invalid "endpoint resolves to a non-public address")

/-- The verdict on a target, given what the lookup of a host says. -/
def verdict (answer : Except String (List IpAddr)) : Target → Except EndpointError Unit
  | .literal ip =>
    if isPublicIp ip then .ok () else .error (.invalid "endpoint resolves to a non-public address")
  | .host _ _ => do
    let addrs ← answer.mapError fun e => .unresolvable s!"could not resolve endpoint host: {e}"
    judge false addrs

def ofExcept {ε α : Type} : Except ε α → Net ε α
  | .ok a => done a
  | .error e => fail e

def assertEndpointPublic (endpoint : String) : Net EndpointError Unit :=
  match target parts endpoint with
  | .error e => fail e
  | .ok (.literal ip) => ofExcept (verdict (.ok []) (.literal ip))
  | .ok (.host host port) => act (.lookupHost host port) fun answer =>
    ofExcept (verdict answer (.host host port))

/-- The message as it is sent. -/
def prepare (sub : Subscription) (payload : Bytes) : Except PushError (String × Bytes) := do
  let uaPublic ← (parts.decode sub.p256dh_b64).mapError fun e =>
    .permanent s!"stored p256dh not base64url: {e}"
  let authSecret ← (parts.decode sub.auth_b64).mapError fun e =>
    .permanent s!"stored auth not base64url: {e}"
  let body ← (parts.encrypt uaPublic authSecret payload).mapError .permanent
  let authHeader ← (parts.authorization sub.endpoint).mapError .permanent
  .ok (authHeader, body)

def statusOutcome (resp : Response) : Except PushError Unit :=
  let status := resp.status
  if 200 ≤ status ∧ status ≤ 202 then .ok ()
  else if status = 404 ∨ status = 410 then .error .gone
  else if status = 429 ∨ (500 ≤ status ∧ status ≤ 599) then
    .error (.transient s!"push service returned {status}")
  else
    let excerpt := String.ofList (resp.text.toList.take 200)
    .error (.permanent s!"push service returned {status}: {excerpt}")

/-- Whom the HTTP client asks: it takes any scheme. -/
def destination (url : String) : Except String Target := do
  let parsed ← parts.parse url
  match parts.hostStr parsed with
  | none => .error "no host"
  | some host =>
    match parts.parseIp (unbracketed host) with
    | some ip => .ok (.literal ip)
    | none => .ok (.host (unbracketed host) ((parts.portOrKnownDefault parsed).getD 443))

/-- The client's own lookup. -/
def lookUp : Target → Net String (List IpAddr)
  | .literal ip => done [ip]
  | .host host _ => act (.resolve host) ofExcept

/-- One request, to the address that takes the connection. -/
def ask (method : Method) (url : String) (addrs : List IpAddr) : Net String Response :=
  act (.connect addrs) fun answer => (ofExcept answer).bind fun i =>
    act (.request method addrs[i] url) ofExcept

/-- The request a response asks for: after a 307 or 308 the same again elsewhere, after the other
redirects a GET. -/
def redirect (method : Method) (url : String) (resp : Response) : Option (Method × String) :=
  (resp.location.bind (parts.join url)).bind fun location =>
    if resp.status = 307 ∨ resp.status = 308 then some (method, location)
    else if resp.status = 301 ∨ resp.status = 302 ∨ resp.status = 303 then some (.get, location)
    else none

/-- What the HTTP client does with a request: it looks the host up, connects to one of its
addresses, and follows redirects, as long as there are not too many. -/
def execute : ℕ → Method → String → Net String Response
  | 0, _, _ => fail "too many redirects"
  | n + 1, method, url => do
    let dest ← ofExcept (destination parts url)
    let addrs ← lookUp dest
    let resp ← ask method url addrs
    match redirect parts method url resp with
    | none => done resp
    | some (method', location) => execute n method' location

/-- A request and the ten redirects that are followed. -/
def maxRequests : ℕ := 11

/-- The part of `send` behind the guard. -/
def deliver (sub : Subscription) (payload : Bytes) : Net PushError Unit :=
  match prepare parts sub payload with
  | .error e => fail e
  | .ok _ =>
    (execute parts maxRequests .post sub.endpoint).attempt.bind fun
      | .error e => fail (.transient s!"push POST failed: {e}")
      | .ok resp => ofExcept (statusOutcome resp)

def send (sub : Subscription) (payload : Bytes) : Net PushError Unit :=
  (assertEndpointPublic parts sub.endpoint).attempt.bind fun
    | .ok () => deliver parts sub payload
    | .error (.invalid _) => fail .gone
    | .error (.unresolvable reason) => fail (.transient reason)

/-! ## §5 Where the message goes -/

abbrev Replies := ℕ → ∀ a : Act, a.Reply

/-- The addresses the guard judges, given what its lookup says. -/
def checked (answer : Except String (List IpAddr)) : Target → List IpAddr
  | .literal ip => [ip]
  | .host _ _ => match answer with
    | .ok addrs => addrs
    | .error _ => []

/-- What the guard's lookup says, which is the first thing a send does. -/
def answered (replies : Replies) : Target → Except String (List IpAddr)
  | .literal _ => .ok []
  | .host host port => replies 0 (.lookupHost host port)

/-- The replies that are left for the HTTP client. -/
def rest (replies : Replies) : Target → Replies
  | .literal _ => replies
  | .host _ _ => later replies

/-- The addresses a POST goes to. -/
def posted (h : History Act Act.Reply) : List IpAddr :=
  h.filterMap fun e => match e.action with
    | .request .post ip _ => some ip
    | _ => none

/-- Every POST of a send goes to a publicly routable address, and to one that was checked. -/
def Safe (sub : Subscription) (payload : Bytes) (replies : Replies) : Prop :=
  ∀ ip ∈ posted ((send parts sub payload).heard replies), Routable ip ∧
    ∃ t, target parts sub.endpoint = .ok t ∧ ip ∈ checked (answered replies t) t

/-- The replies of the client's lookup are taken. -/
def resolved (replies : Replies) : Target → Except String (List IpAddr) × Replies
  | .literal ip => (.ok [ip], replies)
  | .host host _ => (replies 0 (.resolve host), later replies)

/-- The answers and redirects the client meets with a POST keep it to `C`: of the addresses its
lookup gives, the one that takes the connection is in `C`, and so on wherever the response sends
the POST. -/
def Keeps (C : IpAddr → Prop) : ℕ → String → Replies → Prop
  | 0, _, _ => True
  | n + 1, url, replies =>
    ∀ dest, destination parts url = .ok dest →
      ∀ addrs, (resolved replies dest).1 = .ok addrs →
        ∀ i, (resolved replies dest).2 0 (.connect addrs) = .ok i → C addrs[i] ∧
          ∀ resp, (resolved replies dest).2 1 (.request .post addrs[i] url) = .ok resp →
            ∀ location, redirect parts .post url resp = some (.post, location) →
              Keeps C n location (later (later (resolved replies dest).2))

/-- Where the guard lets the message go and it can be sealed, the answers and redirects the HTTP
client meets keep it to the addresses that were checked and no test overlooks. -/
def Kept (sub : Subscription) (payload : Bytes) (replies : Replies) : Prop :=
  ∀ t, target parts sub.endpoint = .ok t → verdict (answered replies t) t = .ok () →
    (∃ sealed, prepare parts sub payload = .ok sealed) →
      Keeps parts (fun ip => ip ∈ checked (answered replies t) t ∧ ¬ Overlooked ip) maxRequests
        sub.endpoint (rest replies t)

theorem heard_ofExcept {ε α : Type} (x : Except ε α) (replies : Replies) :
    (ofExcept x).heard replies = [] := by
  cases x <;> rfl

theorem only_ofExcept {ε α : Type} {ok : Act → Prop} (x : Except ε α) :
    Only ok (ofExcept x : Net ε α) := by
  cases x <;> trivial

/-- A GET stays one. -/
theorem redirect_get {url location : String} {resp : Response} {method : Method}
    (goes : redirect parts .get url resp = some (method, location)) : method = .get := by
  unfold redirect at goes
  rw [Option.bind_eq_some_iff] at goes
  obtain ⟨there, -, goes⟩ := goes
  split at goes
  · cases goes
    rfl
  split at goes
  · cases goes
    rfl
  · cases goes

/-- A GET and what it is redirected to are no POST. -/
theorem only_execute_get (n : ℕ) (url : String) :
    Only (fun a => ∀ ip u, a ≠ .request .post ip u) (execute parts n .get url) := by
  induction n generalizing url with
  | zero => trivial
  | succ n ih =>
    refine Only.bind (only_ofExcept _) fun dest => Only.bind ?_ fun _ => Only.bind ?_ fun _ => ?_
    · cases dest with
      | literal ip => trivial
      | host host port => exact ⟨by simp, fun _ => only_ofExcept _⟩
    · refine ⟨by simp, fun _ => Only.bind (only_ofExcept _) fun i => ⟨by simp, fun _ => ?_⟩⟩
      exact only_ofExcept _
    · split
      · trivial
      · next method location goes =>
        rw [redirect_get parts goes]
        exact ih location

theorem posted_execute_get (n : ℕ) (url : String) (replies : Replies) :
    posted ((execute parts n .get url).heard replies) = [] := by
  rw [List.eq_nil_iff_forall_not_mem]
  intro ip mem
  obtain ⟨e, heard, posts⟩ := List.mem_filterMap.1 mem
  have no_post := (only_execute_get parts n url).heard replies e heard
  split at posts
  · next u same => exact no_post _ u same
  · cases posts

/-- What is posted from a hop on: its own request, and what the response leads to. -/
theorem posted_hop {C : IpAddr → Prop} {n : ℕ}
    (ih : ∀ location replies,
      (∀ ip ∈ posted ((execute parts n .post location).heard replies), C ip) ↔
        Keeps parts C n location replies) (url : String) (addrs : List IpAddr) (replies : Replies) :
    (∀ ip ∈ posted (((ask .post url addrs).bind fun resp =>
        match redirect parts .post url resp with
        | none => done resp
        | some (method', location) => execute parts n method' location).heard replies), C ip) ↔
      ∀ i, replies 0 (.connect addrs) = .ok i → C addrs[i] ∧
        ∀ resp, replies 1 (.request .post addrs[i] url) = .ok resp →
          ∀ location, redirect parts .post url resp = some (.post, location) →
            Keeps parts C n location (later (later replies)) := by
  unfold ask
  dsimp only [act_bind, heard]
  cases connected : replies 0 (.connect addrs) with
  | error e => simp [ofExcept, posted, heard]
  | ok i =>
    have asked : later replies 0 (.request .post addrs[i] url) =
      replies 1 (.request .post addrs[i] url) := rfl
    dsimp only [ofExcept, done_bind, act_bind, heard]
    rw [asked]
    -- the request of this hop, and then what it is redirected to
    have first : ∀ h, posted (⟨.connect addrs, .ok i⟩ ::
        ⟨.request .post addrs[i] url, replies 1 (.request .post addrs[i] url)⟩ :: h) =
        addrs[i] :: posted h := fun h => rfl
    rw [first, List.forall_mem_cons]
    simp only [Except.ok.injEq, forall_eq']
    refine and_congr_right fun _ => ?_
    cases replied : replies 1 (.request .post addrs[i] url) with
    | error e => simp [posted, heard]
    | ok resp =>
      simp only [done_bind, Except.ok.injEq, forall_eq']
      cases goes : redirect parts .post url resp with
      | none => simp [posted, heard]
      | some next =>
        obtain ⟨method, location⟩ := next
        cases method with
        | get =>
          dsimp only
          rw [posted_execute_get]
          simp
        | post =>
          dsimp only
          rw [ih]
          simp

/-- What a client posts to is what the answers and redirects lead it to, by induction on the
requests that are left. -/
theorem posted_execute {C : IpAddr → Prop} (n : ℕ) (url : String) (replies : Replies) :
    (∀ ip ∈ posted ((execute parts n .post url).heard replies), C ip) ↔
      Keeps parts C n url replies := by
  induction n generalizing url replies with
  | zero => exact ⟨fun _ => trivial, fun _ ip mem => by cases mem⟩
  | succ n ih =>
    unfold execute Keeps
    cases destination parts url with
    | error e => simp [ofExcept, posted, heard]
    | ok dest =>
      simp only [Except.ok.injEq, forall_eq']
      cases dest with
      | literal ip =>
        simp only [resolved, Except.ok.injEq, forall_eq']
        exact posted_hop parts ih url [ip] replies
      | host host port =>
        -- the client's lookup is no POST
        have silent : ∀ h, posted (⟨.resolve host, replies 0 (.resolve host)⟩ :: h) = posted h :=
          fun h => rfl
        dsimp only [ofExcept, bind_eq, done_bind, lookUp, act_bind, heard, resolved]
        rw [silent]
        cases replies 0 (.resolve host) with
        | error e => simp [posted, heard]
        | ok addrs =>
          simp only [Except.ok.injEq, forall_eq']
          exact posted_hop parts ih url addrs (later replies)

/-- Behind the guard, the requests are those of the HTTP client. -/
theorem heard_deliver {sub : Subscription} {payload : Bytes} {message : String × Bytes}
    (prepared : prepare parts sub payload = .ok message) (replies : Replies) :
    (deliver parts sub payload).heard replies =
      (execute parts maxRequests .post sub.endpoint).heard replies := by
  unfold deliver
  rw [prepared]
  dsimp only
  rw [heard_bind_silent, heard_attempt]
  intro result replies
  cases result with
  | error e => rfl
  | ok resp => exact heard_ofExcept _ _

/-- A send posts what it delivers, and delivers when the guard lets it. -/
theorem posted_send {sub : Subscription} {payload : Bytes} {t : Target}
    (parsed : target parts sub.endpoint = .ok t) (replies : Replies) :
    posted ((send parts sub payload).heard replies) =
      match verdict (answered replies t) t with
      | .ok () => posted ((deliver parts sub payload).heard (rest replies t))
      | .error _ => [] := by
  unfold send assertEndpointPublic
  rw [parsed]
  cases t with
  | literal ip =>
    dsimp only [answered, rest]
    cases judged : verdict (.ok []) (.literal ip) with
    | ok u => rfl
    | error e => cases e <;> rfl
  | host host port =>
    -- the lookup of the guard is no POST
    have silent : ∀ h, posted (⟨.lookupHost host port, replies 0 (.lookupHost host port)⟩ :: h) =
        posted h := fun h => rfl
    dsimp only [attempt, act_bind, heard, answered, rest]
    rw [silent]
    cases judged : verdict (replies 0 (.lookupHost host port)) (.host host port) with
    | ok u => rfl
    | error e => cases e <;> rfl

/-- A host that passes has public addresses only. -/
theorem judge_ok {sawAny : Bool} {addrs : List IpAddr} (passed : judge sawAny addrs = .ok ()) :
    ∀ ip ∈ addrs, isPublicIp ip = true := by
  induction addrs generalizing sawAny with
  | nil =>
    intro ip mem
    cases mem
  | cons addr rest ih =>
    rw [judge] at passed
    by_cases good : isPublicIp addr = true
    · rw [if_pos good] at passed
      exact List.forall_mem_cons.2 ⟨good, ih passed⟩
    · rw [if_neg good] at passed
      cases passed

theorem verdict_ok {answer : Except String (List IpAddr)} {t : Target}
    (passed : verdict answer t = .ok ()) : ∀ ip ∈ checked answer t, isPublicIp ip = true := by
  cases t with
  | literal ip =>
    by_cases good : isPublicIp ip = true
    · exact List.forall_mem_singleton.2 good
    · rw [verdict, if_neg good] at passed
      cases passed
  | host host port =>
    cases answer with
    | error e => cases passed
    | ok addrs => exact judge_ok passed

/-- A send is safe exactly when the answers and redirects keep the HTTP client to what was
checked and no test overlooks. -/
theorem safe_iff (sub : Subscription) (payload : Bytes) (replies : Replies) :
    Safe parts sub payload replies ↔ Kept parts sub payload replies := by
  constructor
  -- one send is enough to see where its POST goes
  · intro safe t parsed passed ⟨message, prepared⟩
    rw [← posted_execute]
    intro ip mem
    have goes : ip ∈ posted ((send parts sub payload).heard replies) := by
      rw [posted_send parts parsed, passed, heard_deliver parts prepared]
      exact mem
    obtain ⟨routable, t', parsed', inside⟩ := safe ip goes
    obtain rfl : t' = t := Except.ok.inj (parsed'.symm.trans parsed)
    exact ⟨inside, fun overlooked => not_routable_of_overlooked overlooked routable⟩
  -- a POST goes out only behind the check and a message that could be sealed
  · intro kept ip mem
    cases parsed : target parts sub.endpoint with
    | error e =>
      have silent : (send parts sub payload).heard replies = [] := by
        unfold send assertEndpointPublic
        rw [parsed]
        cases e <;> rfl
      rw [silent] at mem
      cases mem
    | ok t =>
      rw [posted_send parts parsed] at mem
      cases passed : verdict (answered replies t) t with
      | error e =>
        rw [passed] at mem
        cases mem
      | ok u =>
        rw [passed] at mem
        cases prepared : prepare parts sub payload with
        | error e =>
          have silent : (deliver parts sub payload).heard (rest replies t) = [] := by
            unfold deliver
            rw [prepared]
            rfl
          dsimp only at mem
          rw [silent] at mem
          cases mem
        | ok message =>
          dsimp only at mem
          rw [heard_deliver parts prepared] at mem
          have keeps := kept t parsed passed ⟨message, prepared⟩
          obtain ⟨inside, seen⟩ := (posted_execute parts _ _ _).2 keeps ip mem
          have public_ := verdict_ok passed ip inside
          exact ⟨((isPublicIp_iff ip).1 public_).resolve_right seen, t, rfl, inside⟩

/-! ## §6 Rebinding -/

/-- An endpoint at a host with a name. -/
def plainParts : Parts Unit Unit where
  parse _ := .ok ()
  scheme _ := "https"
  hostStr _ := some "push.example"
  portOrKnownDefault _ := some 443
  join _ location := some location
  parseIp _ := none
  decode _ := .ok ()
  encrypt _ _ _ := .ok ()
  authorization _ := .ok "vapid"

/-- A name that points to a public address when the guard looks, and to the loopback after. -/
def rebound : Replies
  | _, .lookupHost _ _ => .ok [.v4 ⟨8, 8, 8, 8⟩]
  | _, .resolve _ => .ok [.v4 ⟨127, 0, 0, 1⟩]
  | _, .connect [] => .error "no address"
  | _, .connect (_ :: _) => .ok 0
  | _, .request _ _ _ => .ok ⟨201, none, ""⟩

theorem not_safe : ¬ ∀ (sub : Subscription) (replies : Replies),
    Safe plainParts sub () replies := by
  intro always
  have safe := always ⟨"https://push.example/x", "", ""⟩ rebound
  have posts : posted ((send plainParts ⟨"https://push.example/x", "", ""⟩ ()).heard rebound) =
      [.v4 ⟨127, 0, 0, 1⟩] := rfl
  have loopback : Routable4 ⟨127, 0, 0, 1⟩ :=
    (safe (.v4 ⟨127, 0, 0, 1⟩) (by rw [posts]; exact .head _)).1
  exact absurd loopback (by decide)

end PushGuard

end GhostKey
