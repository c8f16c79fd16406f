import Ironet.Support.BigEndian
import Ironet.Support.Sorting

/-!
# Addresses, prefixes and keys

The values of `std::net` and `ipnet` that Presence records and routing tables hold. An address is
its bits, so the order of the octets is the order of the numbers. A prefix keeps the address it was
built from; `network` is that address with the host bits cleared. Fixed arrays of 32 bytes are
ordered as big-endian numbers, which is their lexicographic order.
-/
namespace Ironet.Mesh
open Support

abbrev Bytes := List UInt8

/-! ### Arrays of 32 bytes -/

/-- `[u8; 32]`: node identifiers, digests, fingerprints. -/
structure Key32 where
  bytes : Bytes
  width : bytes.length = 32
  deriving DecidableEq, Repr

theorem Key32.getBe_injective : Function.Injective fun key : Key32 => getBe key.bytes := by
  rintro ⟨left, leftWidth⟩ ⟨right, rightWidth⟩ same
  have bytes : left = right := by
    rw [← putBe_getBe left, ← putBe_getBe right, leftWidth, rightWidth]
    exact congrArg (putBe 32) same
  subst bytes
  rfl

instance : LinearOrder Key32 := LinearOrder.lift' _ Key32.getBe_injective

/-- The array of a number. -/
def Key32.ofNat (value : Nat) : Key32 := ⟨putBe 32 value, putBe_length 32 value⟩

def key32At (bytes : Bytes) (start : Nat) : Except String Key32 :=
  if width : (slice bytes start (start + 32)).length = 32 then .ok ⟨_, width⟩
  else .error "slice index out of range"

theorem key32At_eq_ok_iff {bytes : Bytes} {start : Nat} {key : Key32} :
    key32At bytes start = .ok key ↔ slice bytes start (start + 32) = key.bytes := by
  obtain ⟨key, width⟩ := key
  unfold key32At
  constructor
  · intro built
    split at built
    · exact congrArg Key32.bytes (Except.ok.inj built)
    · cases built
  · rintro rfl
    rw [dif_pos width]

/-! ### Addresses -/

inductive IpAddr where
  | v4 (bits : BitVec 32)
  | v6 (bits : BitVec 128)
  deriving DecidableEq, Repr

namespace IpAddr

def isIpv4 : IpAddr → Bool
  | v4 _ => true
  | v6 _ => false

/-- The number of bits of an address of this family. -/
def width : IpAddr → Nat
  | v4 _ => 32
  | v6 _ => 128

def octets : IpAddr → Bytes
  | v4 bits => putBe 4 bits.toNat
  | v6 bits => putBe 16 bits.toNat

def isUnspecified : IpAddr → Bool
  | v4 bits => bits = 0
  | v6 bits => bits = 0

/-- `224.0.0.0/4` and `ff00::/8`. -/
def isMulticast : IpAddr → Bool
  | v4 bits => bits.toNat / 2 ^ 28 = 14
  | v6 bits => bits.toNat / 2 ^ 120 = 255

/-- The position in the order of addresses: all of IPv4 before all of IPv6. -/
def rank : IpAddr → Nat
  | v4 bits => bits.toNat
  | v6 bits => 2 ^ 32 + bits.toNat

theorem rank_injective : Function.Injective rank := by
  intro left right same
  cases left with
  | v4 left =>
    cases right with
    | v4 right => exact congrArg v4 (BitVec.eq_of_toNat_eq same)
    | v6 right =>
      simp only [rank] at same
      omega
  | v6 left =>
  cases right with
  | v4 right =>
    simp only [rank] at same
    omega
  | v6 right =>
    simp only [rank] at same
    exact congrArg v6 (BitVec.eq_of_toNat_eq (by omega))

/-- The address with all but its first bits cleared; a shift by the whole width leaves no bit. -/
def masked : IpAddr → Nat → IpAddr
  | v4 bits, length => v4 (bits &&& (BitVec.allOnes 32 <<< (32 - length)))
  | v6 bits, length => v6 (bits &&& (BitVec.allOnes 128 <<< (128 - length)))

variable (address : IpAddr) (length : Nat)

@[simp] theorem masked_isIpv4 : (address.masked length).isIpv4 = address.isIpv4 := by
  cases address <;> rfl

private theorem mask_and_mask {width : Nat} (bits : BitVec width) {low high : Nat}
    (ordered : low ≤ high) :
    bits &&& (BitVec.allOnes width <<< low) &&& (BitVec.allOnes width <<< high) =
      bits &&& (BitVec.allOnes width <<< high) := by
  apply BitVec.eq_of_getLsbD_eq
  intro index inside
  by_cases below : index < high
  · simp [below]
  · have notLow : ¬ index < low := by omega
    have high' : index - high < width := by omega
    have low' : index - low < width := by omega
    simp [below, notLow, high', low']

theorem masked_masked {short long : Nat} (ordered : short ≤ long) :
    (address.masked long).masked short = address.masked short := by
  cases address with
  | v4 bits => exact congrArg IpAddr.v4 (mask_and_mask bits (by omega))
  | v6 bits => exact congrArg IpAddr.v6 (mask_and_mask bits (by omega))

end IpAddr

/-! ### Prefixes -/

structure IpNet where
  addr : IpAddr
  prefixLen : Nat
  fits : prefixLen ≤ addr.width
  deriving DecidableEq, Repr

namespace IpNet

def network (self : IpNet) : IpAddr := self.addr.masked self.prefixLen

/-- The address lies between the network and the broadcast address. -/
def contains (self : IpNet) (address : IpAddr) : Bool :=
  address.masked self.prefixLen = self.network

theorem contains_family {network : IpNet} {address : IpAddr}
    (holds : network.contains address = true) : network.addr.isIpv4 = address.isIpv4 := by
  rw [contains, decide_eq_true_eq] at holds
  have same := congrArg IpAddr.isIpv4 holds
  rw [IpNet.network, IpAddr.masked_isIpv4, IpAddr.masked_isIpv4] at same
  exact same.symm

/-- The sort key `(family, addr, prefix_len)`. -/
def key (self : IpNet) : ℕ ×ₗ ℕ := toLex (self.addr.rank, self.prefixLen)

theorem key_injective : Function.Injective key := by
  rintro ⟨left, leftLen, leftFits⟩ ⟨right, rightLen, rightFits⟩ same
  have pair := Prod.mk.inj (toLex.injective same)
  obtain rfl := IpAddr.rank_injective pair.1
  obtain rfl := pair.2
  rfl

/-- The prefix of a single address. -/
def host (address : IpAddr) : IpNet := ⟨address, address.width, le_rfl⟩

end IpNet

/-! ### Socket addresses -/

/-- An IPv6 socket address has two fields that no Presence carries. -/
inductive SocketAddr where
  | v4 (ip : BitVec 32) (port : UInt16)
  | v6 (ip : BitVec 128) (port : UInt16) (flowinfo scopeId : UInt32)
  deriving DecidableEq, Repr

namespace SocketAddr

def ip : SocketAddr → IpAddr
  | v4 ip _ => .v4 ip
  | v6 ip _ _ _ => .v6 ip

def port : SocketAddr → UInt16
  | v4 _ port => port
  | v6 _ port _ _ => port

/-- `SocketAddr::new`. -/
def new : IpAddr → UInt16 → SocketAddr
  | .v4 ip, port => v4 ip port
  | .v6 ip, port => v6 ip port 0 0

def flowinfo : SocketAddr → UInt32
  | v4 _ _ => 0
  | v6 _ _ flowinfo _ => flowinfo

def scopeId : SocketAddr → UInt32
  | v4 _ _ => 0
  | v6 _ _ _ scopeId => scopeId

/-- The derived order: by address, port, flow information and scope. -/
def key (self : SocketAddr) : ℕ ×ₗ ℕ ×ₗ ℕ ×ₗ ℕ :=
  toLex (self.ip.rank, toLex (self.port.toNat, toLex (self.flowinfo.toNat, self.scopeId.toNat)))

def Plain (self : SocketAddr) : Prop := self = new self.ip self.port

instance (self : SocketAddr) : Decidable self.Plain := inferInstanceAs (Decidable (_ = _))

end SocketAddr
end Ironet.Mesh
