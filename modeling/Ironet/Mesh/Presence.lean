import Ironet.Cell.Wire
import Ironet.Mesh.Address
import Ironet.Support.Entries

/-!
# Signed Presence records

Executable model of `protocol/v2/presence.rs` up to the directory: the record, its canonical form,
the wire encoding and the signature checks. What `iroh` and `blake3` compute is a parameter. An
`EndpointId` is an array that `EndpointId::from_bytes` accepts, so the conversions are inverse on
valid values by construction, and a `Signature` is any array of 64 bytes.
-/
namespace Ironet.Mesh
open Support

/-! ### Keys, signatures and digests -/

/-- What `iroh` decides about public keys. -/
class Iroh where
  /-- `EndpointId::from_bytes` accepts the array. -/
  validKey : Key32 → Bool
  /-- Whether the bytes are a signature of the message under this key. -/
  verify : Key32 → Bytes → Bytes → Bool

/-- BLAKE3 in its key derivation and keyed modes. -/
class Blake3 where
  deriveKey : String → Bytes → Key32
  keyed : Key32 → Bytes → Key32

structure Signature where
  bytes : Bytes
  width : bytes.length = 64
  deriving DecidableEq, Repr

variable [Iroh]

structure EndpointId where
  key : Key32
  valid : Iroh.validKey key = true
  deriving DecidableEq

theorem EndpointId.key_injective : Function.Injective EndpointId.key := by
  rintro ⟨left, leftValid⟩ ⟨right, rightValid⟩ same
  obtain rfl := same
  rfl

instance : LinearOrder EndpointId := LinearOrder.lift' _ EndpointId.key_injective

def EndpointId.asBytes (self : EndpointId) : Bytes := self.key.bytes

def EndpointId.fromBytes (bytes : Bytes) (message : String) : Except String EndpointId :=
  if width : bytes.length = 32 then
    if valid : Iroh.validKey ⟨bytes, width⟩ = true then .ok ⟨⟨bytes, width⟩, valid⟩
    else .error message
  else .error message

/-- A secret key is what it can be asked for. -/
structure SecretKey where
  publicKey : EndpointId
  sign : Bytes → Signature

/-! ### The record -/

def magic : Bytes := [0x50, 0x52, 0x56, 0x32]
def version : UInt8 := 2
def flagTransit : UInt8 := 1
def headerLen : Nat := 104
def addressLen : Nat := 20
def prefixLen : Nat := 20
def linkLen : Nat := 40
def trailerLen : Nat := 96
def maxPresenceBytes : Nat := 64 * 1024
def maxDirectAddresses : Nat := 8
def maxNodeAddresses : Nat := 2
def maxPresencePrefixes : Nat := 256
def maxPresenceLinks : Nat := 256
def maxPresenceTtlSecs : Nat := 600
def clockSkewSecs : Nat := 30

structure PresenceLinkV2 where
  peer : EndpointId
  cost : UInt32
  healthy : Bool
  maximumDatagramSize : UInt16
  deriving DecidableEq

structure PresenceBodyV2 where
  owner : EndpointId
  sequence : UInt64
  issuedUnixSecs : UInt64
  expiresUnixSecs : UInt64
  directAddresses : List SocketAddr
  nodeAddresses : List IpNet
  prefixes : List IpNet
  links : List PresenceLinkV2
  transitEnabled : Bool
  deriving DecidableEq

structure SignedPresenceV2 where
  body : PresenceBodyV2
  networkFingerprint : Key32
  signature : Signature
  membershipTag : Key32
  deriving DecidableEq

/-! ### Validation and canonical form -/

variable (body : PresenceBodyV2)

/-- The lifetime of a record at some instant. -/
def validateInstant : Option Nat → Except String Unit
  | none => .ok ()
  | some now => do
    -- `saturating_add` on `u64`
    ensure (body.issuedUnixSecs.toNat ≤ min (now + clockSkewSecs) (2 ^ 64 - 1))
      "V2 Presence issue time is too far in the future"
    ensure (now < body.expiresUnixSecs.toNat) "V2 Presence has expired"

def validateLink (owner : EndpointId) (link : PresenceLinkV2) : Except String Unit := do
  ensure (link.peer ≠ owner) "V2 Presence contains a self-link"
  ensure (link.cost ≠ 0) "V2 Presence link cost is zero"
  ensure (Cell.headerLen < link.maximumDatagramSize.toNat)
    "V2 Presence link DATAGRAM ceiling is too small"

def validateBody (now : Option Nat) : Except String Unit := do
  ensure (body.sequence ≠ 0) "V2 Presence sequence zero is reserved"
  ensure (body.issuedUnixSecs.toNat < body.expiresUnixSecs.toNat ∧
      body.expiresUnixSecs.toNat - body.issuedUnixSecs.toNat ≤ maxPresenceTtlSecs)
    "invalid V2 Presence lifetime"
  validateInstant body now
  ensure (body.directAddresses.length ≤ maxDirectAddresses) "too many V2 Presence direct addresses"
  ensure (body.nodeAddresses.length ≤ maxNodeAddresses) "too many V2 Presence node addresses"
  ensure (body.prefixes.length ≤ maxPresencePrefixes) "too many V2 Presence prefixes"
  ensure (body.links.length ≤ maxPresenceLinks) "too many V2 Presence links"
  ensure (∀ address ∈ body.directAddresses,
      address.port ≠ 0 ∧ address.ip.isUnspecified = false ∧ address.ip.isMulticast = false)
    "invalid V2 Presence direct address"
  ensure (∀ address ∈ body.nodeAddresses, address ∉ body.prefixes)
    "V2 Presence node addresses must not be duplicated as subnet prefixes"
  ensure (∀ network ∈ body.prefixes, network.addr = network.network)
    "non-canonical V2 Presence prefix"
  ensure (∀ address ∈ body.nodeAddresses,
      address.addr = address.network ∧ address.prefixLen = address.addr.width)
    "V2 Presence node address is not a host prefix"
  body.links.forM (validateLink body.owner)

def canonicalizeBody : PresenceBodyV2 :=
  { body with
    directAddresses := sortByKey SocketAddr.key body.directAddresses
    nodeAddresses := sortByKey (fun address => address.addr.rank) body.nodeAddresses
    prefixes := sortByKey IpNet.key body.prefixes
    links := sortByKey PresenceLinkV2.peer body.links }

def hasAdjacentDuplicates {α : Type} [DecidableEq α] (values : List α) : Bool :=
  (windows values).any fun pair => pair.1 = pair.2

def isCanonical : Bool :=
  canonicalizeBody body = body && !hasAdjacentDuplicates body.directAddresses &&
    !hasAdjacentDuplicates body.nodeAddresses && !hasAdjacentDuplicates body.prefixes &&
    !((windows body.links).any fun pair => pair.1.peer = pair.2.peer)

/-! ### Encoding -/

def zeros (count : Nat) : Bytes := List.replicate count 0

def encodeAddress (address : SocketAddr) : Bytes :=
  match address.ip with
  | .v4 bits => [4, 0] ++ putU16 address.port ++ (IpAddr.v4 bits).octets ++ zeros 12
  | .v6 bits => [6, 0] ++ putU16 address.port ++ (IpAddr.v6 bits).octets

def encodeNetwork (address : IpAddr) (length : Nat) : Bytes :=
  match address with
  | .v4 bits => [4, UInt8.ofNat length] ++ putU16 0 ++ (IpAddr.v4 bits).octets ++ zeros 12
  | .v6 bits => [6, UInt8.ofNat length] ++ putU16 0 ++ (IpAddr.v6 bits).octets

def encodePrefix (network : IpNet) : Bytes := encodeNetwork network.network network.prefixLen

def encodeLink (link : PresenceLinkV2) : Bytes :=
  link.peer.asBytes ++ putU32 link.cost ++ [if link.healthy then 1 else 0] ++
    putU16 link.maximumDatagramSize ++ [0]

/-- The length of a record without its trailer. -/
def unsignedLen (addresses nodeAddresses prefixes links : Nat) : Nat :=
  headerLen + addresses * addressLen + nodeAddresses * prefixLen + prefixes * prefixLen +
    links * linkLen

def encodeHeader (fingerprint : Key32) : Bytes :=
  magic ++ [version, if body.transitEnabled then flagTransit else 0] ++
    putU16 (UInt16.ofNat body.directAddresses.length) ++
    putU16 (UInt16.ofNat body.prefixes.length) ++ putU16 (UInt16.ofNat body.links.length) ++
    putU16 (UInt16.ofNat body.nodeAddresses.length) ++ putU16 0 ++ putU64 body.sequence ++
    putU64 body.issuedUnixSecs ++ putU64 body.expiresUnixSecs ++ body.owner.asBytes ++
    fingerprint.bytes

def encodeUnsigned (fingerprint : Key32) : Except String Bytes := do
  validateBody body none
  let length := unsignedLen body.directAddresses.length body.nodeAddresses.length
    body.prefixes.length body.links.length
  ensure (length + trailerLen ≤ maxPresenceBytes) "V2 Presence exceeds wire limit"
  .ok (encodeHeader body fingerprint ++ body.directAddresses.flatMap encodeAddress ++
    body.nodeAddresses.flatMap encodePrefix ++ body.prefixes.flatMap encodePrefix ++
    body.links.flatMap encodeLink)

/-! ### Decoding -/

variable (entry : Bytes)

def decodeAddress : Except String SocketAddr := do
  ensure (entry.length = addressLen) "invalid V2 Presence address length"
  ensure (byteAt entry 1 = 0) "non-zero V2 Presence address reserved field"
  let port := getU16 (slice entry 2 4)
  if byteAt entry 0 = 4 then
    ensure (slice entry 8 20 = zeros 12) "invalid V2 Presence IPv4 padding"
    .ok (.new (.v4 (BitVec.ofNat 32 (getBe (slice entry 4 8)))) port)
  else if byteAt entry 0 = 6 then
    .ok (.new (.v6 (BitVec.ofNat 128 (getBe (slice entry 4 20)))) port)
  else .error "invalid V2 Presence address family"

/-- `Ipv4Net::new` and `Ipv6Net::new`. -/
def IpNet.new (addr : IpAddr) (prefixLen : Nat) : Except String IpNet :=
  if fits : prefixLen ≤ addr.width then .ok ⟨addr, prefixLen, fits⟩
  else .error "invalid IP prefix length"

def decodePrefix : Except String IpNet := do
  ensure (entry.length = prefixLen) "invalid V2 Presence prefix length"
  ensure (slice entry 2 4 = zeros 2) "non-zero V2 Presence prefix reserved field"
  if byteAt entry 0 = 4 then
    ensure ((byteAt entry 1).toNat ≤ 32) "invalid V2 Presence IPv4 prefix length"
    ensure (slice entry 8 20 = zeros 12) "invalid V2 Presence IPv4 padding"
    IpNet.new (.v4 (BitVec.ofNat 32 (getBe (slice entry 4 8)))) (byteAt entry 1).toNat
  else if byteAt entry 0 = 6 then
    ensure ((byteAt entry 1).toNat ≤ 128) "invalid V2 Presence IPv6 prefix length"
    IpNet.new (.v6 (BitVec.ofNat 128 (getBe (slice entry 4 20)))) (byteAt entry 1).toNat
  else .error "invalid V2 Presence prefix family"

def decodeLink : Except String PresenceLinkV2 := do
  ensure (byteAt entry 39 = 0) "non-zero V2 Presence link reserved field"
  ensure (byteAt entry 36 &&& ~~~1 = 0) "unsupported V2 Presence link flags"
  let peer ← EndpointId.fromBytes (slice entry 0 32) "invalid V2 Presence link peer"
  .ok {
    peer
    cost := getU32 (slice entry 32 36)
    healthy := byteAt entry 36 ≠ 0
    maximumDatagramSize := getU16 (slice entry 37 39) }

def signatureAt (bytes : Bytes) (start : Nat) : Except String Signature :=
  if width : (slice bytes start (start + 64)).length = 64 then .ok ⟨_, width⟩
  else .error "slice index out of range"

namespace SignedPresenceV2

def encode (self : SignedPresenceV2) : Except String Bytes := do
  validateBody self.body none
  ensure (isCanonical self.body = true) "non-canonical V2 Presence body"
  let unsigned ← encodeUnsigned self.body self.networkFingerprint
  ensure (unsigned.length + trailerLen ≤ maxPresenceBytes) "V2 Presence exceeds wire limit"
  .ok (unsigned ++ self.signature.bytes ++ self.membershipTag.bytes)

def decode (bytes : Bytes) : Except String SignedPresenceV2 := do
  ensure (headerLen + trailerLen ≤ bytes.length ∧ bytes.length ≤ maxPresenceBytes)
    "invalid V2 Presence length"
  ensure (slice bytes 0 4 = magic) "invalid V2 Presence magic"
  ensure (byteAt bytes 4 = version) "unsupported V2 Presence version"
  ensure (byteAt bytes 5 &&& ~~~flagTransit = 0) "unsupported V2 Presence flags"
  let addressCount := (getU16 (slice bytes 6 8)).toNat
  let prefixCount := (getU16 (slice bytes 8 10)).toNat
  let linkCount := (getU16 (slice bytes 10 12)).toNat
  let nodeAddressCount := (getU16 (slice bytes 12 14)).toNat
  ensure (slice bytes 14 16 = zeros 2) "non-zero V2 Presence reserved field"
  ensure (addressCount ≤ maxDirectAddresses ∧ nodeAddressCount ≤ maxNodeAddresses ∧
      prefixCount ≤ maxPresencePrefixes ∧ linkCount ≤ maxPresenceLinks)
    "V2 Presence count exceeds limit"
  let unsigned := unsignedLen addressCount nodeAddressCount prefixCount linkCount
  ensure (bytes.length = unsigned + trailerLen) "invalid V2 Presence encoded length"
  let owner ← EndpointId.fromBytes (slice bytes 40 72) "invalid V2 Presence owner"
  let networkFingerprint ← key32At bytes 72
  let nodeStart := headerLen + addressCount * addressLen
  let prefixStart := nodeStart + nodeAddressCount * prefixLen
  let linkStart := prefixStart + prefixCount * prefixLen
  let directAddresses ← decodeEntries decodeAddress addressLen bytes addressCount headerLen
  let nodeAddresses ← decodeEntries decodePrefix prefixLen bytes nodeAddressCount nodeStart
  let prefixes ← decodeEntries decodePrefix prefixLen bytes prefixCount prefixStart
  let links ← decodeEntries decodeLink linkLen bytes linkCount linkStart
  let signature ← signatureAt bytes unsigned
  let membershipTag ← key32At bytes (unsigned + 64)
  let body : PresenceBodyV2 := {
    owner
    sequence := getU64 (slice bytes 16 24)
    issuedUnixSecs := getU64 (slice bytes 24 32)
    expiresUnixSecs := getU64 (slice bytes 32 40)
    directAddresses
    nodeAddresses
    prefixes
    links
    transitEnabled := byteAt bytes 5 &&& flagTransit ≠ 0 }
  validateBody body none
  ensure (isCanonical body = true) "non-canonical V2 Presence body"
  .ok { body, networkFingerprint, signature, membershipTag }

end SignedPresenceV2

/-! ### Signing and verifying -/

variable [Blake3]

def networkFingerprint (networkId : String) : Key32 :=
  Blake3.deriveKey "ironet v2 presence network fingerprint" networkId.toUTF8.toList

def membershipTag (networkId : String) (unsigned : Bytes) (signature : Signature) : Key32 :=
  Blake3.keyed (Blake3.deriveKey "ironet v2 presence membership" networkId.toUTF8.toList)
    (unsigned ++ signature.bytes)

/-- A wall clock, in nanoseconds from the Unix epoch. -/
abbrev SystemTime := Int

def unixSecs (now : SystemTime) : Except String Nat :=
  if 0 ≤ now then .ok (now.toNat / 1000000000) else .error "system clock is before the Unix epoch"

namespace SignedPresenceV2

def sign (body : PresenceBodyV2) (secretKey : SecretKey) (networkId : String) :
    Except String SignedPresenceV2 := do
  ensure (body.owner = secretKey.publicKey) "V2 Presence owner does not match signing key"
  let body := canonicalizeBody body
  validateBody body none
  ensure (isCanonical body = true) "duplicate V2 Presence entry"
  let fingerprint := Mesh.networkFingerprint networkId
  let unsigned ← encodeUnsigned body fingerprint
  let signature := secretKey.sign unsigned
  .ok {
    body
    networkFingerprint := fingerprint
    signature
    membershipTag := Mesh.membershipTag networkId unsigned signature }

def verify (self : SignedPresenceV2) (networkId : String) (now : SystemTime) :
    Except String Unit := do
  let secs ← unixSecs now
  validateBody self.body (some secs)
  ensure (isCanonical self.body = true) "non-canonical V2 Presence body"
  ensure (self.networkFingerprint = Mesh.networkFingerprint networkId)
    "V2 Presence belongs to another network"
  let unsigned ← encodeUnsigned self.body self.networkFingerprint
  ensure (Iroh.verify self.body.owner.key unsigned self.signature.bytes = true)
    "invalid V2 Presence owner signature"
  ensure (self.membershipTag = Mesh.membershipTag networkId unsigned self.signature)
    "invalid V2 Presence membership proof"

end SignedPresenceV2
end Ironet.Mesh
