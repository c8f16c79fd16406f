import Ironet.Mesh.Presence

/-!
# The Presence codec

The decoder accepts exactly the encodings of canonical records whose direct addresses are nothing
but an address and a port. Encoding an accepted string therefore gives it back, and a signed record
comes back exactly if its addresses are of that kind.
-/
namespace Ironet.Mesh
open Support EndpointId IpAddr SignedPresenceV2 List

/-! ### Entries -/

theorem SocketAddr.plain_iff {address : SocketAddr} :
    address.Plain ↔ address.flowinfo = 0 ∧ address.scopeId = 0 := by
  cases address with
  | v4 ip port => simp [SocketAddr.Plain, SocketAddr.new, SocketAddr.ip, SocketAddr.port,
      SocketAddr.flowinfo, SocketAddr.scopeId]
  | v6 ip port flowinfo scopeId => simp [SocketAddr.Plain, SocketAddr.new, SocketAddr.ip,
      SocketAddr.port, SocketAddr.flowinfo, SocketAddr.scopeId]

@[simp] theorem zeros_length (count : Nat) : (zeros count).length = count := by
  simp [zeros]

variable {entry : Bytes}

/-- The address of an entry: its family, and its octets up to the padding. -/
def HoldsIp (entry : Bytes) : IpAddr → Prop
  | .v4 bits => byteAt entry 0 = 4 ∧ BitVec.ofNat 32 (getBe (slice entry 4 8)) = bits ∧
      slice entry 8 20 = zeros 12
  | .v6 bits => byteAt entry 0 = 6 ∧ BitVec.ofNat 128 (getBe (slice entry 4 20)) = bits

/-- An address with what stands between its family and its octets. -/
def encodeIp (second : UInt8) (field : Bytes) : IpAddr → Bytes
  | .v4 bits => [4, second] ++ field ++ (v4 bits).octets ++ zeros 12
  | .v6 bits => [6, second] ++ field ++ (v6 bits).octets

variable {field : Bytes}

theorem encodeIp_length (second : UInt8) (fieldLen : field.length = 2) (ip : IpAddr) :
    (encodeIp second field ip).length = 20 := by
  cases ip with
  | v4 bits => simp [encodeIp, octets, fieldLen]
  | v6 bits => simp [encodeIp, octets, fieldLen]

theorem encodeIp_iff (length : entry.length = 20) {second : UInt8} (fieldLen : field.length = 2)
    (ip : IpAddr) : entry = encodeIp second field ip ↔
      byteAt entry 1 = second ∧ slice entry 2 4 = field ∧ HoldsIp entry ip := by
  have whole : slice entry 0 20 = entry := by rw [← length, slice_full]
  cases ip with
  | v4 bits =>
    have fields : encodeIp second field (.v4 bits) =
        [[4], [second], field, (v4 bits).octets, zeros 12].flatten := by simp [encodeIp]
    have width : (slice entry 4 8).length = 4 := by rw [slice_length _ _ _ (by omega)]
    have isIp : slice entry 4 8 = (v4 bits).octets ↔ _ := eq_putBe_iff width
    rw [fields, ← whole, slice_eq_flatten_iff (by simp [octets, fieldLen]) (by omega), whole]
    simp (disch := omega) only [FieldsAt, length_cons, length_nil, fieldLen,
      show (v4 bits).octets.length = 4 from putBe_length _ _, zeros_length, Nat.reduceAdd,
      slice_eq_singleton_iff, isIp, and_true]
    exact and_left_comm.trans (and_congr_right fun _ => and_left_comm)
  | v6 bits =>
    have fields : encodeIp second field (.v6 bits) =
        [[6], [second], field, (v6 bits).octets].flatten := by simp [encodeIp]
    have width : (slice entry 4 20).length = 16 := by rw [slice_length _ _ _ (by omega)]
    have isIp : slice entry 4 20 = (v6 bits).octets ↔ _ := eq_putBe_iff width
    rw [fields, ← whole, slice_eq_flatten_iff (by simp [octets, fieldLen]) (by omega), whole]
    simp (disch := omega) only [FieldsAt, length_cons, length_nil, fieldLen,
      show (v6 bits).octets.length = 16 from putBe_length _ _, Nat.reduceAdd,
      slice_eq_singleton_iff, isIp, and_true]
    exact and_left_comm.trans (and_congr_right fun _ => and_left_comm)

theorem encodeAddress_eq (address : SocketAddr) :
    encodeAddress address = encodeIp 0 (putU16 address.port) address.ip := by
  unfold encodeAddress
  cases address.ip <;> rfl

variable (address : IpAddr)

theorem encodeNetwork_eq (length : Nat) :
    encodeNetwork address length = encodeIp (UInt8.ofNat length) (zeros 2) address := by
  cases address <;> rfl

theorem encodeAddress_iff (length : entry.length = 20) (address : SocketAddr) :
    entry = encodeAddress address ↔ byteAt entry 1 = 0 ∧
      getU16 (slice entry 2 4) = address.port ∧ HoldsIp entry address.ip := by
  have width : (slice entry 2 4).length = 2 := by rw [slice_length _ _ _ (by omega)]
  rw [encodeAddress_eq, encodeIp_iff length (putU16_length _), eq_putU16_iff width]

theorem address_codec : EntryCodec addressLen encodeAddress decodeAddress SocketAddr.Plain where
  length := fun address =>
    encodeAddress_eq address ▸ encodeIp_length 0 (putU16_length _) address.ip
  accepts := by
    intro entry value length
    rw [encodeAddress_iff length]
    simp only [decodeAddress, do_eq_ok, length, true_and, SocketAddr.new]
    -- the family byte decides which kind of address is read
    split_ifs with four six
    · simp only [do_eq_ok]
      cases value with
      | v4 ip port =>
        simp only [SocketAddr.v4.injEq, SocketAddr.Plain, SocketAddr.new, HoldsIp, SocketAddr.ip,
          SocketAddr.port]
        grind
      | v6 ip port flowinfo scopeId => simp [HoldsIp, SocketAddr.ip, four]
    · cases value with
      | v4 ip port => simp [HoldsIp, SocketAddr.ip, four]
      | v6 ip port flowinfo scopeId =>
        simp only [Except.ok.injEq, SocketAddr.v6.injEq, SocketAddr.Plain, SocketAddr.new, HoldsIp,
          SocketAddr.ip, SocketAddr.port]
        grind
    · cases value with
      | v4 ip port => simp [HoldsIp, SocketAddr.ip, four]
      | v6 ip port flowinfo scopeId => simp [HoldsIp, SocketAddr.ip, six]

variable {byte : UInt8}

theorem eq_ofNat_iff {value : Nat} (small : value < 256) :
    byte = UInt8.ofNat value ↔ byte.toNat = value := by
  constructor
  · rintro rfl
    exact UInt8.toNat_ofNat_of_lt' small
  · rintro rfl
    exact UInt8.ofNat_toNat.symm

theorem encodeNetwork_iff (length : entry.length = 20) {address : IpAddr} {prefixLen : Nat}
    (small : prefixLen ≤ address.width) :
    entry = encodeNetwork address prefixLen ↔ (byteAt entry 1).toNat = prefixLen ∧
      slice entry 2 4 = zeros 2 ∧ HoldsIp entry address := by
  have byte : prefixLen < 256 := by
    cases address <;> simp only [width] at small <;> omega
  rw [encodeNetwork_eq, encodeIp_iff length (zeros_length 2), eq_ofNat_iff byte]

theorem encodeNetwork_length (length : Nat) : (encodeNetwork address length).length = prefixLen :=
  encodeNetwork_eq address length ▸ encodeIp_length _ (zeros_length 2) address

theorem IpNet.new_eq_ok_iff {addr : IpAddr} {length : Nat} {network : IpNet} :
    IpNet.new addr length = .ok network ↔ addr = network.addr ∧ length = network.prefixLen := by
  obtain ⟨networkAddr, networkLen, fits⟩ := network
  unfold IpNet.new
  constructor
  · intro built
    split at built
    · have same := Except.ok.inj built
      exact ⟨congrArg IpNet.addr same, congrArg IpNet.prefixLen same⟩
    · cases built
  · rintro ⟨rfl, rfl⟩
    rw [dif_pos fits]

/-- The decoder of prefixes keeps the host bits, which the encoder would clear. -/
theorem prefix_codec : EntryCodec prefixLen (fun network : IpNet =>
    encodeNetwork network.addr network.prefixLen) decodePrefix fun _ => True where
  length := fun network => encodeNetwork_length _ _
  accepts := by
    intro entry value length
    obtain ⟨addr, len, fits⟩ := value
    rw [encodeNetwork_iff length fits]
    simp only [decodePrefix, do_eq_ok, length, true_and]
    split_ifs with four six
    · simp only [do_eq_ok, IpNet.new_eq_ok_iff]
      cases addr with
      | v4 bits =>
        simp only [HoldsIp, width, v4.injEq] at fits ⊢
        grind
      | v6 bits => simp [HoldsIp, four]
    · simp only [do_eq_ok, IpNet.new_eq_ok_iff]
      cases addr with
      | v4 bits => simp [HoldsIp, four]
      | v6 bits =>
        simp only [HoldsIp, width, v6.injEq] at fits ⊢
        grind
    · cases addr with
      | v4 bits => simp [HoldsIp, four]
      | v6 bits => simp [HoldsIp, six]

theorem length_flatMap_encodePrefix (networks : List IpNet) :
    (networks.flatMap encodePrefix).length = networks.length * prefixLen := by
  simp [length_flatMap, encodePrefix, encodeNetwork_length, prefixLen]

theorem flatMap_encodePrefix {networks : List IpNet}
    (canonical : ∀ network ∈ networks, network.addr = network.network) :
    (networks.flatMap fun network => encodeNetwork network.addr network.prefixLen) =
      networks.flatMap encodePrefix := by
  apply flatMap_congr
  intro network member
  rw [encodePrefix, ← canonical network member]

/-! ### Arrays and flags -/

variable {bytes : Bytes}

theorem signatureAt_eq_ok_iff {start : Nat} {signature : Signature} :
    signatureAt bytes start = .ok signature ↔
      slice bytes start (start + 64) = signature.bytes := by
  obtain ⟨signature, width⟩ := signature
  unfold signatureAt
  constructor
  · intro built
    split at built
    · exact congrArg Signature.bytes (Except.ok.inj built)
    · cases built
  · rintro rfl
    rw [dif_pos width]

/-- A byte with no other bit than its lowest is a flag, whichever way it is read. -/
theorem flag_cases (byte : UInt8) :
    (byte &&& ~~~1 = 0 ↔ byte = 0 ∨ byte = 1) ∧ (byte = 0 ∨ byte = 1 → byte &&& 1 = byte) := by
  have all : ∀ bits : BitVec 8, (UInt8.ofBitVec bits &&& ~~~1 = 0 ↔
      UInt8.ofBitVec bits = 0 ∨ UInt8.ofBitVec bits = 1) ∧
        (UInt8.ofBitVec bits = 0 ∨ UInt8.ofBitVec bits = 1 →
          UInt8.ofBitVec bits &&& 1 = UInt8.ofBitVec bits) := by
    decide
  exact all byte.toBitVec

variable {on : Bool}

theorem flag_iff : (byte &&& ~~~1 = 0 ∧ decide (byte ≠ 0) = on) ↔ byte = if on then 1 else 0 := by
  rw [(flag_cases byte).1]
  cases on with
  | false =>
    simp only [decide_eq_false_iff_not, not_not, Bool.false_eq_true, if_false]
    exact ⟨And.right, fun zero => ⟨.inl zero, zero⟩⟩
  | true =>
  simp only [decide_eq_true_eq, if_true]
  constructor
  · rintro ⟨zero | one, nonzero⟩
    · exact absurd zero nonzero
    · exact one
  · rintro rfl
    exact ⟨.inr rfl, by decide⟩

theorem transit_iff : (byte &&& ~~~flagTransit = 0 ∧ decide (byte &&& flagTransit ≠ 0) = on) ↔
      byte = if on then flagTransit else 0 := by
  rw [flagTransit, ← flag_iff]
  refine and_congr_right fun flag => ?_
  rw [(flag_cases byte).2 ((flag_cases byte).1.mp flag)]

theorem count_iff {count : Nat} (small : count ≤ 256) :
    (getU16 bytes).toNat = count ↔ getU16 bytes = UInt16.ofNat count := by
  constructor
  · rintro rfl
    exact UInt16.ofNat_toNat.symm
  · intro field
    rw [field]
    exact UInt16.toNat_ofNat_of_lt' (by simp only [UInt16.size]; omega)

/-! ### Links -/

section
variable [Iroh]

theorem EndpointId.fromBytes_eq_ok_iff {message : String} {id : EndpointId} :
    fromBytes bytes message = .ok id ↔ bytes = id.asBytes := by
  obtain ⟨⟨key, width⟩, valid⟩ := id
  unfold fromBytes
  constructor
  · intro built
    split at built
    · split at built
      · exact congrArg asBytes (Except.ok.inj built)
      · cases built
    · cases built
  · rintro rfl
    rw [dif_pos width, dif_pos valid]

@[simp] theorem asBytes_length (id : EndpointId) : id.asBytes.length = 32 :=
  id.key.width

theorem encodeLink_length (link : PresenceLinkV2) : (encodeLink link).length = linkLen := by
  simp [encodeLink, linkLen]

theorem encodeLink_iff (length : entry.length = 40) (link : PresenceLinkV2) :
    entry = encodeLink link ↔ slice entry 0 32 = link.peer.asBytes ∧
      getU32 (slice entry 32 36) = link.cost ∧
        byteAt entry 36 = (if link.healthy then 1 else 0) ∧
          getU16 (slice entry 37 39) = link.maximumDatagramSize ∧ byteAt entry 39 = 0 := by
  have whole : slice entry 0 40 = entry := by rw [← length, slice_full]
  have fields : encodeLink link = [link.peer.asBytes, putU32 link.cost,
      [if link.healthy then 1 else 0], putU16 link.maximumDatagramSize, [0]].flatten := by
    simp [encodeLink]
  rw [fields, ← whole, slice_eq_flatten_iff (by simp) (by omega), whole]
  simp (disch := omega) only [FieldsAt, asBytes_length, length_cons,
    length_nil, putU16_length, putU32_length, Nat.reduceAdd, slice_eq_singleton_iff,
    slice_eq_putU16_iff, slice_eq_putU32_iff, and_true]

theorem link_codec : EntryCodec linkLen encodeLink decodeLink fun _ => True where
  length := encodeLink_length
  accepts := by
    intro entry link length
    rw [encodeLink_iff length]
    simp only [decodeLink, do_eq_ok, fromBytes_eq_ok_iff, ← flag_iff]
    obtain ⟨peer, cost, healthy, size⟩ := link
    simp only [PresenceLinkV2.mk.injEq]
    constructor
    · rintro ⟨reserved, flags, id, isId, rfl, isCost, isHealthy, isSize⟩
      exact ⟨trivial, isId, isCost, ⟨flags, isHealthy⟩, isSize, reserved⟩
    · rintro ⟨-, isId, isCost, ⟨flags, isHealthy⟩, isSize, reserved⟩
      exact ⟨reserved, flags, peer, isId, rfl, isCost, isHealthy, isSize⟩

/-! ### The record -/

/-- What the checks establish about a record. -/
structure PresenceBodyV2.WellFormed (body : PresenceBodyV2) : Prop where
  valid : validateBody body none = .ok ()
  canonical : isCanonical body = true

/-- The counts that the header carries, and the networks that the encoder keeps. -/
structure PresenceBodyV2.Bounded (body : PresenceBodyV2) : Prop where
  addresses : body.directAddresses.length ≤ 8
  nodeAddresses : body.nodeAddresses.length ≤ 2
  prefixes : body.prefixes.length ≤ 256
  links : body.links.length ≤ 256
  networks : ∀ network ∈ body.prefixes, network.addr = network.network
  hosts : ∀ network ∈ body.nodeAddresses, network.addr = network.network

variable {body : PresenceBodyV2}

theorem bounded_of_valid {now : Option Nat}
    (valid : validateBody body now = .ok ()) : body.Bounded := by
  simp only [validateBody, do_eq_ok] at valid
  obtain ⟨-, -, -, addresses, nodeAddresses, prefixes, links, -, -, networks, hosts, -⟩ := valid
  exact ⟨addresses, nodeAddresses, prefixes, links, networks, fun network member =>
    (hosts network member).1⟩

/-- The signed part of a record. -/
def unsignedWire (body : PresenceBodyV2) (fingerprint : Key32) : Bytes :=
  encodeHeader body fingerprint ++ body.directAddresses.flatMap encodeAddress ++
    body.nodeAddresses.flatMap encodePrefix ++ body.prefixes.flatMap encodePrefix ++
    body.links.flatMap encodeLink

def SignedPresenceV2.wire (self : SignedPresenceV2) : Bytes :=
  unsignedWire self.body self.networkFingerprint ++ self.signature.bytes ++ self.membershipTag.bytes

def PresenceBodyV2.unsignedLen (body : PresenceBodyV2) : Nat :=
  Mesh.unsignedLen body.directAddresses.length body.nodeAddresses.length body.prefixes.length
    body.links.length

theorem encodeHeader_length (body : PresenceBodyV2) (fingerprint : Key32) :
    (encodeHeader body fingerprint).length = headerLen := by
  simp [encodeHeader, magic, headerLen, fingerprint.width]

theorem unsignedWire_length (body : PresenceBodyV2) (fingerprint : Key32) :
    (unsignedWire body fingerprint).length = body.unsignedLen := by
  simp only [unsignedWire, length_append, encodeHeader_length, address_codec.length_flatMap,
    length_flatMap_encodePrefix, link_codec.length_flatMap]
  rfl

theorem unsignedLen_le (bounded : body.Bounded) :
    body.unsignedLen + trailerLen ≤ maxPresenceBytes := by
  obtain ⟨addresses, nodeAddresses, prefixes, links, -, -⟩ := bounded
  simp only [PresenceBodyV2.unsignedLen, unsignedLen, headerLen, addressLen, prefixLen, linkLen,
    trailerLen, maxPresenceBytes]
  omega

theorem encodeUnsigned_of_valid (valid : validateBody body none = .ok ()) (fingerprint : Key32) :
    encodeUnsigned body fingerprint = .ok (unsignedWire body fingerprint) := by
  have fits := unsignedLen_le (bounded_of_valid valid)
  rw [encodeUnsigned, valid, ok_bind]
  simp only [PresenceBodyV2.unsignedLen] at fits
  dsimp only
  rw [ensure_of _ _ fits, ok_bind]
  rfl

variable {presence : SignedPresenceV2}

theorem wire_length (presence : SignedPresenceV2) :
    presence.wire.length = presence.body.unsignedLen + trailerLen := by
  rw [wire, length_append, length_append, unsignedWire_length,
    presence.signature.width, presence.membershipTag.width, Nat.add_assoc]
  rfl

theorem encode_of_wellFormed
    (wellFormed : presence.body.WellFormed) : presence.encode = .ok presence.wire := by
  have fits := unsignedLen_le (bounded_of_valid wellFormed.valid)
  rw [encode, wellFormed.valid, ok_bind, ensure_of _ _ wellFormed.canonical,
    ok_bind, encodeUnsigned_of_valid wellFormed.valid, ok_bind,
    ensure_of _ _ (by rw [unsignedWire_length]; exact fits), ok_bind]
  rfl

theorem encodeHeader_iff (long : headerLen ≤ bytes.length) (body : PresenceBodyV2)
    (fingerprint : Key32) : slice bytes 0 headerLen = encodeHeader body fingerprint ↔
      slice bytes 0 4 = magic ∧ byteAt bytes 4 = version ∧
      byteAt bytes 5 = (if body.transitEnabled then flagTransit else 0) ∧
      getU16 (slice bytes 6 8) = UInt16.ofNat body.directAddresses.length ∧
      getU16 (slice bytes 8 10) = UInt16.ofNat body.prefixes.length ∧
      getU16 (slice bytes 10 12) = UInt16.ofNat body.links.length ∧
      getU16 (slice bytes 12 14) = UInt16.ofNat body.nodeAddresses.length ∧
      slice bytes 14 16 = zeros 2 ∧ getU64 (slice bytes 16 24) = body.sequence ∧
      getU64 (slice bytes 24 32) = body.issuedUnixSecs ∧
      getU64 (slice bytes 32 40) = body.expiresUnixSecs ∧
      slice bytes 40 72 = body.owner.asBytes ∧ slice bytes 72 104 = fingerprint.bytes := by
  simp only [headerLen] at long ⊢
  have fields : encodeHeader body fingerprint = [magic, [version],
      [if body.transitEnabled then flagTransit else 0],
      putU16 (UInt16.ofNat body.directAddresses.length),
      putU16 (UInt16.ofNat body.prefixes.length), putU16 (UInt16.ofNat body.links.length),
      putU16 (UInt16.ofNat body.nodeAddresses.length), zeros 2, putU64 body.sequence,
      putU64 body.issuedUnixSecs, putU64 body.expiresUnixSecs, body.owner.asBytes,
      fingerprint.bytes].flatten := by
    simp [encodeHeader, show putU16 0 = zeros 2 from rfl]
  have four : magic.length = 4 := rfl
  rw [fields, slice_eq_flatten_iff (by simp [four, fingerprint.width]) long]
  simp only [FieldsAt, four, fingerprint.width, asBytes_length, zeros_length,
    length_cons, length_nil, putU16_length, putU64_length, Nat.reduceAdd, and_true]
  simp (disch := omega) only [slice_eq_singleton_iff, slice_eq_putU16_iff, slice_eq_putU64_iff]

theorem wire_iff (presence : SignedPresenceV2)
    (length : bytes.length = presence.body.unsignedLen + trailerLen) (a b c d : Nat)
    (isA : a = headerLen + presence.body.directAddresses.length * addressLen)
    (isB : b = a + presence.body.nodeAddresses.length * prefixLen)
    (isC : c = b + presence.body.prefixes.length * prefixLen)
    (isD : d = c + presence.body.links.length * linkLen) : bytes = presence.wire ↔
      slice bytes 0 headerLen = encodeHeader presence.body presence.networkFingerprint ∧
      slice bytes headerLen a = presence.body.directAddresses.flatMap encodeAddress ∧
      slice bytes a b = presence.body.nodeAddresses.flatMap encodePrefix ∧
      slice bytes b c = presence.body.prefixes.flatMap encodePrefix ∧
      slice bytes c d = presence.body.links.flatMap encodeLink ∧
      slice bytes d (d + 64) = presence.signature.bytes ∧
      slice bytes (d + 64) (d + 64 + 32) = presence.membershipTag.bytes := by
  have total : bytes.length = d + 64 + 32 := by
    rw [length, isD, isC, isB, isA]
    simp only [PresenceBodyV2.unsignedLen, unsignedLen, trailerLen]
  have whole : slice bytes 0 (d + 64 + 32) = bytes := by rw [← total, slice_full]
  nth_rewrite 1 [← whole]
  have fields : presence.wire = [encodeHeader presence.body presence.networkFingerprint,
      presence.body.directAddresses.flatMap encodeAddress,
      presence.body.nodeAddresses.flatMap encodePrefix,
      presence.body.prefixes.flatMap encodePrefix, presence.body.links.flatMap encodeLink,
      presence.signature.bytes, presence.membershipTag.bytes].flatten := by
    simp [wire, unsignedWire]
  have size := congrArg List.length fields
  rw [wire_length] at size
  rw [fields, slice_eq_flatten_iff (by omega) (by omega)]
  simp only [FieldsAt, encodeHeader_length, presence.membershipTag.width, presence.signature.width,
    link_codec.length_flatMap, length_flatMap_encodePrefix, address_codec.length_flatMap, ← isA,
    ← isB, ← isC, ← isD, Nat.zero_add, and_true]

theorem decode_sound (decoded : decode bytes = .ok presence) : presence.body.WellFormed ∧
      (∀ address ∈ presence.body.directAddresses, address.Plain) ∧ bytes = presence.wire := by
  simp only [decode, do_eq_ok, fromBytes_eq_ok_iff, key32At_eq_ok_iff,
    signatureAt_eq_ok_iff] at decoded
  obtain ⟨⟨long, -⟩, isMagic, isVersion, flags, reserved, -, length, owner, isOwner, fingerprint,
    isFingerprint, addresses, isAddresses, nodes, isNodes, prefixes, isPrefixes, links, isLinks,
    signature, isSignature, tag, isTag, valid, canonical, isPresence⟩ := decoded
  have bounded := bounded_of_valid valid
  -- each table has as many entries as its field says
  generalize count1 : (getU16 (slice bytes 6 8)).toNat = n1 at *
  generalize count2 : (getU16 (slice bytes 12 14)).toNat = n2 at *
  generalize count3 : (getU16 (slice bytes 8 10)).toNat = n3 at *
  generalize count4 : (getU16 (slice bytes 10 12)).toNat = n4 at *
  have total := length
  simp only [unsignedLen, trailerLen] at total
  obtain ⟨rfl, plain, table1⟩ :=
    (address_codec.decodeEntries_ok_iff bytes _ _ (by omega) _).mp isAddresses
  obtain ⟨rfl, -, table2⟩ :=
    (prefix_codec.decodeEntries_ok_iff bytes _ _ (by omega) _).mp isNodes
  obtain ⟨rfl, -, table3⟩ :=
    (prefix_codec.decodeEntries_ok_iff bytes _ _ (by omega) _).mp isPrefixes
  obtain ⟨rfl, -, table4⟩ :=
    (link_codec.decodeEntries_ok_iff bytes _ _ (by omega) _).mp isLinks
  rw [flatMap_encodePrefix bounded.hosts] at table2
  rw [flatMap_encodePrefix bounded.networks] at table3
  have header :
      slice bytes 0 headerLen = encodeHeader presence.body presence.networkFingerprint := by
    subst isPresence
    exact (encodeHeader_iff (by omega) _ _).mpr ⟨isMagic, isVersion, transit_iff.mp ⟨flags, rfl⟩,
      (count_iff (bounded.addresses.trans (by decide))).mp count1,
      (count_iff bounded.prefixes).mp count3, (count_iff bounded.links).mp count4,
      (count_iff (bounded.nodeAddresses.trans (by decide))).mp count2, reserved, rfl, rfl, rfl,
      isOwner, isFingerprint⟩
  have field1 : addresses = presence.body.directAddresses := by subst isPresence; rfl
  have field2 : nodes = presence.body.nodeAddresses := by subst isPresence; rfl
  have field3 : prefixes = presence.body.prefixes := by subst isPresence; rfl
  have field4 : links = presence.body.links := by subst isPresence; rfl
  have field5 : signature = presence.signature := by subst isPresence; rfl
  have field6 : tag = presence.membershipTag := by subst isPresence; rfl
  have wellFormed : presence.body.WellFormed := by subst isPresence; exact ⟨valid, canonical⟩
  subst field1 field2 field3 field4 field5 field6
  refine ⟨wellFormed, plain, ?_⟩
  exact (wire_iff presence length _ _ _ _ rfl rfl rfl rfl).mpr
    ⟨header, table1, table2, table3, table4, isSignature, isTag⟩

theorem decode_complete (wellFormed : presence.body.WellFormed)
    (plain : ∀ address ∈ presence.body.directAddresses, address.Plain)
    (isWire : bytes = presence.wire) : decode bytes = .ok presence := by
  have bounded := bounded_of_valid wellFormed.valid
  have fits := unsignedLen_le bounded
  have length : bytes.length = presence.body.unsignedLen + trailerLen := by
    rw [isWire, wire_length]
  obtain ⟨header, table1, table2, table3, table4, isSignature, isTag⟩ :=
    (wire_iff presence length _ _ _ _ rfl rfl rfl rfl).mp isWire
  have long : headerLen + trailerLen ≤ bytes.length := by
    rw [length]
    simp only [PresenceBodyV2.unsignedLen, unsignedLen]
    omega
  obtain ⟨isMagic, isVersion, flag, field1, field3, field4, field2, reserved, sequence, issued,
    expires, isOwner, isFingerprint⟩ := (encodeHeader_iff (by omega) _ _).mp header
  obtain ⟨flags, transit⟩ := transit_iff.mpr flag
  have count1 := (count_iff (bounded.addresses.trans (by decide))).mpr field1
  have count2 := (count_iff (bounded.nodeAddresses.trans (by decide))).mpr field2
  have count3 := (count_iff bounded.prefixes).mpr field3
  have count4 := (count_iff bounded.links).mpr field4
  have total := length
  simp only [PresenceBodyV2.unsignedLen, unsignedLen, trailerLen] at total
  rw [← flatMap_encodePrefix bounded.hosts] at table2
  rw [← flatMap_encodePrefix bounded.networks] at table3
  simp only [decode, do_eq_ok, fromBytes_eq_ok_iff, key32At_eq_ok_iff, signatureAt_eq_ok_iff,
    count1, count2, count3, count4, sequence, issued, expires, transit]
  refine ⟨⟨long, length ▸ fits⟩, isMagic, isVersion, flags, reserved,
    ⟨bounded.addresses, bounded.nodeAddresses, bounded.prefixes, bounded.links⟩, length,
    presence.body.owner, isOwner, presence.networkFingerprint, isFingerprint,
    presence.body.directAddresses, ?_, presence.body.nodeAddresses, ?_, presence.body.prefixes,
    ?_, presence.body.links, ?_, presence.signature, isSignature, presence.membershipTag, isTag,
    wellFormed.valid, wellFormed.canonical, rfl⟩
  · exact (address_codec.decodeEntries_ok_iff bytes _ _ (by omega) _).mpr ⟨rfl, plain, table1⟩
  · exact (prefix_codec.decodeEntries_ok_iff bytes _ _ (by omega) _).mpr
      ⟨rfl, fun _ _ => trivial, table2⟩
  · exact (prefix_codec.decodeEntries_ok_iff bytes _ _ (by omega) _).mpr
      ⟨rfl, fun _ _ => trivial, table3⟩
  · exact (link_codec.decodeEntries_ok_iff bytes _ _ (by omega) _).mpr
      ⟨rfl, fun _ _ => trivial, table4⟩

/-- The decoder accepts exactly the encodings of well-formed records with plain addresses. -/
theorem decode_ok_iff : decode bytes = .ok presence ↔ presence.body.WellFormed ∧
      (∀ address ∈ presence.body.directAddresses, address.Plain) ∧ bytes = presence.wire :=
  ⟨decode_sound, fun ⟨wellFormed, plain, isWire⟩ => decode_complete wellFormed plain isWire⟩

/-! ### Both directions -/

variable [Blake3]

/-- A signed record is well-formed, and carries the body in canonical order. -/
theorem sign_wellFormed {secretKey : SecretKey} {networkId : String}
    (signed : sign body secretKey networkId =
      .ok presence) : presence.body = canonicalizeBody body ∧ presence.body.WellFormed := by
  simp only [sign, do_eq_ok] at signed
  obtain ⟨-, valid, canonical, unsigned, -, rfl⟩ := signed
  exact ⟨rfl, valid, canonical⟩

/-- A record comes back from the wire exactly if none of its direct addresses has flow information
or a scope; and whatever is decoded encodes to the bytes it came from. -/
theorem presence_round_trip :
    (∀ (body : PresenceBodyV2) (secretKey : SecretKey) (networkId : String)
      (presence : SignedPresenceV2),
      sign body secretKey networkId = .ok presence →
      ((presence.encode >>= decode) = .ok presence ↔
        ∀ address ∈ body.directAddresses, address.flowinfo = 0 ∧ address.scopeId = 0)) ∧
    ∀ (bytes : Bytes) (presence : SignedPresenceV2),
      decode bytes = .ok presence → presence.encode = .ok bytes := by
  constructor
  · intro body secretKey networkId presence signed
    obtain ⟨isBody, wellFormed⟩ := sign_wellFormed signed
    have same : ∀ address, address ∈ presence.body.directAddresses ↔
        address ∈ body.directAddresses := by
      intro address
      rw [isBody, canonicalizeBody, mem_sortByKey]
    rw [encode_of_wellFormed wellFormed, ok_bind, decode_ok_iff]
    simp [wellFormed, SocketAddr.plain_iff, same]
  · intro bytes presence decoded
    obtain ⟨wellFormed, -, isWire⟩ := decode_ok_iff.mp decoded
    rw [encode_of_wellFormed wellFormed, ← isWire]

end

/-! ### A scoped address -/

/-- Every key is valid and every signature holds. -/
@[reducible] def openIroh : Iroh := ⟨fun _ => true, fun _ _ _ => true⟩

/-- A digest that says nothing about its input. -/
@[reducible] def constantBlake3 : Blake3 := ⟨fun _ _ => .ofNat 1, fun _ _ => .ofNat 1⟩

section
attribute [local instance] openIroh constantBlake3

def exampleId (value : Nat) : EndpointId := ⟨.ofNat value, rfl⟩

def exampleSecret (value : Nat) : SecretKey :=
  ⟨exampleId value, fun _ => ⟨zeros 64, rfl⟩⟩

/-- A record with one direct address, under some scope. -/
def scopedBody (scopeId : UInt32) : PresenceBodyV2 where
  owner := exampleId 7
  sequence := 1
  issuedUnixSecs := 1000
  expiresUnixSecs := 1180
  directAddresses := [.v6 0xfe800000000000000000000000000001#128 443 0 scopeId]
  nodeAddresses := []
  prefixes := []
  links := []
  transitEnabled := false

def scopedPresence (scopeId : UInt32) : SignedPresenceV2 :=
  ⟨scopedBody scopeId, .ofNat 1, ⟨zeros 64, rfl⟩, .ofNat 1⟩

theorem scopedBody_wellFormed : (scopedBody 0).WellFormed ∧ (scopedBody 3).WellFormed := by
  have evaluated : (validateBody (scopedBody 0) none).toOption.isSome ∧
      (validateBody (scopedBody 3) none).toOption.isSome ∧ isCanonical (scopedBody 0) = true ∧
        isCanonical (scopedBody 3) = true := by
    decide
  obtain ⟨first, second, canonical, canonicalToo⟩ := evaluated
  exact ⟨⟨eq_ok_getD () first, canonical⟩, ⟨eq_ok_getD () second, canonicalToo⟩⟩

theorem scopedPresence_signed {scopeId : UInt32} (wellFormed : (scopedBody scopeId).WellFormed) :
    sign (scopedBody scopeId) (exampleSecret 7) "network" =
      .ok (scopedPresence scopeId) := by
  have canonical : canonicalizeBody (scopedBody scopeId) = scopedBody scopeId := rfl
  have owner : (scopedBody scopeId).owner = (exampleSecret 7).publicKey := rfl
  rw [sign, ensure_of _ _ owner, ok_bind]
  dsimp only
  rw [canonical, wellFormed.valid, ok_bind, ensure_of _ _ wellFormed.canonical, ok_bind,
    encodeUnsigned_of_valid wellFormed.valid, ok_bind]
  rfl

/-- A link-local address with its scope is signed and encoded, and comes back without the scope. -/
theorem scoped_presence_changes :
    sign (scopedBody 3) (exampleSecret 7) "network" = .ok (scopedPresence 3) ∧
      (scopedPresence 3).encode = (scopedPresence 0).encode ∧
        ((scopedPresence 3).encode >>= decode) = .ok (scopedPresence 0) ∧
          scopedPresence 3 ≠ scopedPresence 0 := by
  obtain ⟨plain, wellFormed⟩ := scopedBody_wellFormed
  have same : (scopedPresence 3).wire = (scopedPresence 0).wire := rfl
  have encoded : (scopedPresence 3).encode = (scopedPresence 0).encode := by
    rw [encode_of_wellFormed wellFormed, encode_of_wellFormed plain, same]
  refine ⟨scopedPresence_signed wellFormed, encoded, ?_, by decide⟩
  rw [encoded, encode_of_wellFormed plain, ok_bind]
  refine decode_ok_iff.mpr ⟨plain, ?_, rfl⟩
  intro address member
  obtain rfl := mem_singleton.mp member
  rfl

/-- Without a scope the same record round-trips. -/
theorem presence_round_trip_unscoped :
    ((scopedPresence 0).encode >>= decode) = .ok (scopedPresence 0) := by
  have signed := scopedPresence_signed scopedBody_wellFormed.1
  refine (presence_round_trip.1 _ _ _ _ signed).mpr ?_
  intro address member
  obtain rfl := mem_singleton.mp member
  exact ⟨rfl, rfl⟩

end
end Ironet.Mesh
