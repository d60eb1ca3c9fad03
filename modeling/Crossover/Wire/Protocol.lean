import Crossover.Wire.BitStream
import Mathlib.Algebra.Group.Nat.Defs

/-!
# Protocol — message ids, layouts and sizes

The ids and sizes of `Protocol.h` (which mirrors the mod's `NetworkMessages.h`) and the layout of
each message as a typed value.  `Message.bytes` is the layout; `Message.parse` reads it back and
rejects every byte string that is not exactly one message.
-/

namespace Crossover
namespace Wire

/-! ## Message ids -/

/-- The message ids this code base switches on: SLikeNet's own and `NetworkMessages`. -/
inductive MessageKind
  | connectionRequestAccepted
  | connectionAttemptFailed
  | newIncomingConnection
  | noFreeIncomingConnections
  | disconnectionNotification
  | connectionLost
  | incompatibleProtocolVersion
  | connectionNotification
  | createLocalNetPlayer
  | createNetPlayer
  | createNetPlayers
  | destroyNetPlayer
  | playerMovement
  | playerRotation
  | unknown
  deriving DecidableEq, Repr

namespace MessageKind

/-- The value of the enumerator in SLikeNet's `DefaultMessageIDTypes` or in `NetworkMessages`. -/
def byte : MessageKind → Option UInt8
  | .connectionRequestAccepted => some 16
  | .connectionAttemptFailed => some 17
  | .newIncomingConnection => some 19
  | .noFreeIncomingConnections => some 20
  | .disconnectionNotification => some 21
  | .connectionLost => some 22
  | .incompatibleProtocolVersion => some 25
  | .connectionNotification => some 134
  | .createLocalNetPlayer => some 135
  | .createNetPlayer => some 136
  | .createNetPlayers => some 137
  | .destroyNetPlayer => some 138
  | .playerMovement => some 139
  | .playerRotation => some 140
  | .unknown => none

def named : List MessageKind :=
  [.connectionRequestAccepted, .connectionAttemptFailed, .newIncomingConnection,
    .noFreeIncomingConnections, .disconnectionNotification, .connectionLost,
    .incompatibleProtocolVersion, .connectionNotification, .createLocalNetPlayer,
    .createNetPlayer, .createNetPlayers, .destroyNetPlayer, .playerMovement, .playerRotation]

/-- The case a `switch (packet->data[0])` takes. -/
def ofByte (b : UInt8) : MessageKind :=
  (named.find? fun kind => kind.byte == some b).getD .unknown

/-- A named kind was recognised by its byte. -/
theorem byte_of_ofByte {b : UInt8} {kind : MessageKind} (h : ofByte b = kind)
    (hnamed : kind ≠ .unknown) : kind.byte = some b := by
  unfold ofByte at h
  cases hfind : named.find? fun kind => kind.byte == some b with
  | none =>
    rw [hfind] at h
    exact absurd h.symm hnamed
  | some found =>
    rw [hfind] at h
    have hbyte := List.find?_some hfind
    obtain rfl : found = kind := h
    simpa using hbyte

end MessageKind

def idConnectionNotification : UInt8 := 134
def idCreateLocalNetPlayer : UInt8 := 135
def idCreateNetPlayer : UInt8 := 136
def idCreateNetPlayers : UInt8 := 137
def idDestroyNetPlayer : UInt8 := 138
def idPlayerMovement : UInt8 := 139
def idPlayerRotation : UInt8 := 140

/-! ## Sizes -/

def kMsgIdBytes : Nat := 1
def kIntBytes : Nat := 4
def kVec3Bytes : Nat := 12

def kSizeConnectionNotification : Nat := kMsgIdBytes
def kSizeCreateLocalNetPlayer : Nat := kMsgIdBytes + kIntBytes + kVec3Bytes
def kSizeCreateNetPlayer : Nat := kMsgIdBytes + kIntBytes * 2 + kVec3Bytes
def kSizeCreateNetPlayersHeader : Nat := kMsgIdBytes + kIntBytes
def kSizeCreateNetPlayersEntry : Nat := kIntBytes * 2 + kVec3Bytes
def kSizeDestroyNetPlayer : Nat := kMsgIdBytes + kIntBytes
def kSizePlayerMovement : Nat := kMsgIdBytes + kIntBytes + kVec3Bytes * 2
def kSizePlayerRotation : Nat := kMsgIdBytes + kIntBytes + kVec3Bytes * 2

def kFirstClientNetworkId : Int32 := 1

/-! ## Messages -/

/-- One record of an `ID_CREATE_NET_PLAYERS` message. -/
structure RosterEntry where
  networkId : Int32
  defGlobalIndex : Int32
  position : Vec3
  deriving DecidableEq, Repr

/-- The messages of `NetworkMessages` with their fields. -/
inductive Message
  | connectionNotification
  | createLocalNetPlayer (networkId : Int32) (position : Vec3)
  | createNetPlayer (networkId defGlobalIndex : Int32) (position : Vec3)
  | createNetPlayers (entries : List RosterEntry)
  | destroyNetPlayer (networkId : Int32)
  | playerMovement (networkId : Int32) (position acceleration : Vec3)
  | playerRotation (networkId : Int32) (up forward : Vec3)
  deriving DecidableEq, Repr

def RosterEntry.bytes (entry : RosterEntry) : List UInt8 :=
  encode entry.networkId ++ encode entry.defGlobalIndex ++ encode entry.position

namespace Message

/-- The wire layout. -/
def bytes : Message → List UInt8
  | .connectionNotification => encode idConnectionNotification
  | .createLocalNetPlayer networkId position =>
      encode idCreateLocalNetPlayer ++ encode networkId ++ encode position
  | .createNetPlayer networkId defGlobalIndex position =>
      encode idCreateNetPlayer ++ encode networkId ++ encode defGlobalIndex ++ encode position
  | .createNetPlayers entries =>
      encode idCreateNetPlayers ++ encode (Int32.ofNat entries.length) ++
        entries.flatMap RosterEntry.bytes
  | .destroyNetPlayer networkId => encode idDestroyNetPlayer ++ encode networkId
  | .playerMovement networkId position acceleration =>
      encode idPlayerMovement ++ encode networkId ++ encode position ++ encode acceleration
  | .playerRotation networkId up forward =>
      encode idPlayerRotation ++ encode networkId ++ encode up ++ encode forward

def kind : Message → MessageKind
  | .connectionNotification => .connectionNotification
  | .createLocalNetPlayer .. => .createLocalNetPlayer
  | .createNetPlayer .. => .createNetPlayer
  | .createNetPlayers .. => .createNetPlayers
  | .destroyNetPlayer .. => .destroyNetPlayer
  | .playerMovement .. => .playerMovement
  | .playerRotation .. => .playerRotation

/-- The length `Protocol.h` gives for the message. -/
def size : Message → Nat
  | .connectionNotification => kSizeConnectionNotification
  | .createLocalNetPlayer .. => kSizeCreateLocalNetPlayer
  | .createNetPlayer .. => kSizeCreateNetPlayer
  | .createNetPlayers entries =>
      kSizeCreateNetPlayersHeader + kSizeCreateNetPlayersEntry * entries.length
  | .destroyNetPlayer .. => kSizeDestroyNetPlayer
  | .playerMovement .. => kSizePlayerMovement
  | .playerRotation .. => kSizePlayerRotation

/-- `n` roster records read off the front of a byte string. -/
def parseEntries : Nat → List UInt8 → List RosterEntry
  | 0, _ => []
  | n + 1, body =>
      { networkId := decode (body.take 4)
        defGlobalIndex := decode ((body.drop 4).take 4)
        position := decode ((body.drop 8).take 12) } ::
        parseEntries n (body.drop 20)

/-- The message a byte string is, if it is exactly one message. -/
def parse : List UInt8 → Option Message
  | [] => none
  | b :: body =>
      match MessageKind.ofByte b with
      | .connectionNotification =>
          if body.length = 0 then some .connectionNotification else none
      | .createLocalNetPlayer =>
          if body.length = 16 then
            some (.createLocalNetPlayer (decode (body.take 4)) (decode (body.drop 4)))
          else none
      | .createNetPlayer =>
          if body.length = 20 then
            some (.createNetPlayer (decode (body.take 4)) (decode ((body.drop 4).take 4))
              (decode (body.drop 8)))
          else none
      | .createNetPlayers =>
          let count := (decode (body.take 4) : Int32).toNatClampNeg
          if body.length = 4 + 20 * count then
            some (.createNetPlayers (parseEntries count (body.drop 4)))
          else none
      | .destroyNetPlayer =>
          if body.length = 4 then some (.destroyNetPlayer (decode body)) else none
      | .playerMovement =>
          if body.length = 28 then
            some (.playerMovement (decode (body.take 4)) (decode ((body.drop 4).take 12))
              (decode (body.drop 16)))
          else none
      | .playerRotation =>
          if body.length = 28 then
            some (.playerRotation (decode (body.take 4)) (decode ((body.drop 4).take 12))
              (decode (body.drop 16)))
          else none
      | _ => none

end Message

/-! ## Lengths -/

@[simp] theorem RosterEntry.length_bytes (entry : RosterEntry) : entry.bytes.length = 20 := by
  simp [RosterEntry.bytes]

theorem length_flatMap_bytes (entries : List RosterEntry) :
    (entries.flatMap RosterEntry.bytes).length = 20 * entries.length := by
  induction entries with
  | nil => rfl
  | cons entry entries ih =>
    simp [ih]
    omega

namespace Message

theorem length_bytes (m : Message) : m.bytes.length = m.size := by
  cases m with
  | createNetPlayers entries =>
    have hentries := length_flatMap_bytes entries
    simp only [bytes, List.length_append, length_encode, hentries]
    rfl
  | _ => rfl

theorem head?_bytes (m : Message) : m.bytes.head?.map MessageKind.ofByte = some m.kind := by
  cases m <;> rfl

end Message

/-! ## Round trip -/

namespace Message

theorem parseEntries_flatMap (entries : List RosterEntry) (rest : List UInt8) :
    parseEntries entries.length (entries.flatMap RosterEntry.bytes ++ rest) = entries := by
  induction entries with
  | nil => rfl
  | cons entry entries ih =>
    have hid : (encode entry.networkId).length = 4 := length_encode _
    have hdef : (encode entry.defGlobalIndex).length = 4 := length_encode _
    have hpos : (encode entry.position).length = 12 := length_encode _
    simp only [List.length_cons, parseEntries, List.flatMap_cons, RosterEntry.bytes,
      List.append_assoc]
    rw [List.take_left' hid, List.drop_left' hid, List.take_left' hdef]
    have hdrop8 : ∀ tail : List UInt8,
        (encode entry.networkId ++ (encode entry.defGlobalIndex ++ tail)).drop 8 = tail := by
      intro tail
      rw [← List.append_assoc, List.drop_left' (by simp [hid, hdef])]
    have hdrop20 : ∀ tail : List UInt8,
        (encode entry.networkId ++ (encode entry.defGlobalIndex ++
          (encode entry.position ++ tail))).drop 20 = tail := by
      intro tail
      rw [← List.append_assoc, ← List.append_assoc, List.drop_left' (by simp [hid, hdef, hpos])]
    rw [hdrop8, hdrop20, List.take_left' hpos]
    simp only [decode_encode]
    rw [ih]

/-- Parsing an encoded message returns it; a roster has to be short enough for its count. -/
theorem parse_bytes (m : Message)
    (hroster : ∀ entries, m = .createNetPlayers entries → entries.length < 2 ^ 31) :
    parse m.bytes = some m := by
  cases m with
  | connectionNotification => rfl
  | createLocalNetPlayer networkId position =>
    have hid : (encode networkId).length = 4 := length_encode _
    simp [bytes, parse, MessageKind.ofByte, MessageKind.named, MessageKind.byte,
      idCreateLocalNetPlayer, List.take_left' hid,
      List.drop_left' hid]
  | createNetPlayer networkId defGlobalIndex position =>
    have hid : (encode networkId).length = 4 := length_encode _
    have hdef : (encode defGlobalIndex).length = 4 := length_encode _
    have hdrop8 : (encode networkId ++ (encode defGlobalIndex ++ encode position)).drop 8 =
        encode position := by
      rw [← List.append_assoc, List.drop_left' (by simp [hid, hdef])]
    simp [bytes, parse, MessageKind.ofByte, MessageKind.named, MessageKind.byte,
      idCreateNetPlayer, List.take_left' hid,
      List.drop_left' hid, List.take_left' hdef, hdrop8]
  | createNetPlayers entries =>
    have hlen := hroster entries rfl
    have hcount : (encode (Int32.ofNat entries.length)).length = 4 := length_encode _
    have htoNat : (Int32.ofNat entries.length).toNatClampNeg = entries.length := by
      rw [Int32.toNatClampNeg, Int32.toInt_ofNat_of_lt hlen, Int.toNat_natCast]
    have hentries := parseEntries_flatMap entries []
    rw [List.append_nil] at hentries
    simp [bytes, parse, MessageKind.ofByte, MessageKind.named, MessageKind.byte,
      idCreateNetPlayers, List.take_left' hcount,
      List.drop_left' hcount, htoNat, hentries, Nat.mul_comm]
  | destroyNetPlayer networkId =>
    simp [bytes, parse, MessageKind.ofByte, MessageKind.named, MessageKind.byte,
      idDestroyNetPlayer]
  | playerMovement networkId position acceleration =>
    have hid : (encode networkId).length = 4 := length_encode _
    have hpos : (encode position).length = 12 := length_encode _
    have hdrop16 : (encode networkId ++ (encode position ++ encode acceleration)).drop 16 =
        encode acceleration := by
      rw [← List.append_assoc, List.drop_left' (by simp [hid, hpos])]
    simp [bytes, parse, MessageKind.ofByte, MessageKind.named, MessageKind.byte,
      idPlayerMovement, List.take_left' hid,
      List.drop_left' hid, List.take_left' hpos, hdrop16]
  | playerRotation networkId up forward =>
    have hid : (encode networkId).length = 4 := length_encode _
    have hup : (encode up).length = 12 := length_encode _
    have hdrop16 : (encode networkId ++ (encode up ++ encode forward)).drop 16 =
        encode forward := by
      rw [← List.append_assoc, List.drop_left' (by simp [hid, hup])]
    simp [bytes, parse, MessageKind.ofByte, MessageKind.named, MessageKind.byte,
      idPlayerRotation, List.take_left' hid,
      List.drop_left' hid, List.take_left' hup, hdrop16]

theorem length_parseEntries (n : Nat) (body : List UInt8) : (parseEntries n body).length = n := by
  induction n generalizing body with
  | zero => rfl
  | succ n ih => rw [parseEntries, List.length_cons, ih]

/-- As many records as fit are the bytes they were read from. -/
theorem flatMap_parseEntries (n : Nat) (body : List UInt8) (hfit : 20 * n ≤ body.length) :
    (parseEntries n body).flatMap RosterEntry.bytes = body.take (20 * n) := by
  induction n generalizing body with
  | zero => simp [parseEntries]
  | succ n ih =>
    have hid : (body.take 4).length = Pod.size Int32 := by
      rw [List.length_take, size_int]
      omega
    have hdef : ((body.drop 4).take 4).length = Pod.size Int32 := by
      rw [List.length_take, List.length_drop, size_int]
      omega
    have hpos : ((body.drop 8).take 12).length = Pod.size Vec3 := by
      rw [List.length_take, List.length_drop, size_vec3]
      omega
    have hrest := ih (body.drop 20) (by rw [List.length_drop]; omega)
    rw [parseEntries, List.flatMap_cons, hrest, RosterEntry.bytes]
    simp only [encode_decode _ hid, encode_decode _ hdef, encode_decode _ hpos]
    have hsum : 20 * (n + 1) = 4 + (4 + (12 + 20 * n)) := by omega
    rw [hsum, List.take_add, List.take_add (i := 4), List.take_add (i := 12), List.drop_drop,
      List.drop_drop]
    simp only [List.append_assoc]

/-- The fields of a motion message, written again. -/
theorem motionBytes_parsed {body : List UInt8} (hlength : body.length = 28) (id : UInt8) :
    encode id ++ encode (decode (body.take 4) : Int32) ++
        encode (decode ((body.drop 4).take 12) : Vec3) ++ encode (decode (body.drop 16) : Vec3) =
      id :: body := by
  have hid : encode (decode (body.take 4) : Int32) = body.take 4 :=
    encode_decode _ (by simp [hlength])
  have hfirst : encode (decode ((body.drop 4).take 12) : Vec3) = (body.drop 4).take 12 :=
    encode_decode _ (by simp [hlength])
  have hsecond : encode (decode (body.drop 16) : Vec3) = body.drop 16 :=
    encode_decode _ (by simp [hlength])
  have hsplit : body = body.take 4 ++ ((body.drop 4).take 12 ++ body.drop 16) := by
    conv_lhs => rw [← List.take_append_drop 4 body, ← List.take_append_drop 12 (body.drop 4),
      List.drop_drop]
  rw [hid, hfirst, hsecond, encode_messageID, List.append_assoc, List.append_assoc, ← hsplit]
  rfl

/-- What parses as a message other than a roster is that message's encoding.  (A roster of nobody
also parses with a negative count.) -/
theorem bytes_of_parse {data : List UInt8} {m : Message} (h : parse data = some m)
    (hfixed : m.kind ≠ .createNetPlayers) : m.bytes = data := by
  cases data with
  | nil => simp [parse] at h
  | cons b body =>
    have hbyte : ∀ {kind : MessageKind}, MessageKind.ofByte b = kind → kind ≠ .unknown →
        kind.byte = some b := MessageKind.byte_of_ofByte
    have hint : ∀ block : List UInt8, block.length = 4 → encode (decode block : Int32) = block :=
      fun _ hlength => encode_decode _ hlength
    have hvec : ∀ block : List UInt8, block.length = 12 → encode (decode block : Vec3) = block :=
      fun _ hlength => encode_decode _ hlength
    cases hkind : MessageKind.ofByte b with
    | connectionNotification =>
      obtain rfl : 134 = b := Option.some.inj (hbyte hkind (by decide))
      simp only [parse, hkind] at h
      split at h
      · rename_i hlength
        obtain rfl : connectionNotification = m := Option.some.inj h
        rw [List.length_eq_zero_iff.1 hlength]
        rfl
      · cases h
    | createLocalNetPlayer =>
      obtain rfl : 135 = b := Option.some.inj (hbyte hkind (by decide))
      simp only [parse, hkind] at h
      split at h
      · rename_i hlength
        obtain rfl := Option.some.inj h
        have hid := hint (body.take 4) (by simp [hlength])
        have hposition := hvec (body.drop 4) (by simp [hlength])
        simp only [bytes, hid, hposition, List.append_assoc, List.take_append_drop]
        rfl
      · cases h
    | createNetPlayer =>
      obtain rfl : 136 = b := Option.some.inj (hbyte hkind (by decide))
      simp only [parse, hkind] at h
      split at h
      · rename_i hlength
        obtain rfl := Option.some.inj h
        have hid := hint (body.take 4) (by simp [hlength])
        have hdef := hint ((body.drop 4).take 4) (by simp [hlength])
        have hposition := hvec (body.drop 8) (by simp [hlength])
        have hsplit : body = body.take 4 ++ ((body.drop 4).take 4 ++ body.drop 8) := by
          conv_lhs => rw [← List.take_append_drop 4 body, ← List.take_append_drop 4 (body.drop 4),
            List.drop_drop]
        simp only [bytes, hid, hdef, hposition, List.append_assoc, ← hsplit]
        rfl
      · cases h
    | createNetPlayers =>
      simp only [parse, hkind] at h
      split at h
      · obtain rfl := Option.some.inj h
        exact absurd rfl hfixed
      · cases h
    | destroyNetPlayer =>
      obtain rfl : 138 = b := Option.some.inj (hbyte hkind (by decide))
      simp only [parse, hkind] at h
      split at h
      · rename_i hlength
        obtain rfl := Option.some.inj h
        simp only [bytes, hint _ hlength]
        rfl
      · cases h
    | playerMovement =>
      obtain rfl : 139 = b := Option.some.inj (hbyte hkind (by decide))
      simp only [parse, hkind] at h
      split at h
      · rename_i hlength
        obtain rfl := Option.some.inj h
        rw [bytes, motionBytes_parsed hlength]
        rfl
      · cases h
    | playerRotation =>
      obtain rfl : 140 = b := Option.some.inj (hbyte hkind (by decide))
      simp only [parse, hkind] at h
      split at h
      · rename_i hlength
        obtain rfl := Option.some.inj h
        rw [bytes, motionBytes_parsed hlength]
        rfl
      · cases h
    | _ => simp [parse, hkind] at h

end Message
end Wire
end Crossover
