import Crossover.Wire.Protocol

/-!
# Peer — what a program hands to and gets from its RakNet peer

The packets `RakPeerInterface::Receive` returns and the calls both programs make on their peer.
-/

namespace Crossover
namespace Wire

/-- `SLNet::SystemAddress`, compared by IP and port. -/
structure SystemAddress where
  ip : UInt32
  port : UInt16
  deriving DecidableEq, Repr

/-- `SLNet::UNASSIGNED_SYSTEM_ADDRESS`. -/
def unassignedSystemAddress : SystemAddress :=
  { ip := 0xFFFFFFFF, port := 0xFFFF }

inductive PacketPriority
  | immediate
  | high
  | medium
  | low
  deriving DecidableEq, Repr

inductive PacketReliability
  | unreliable
  | unreliableSequenced
  | reliable
  | reliableOrdered
  | reliableSequenced
  deriving DecidableEq, Repr

/-- A received packet.  Its first byte is the message id, so a packet is never empty. -/
structure Packet where
  systemAddress : SystemAddress
  guid : UInt64
  data : List UInt8
  nonempty : data ≠ []

namespace Packet

/-- `packet->data[0]`. -/
def id (packet : Packet) : UInt8 :=
  packet.data.head packet.nonempty

def kind (packet : Packet) : MessageKind :=
  MessageKind.ofByte packet.id

/-- `packet->length`. -/
def length (packet : Packet) : Nat :=
  packet.data.length

theorem data_eq_cons (packet : Packet) : packet.data = packet.id :: packet.data.tail :=
  (List.cons_head_tail packet.nonempty).symm

theorem kind_of_prefix {packet : Packet} {m : Message} {rest : List UInt8}
    (h : packet.data = m.bytes ++ rest) : packet.kind = m.kind := by
  have hhead := m.head?_bytes
  cases hbytes : m.bytes with
  | nil => simp [hbytes] at hhead
  | cons id body =>
    rw [hbytes] at h hhead
    have hid : packet.id = id := by
      simpa using congrArg List.head? (packet.data_eq_cons.symm.trans h)
    rw [kind, hid]
    exact Option.some.inj hhead

theorem kind_of_bytes {packet : Packet} {m : Message} (h : packet.data = m.bytes) :
    packet.kind = m.kind := by
  rw [← List.append_nil m.bytes] at h
  exact kind_of_prefix h

theorem length_of_bytes {packet : Packet} {m : Message} (h : packet.data = m.bytes) :
    packet.length = m.size := by
  rw [length, h, m.length_bytes]

end Packet

/-- `peer->Send(data, length, priority, reliability, 0, address, false)`. -/
structure Send where
  data : List UInt8
  priority : PacketPriority
  reliability : PacketReliability
  address : SystemAddress
  deriving DecidableEq, Repr

/-- The calls a program makes on its peer. -/
inductive PeerCall
  | send (send : Send)
  | closeConnection (address : SystemAddress) (sendDisconnectionNotification : Bool)
  | shutdown (blockDuration : Nat)
  deriving DecidableEq, Repr

end Wire
end Crossover
