import Crossover.Mod.Network
import Crossover.Server.PlayerTable

/-!
# WireFormat — the two code bases write and read the same bytes

`Message.bytes` is the layout both sides keep by hand.  What the server's and the mod's encoders
write is this layout, and reading it gives back the fields: `Session.receive` is the mod's
dispatcher on typed messages.
-/

namespace Crossover

open Wire

/-! ## The mod reads what a message says -/

namespace Mod
namespace Session

variable {σ : Type}

/-- The roster callback over the decoded records. -/
def createEach (E : Engine σ) : List RosterEntry → Session σ → Except Fault (Session σ)
  | [], s => .ok s
  | entry :: entries, s =>
      match s.createNetPlayers E entry.networkId entry.position entry.defGlobalIndex with
      | .error fault => .error fault
      | .ok s => createEach E entries s

/-- What the dispatcher does with a message from an address. -/
def receive (E : Engine σ) (s : Session σ) (address : SystemAddress) :
    Message → Except Fault (Session σ)
  | .connectionNotification => s.handleConnectionNotification E address
  | .createLocalNetPlayer networkId position =>
      let self : Connection := { address := s.network.boundAddress, networkId := networkId }
      let s := { s with network := { s.network with self := self } }
      .ok (s.createLocalNetPlayer E networkId position)
  | .createNetPlayer networkId defGlobalIndex position =>
      s.createNetPlayer E networkId position defGlobalIndex
  | .createNetPlayers entries => createEach E entries s
  | .destroyNetPlayer networkId => s.destroyNetPlayer E networkId
  | .playerMovement networkId position acceleration =>
      .ok (s.receiveNetPlayerMovement networkId position acceleration)
  | .playerRotation networkId up forward => .ok (s.receiveNetPlayerRotation networkId up forward)

theorem remaining_payload {packet : Packet} {id : UInt8} {body : List UInt8}
    (hdata : packet.data = id :: body) : (payload packet).Remaining body := by
  have hall := BitStream.remaining_ofData packet.data
  rw [hdata] at hall
  have hbody := hall.ignoreBytes [id]
  simpa [payload, hdata] using hbody

section Reads

variable {bs : BitStream} {rest : List UInt8}

theorem readCreateLocalNetPlayer_of_remaining {networkId : Int32} {position : Vec3}
    (h : bs.Remaining (encode networkId ++ (encode position ++ rest))) :
    readCreateLocalNetPlayer bs = (networkId, position) := by
  have hid := h.read (-1 : Int32)
  have hposition := hid.2.read ({} : Vec3)
  simp [readCreateLocalNetPlayer, hid.1, hposition.1]

theorem readCreateNetPlayer_of_remaining {entry : RosterEntry} (unassigned : Int32)
    (h : bs.Remaining (entry.bytes ++ rest)) :
    (readCreateNetPlayer unassigned bs).1 =
        (entry.networkId, entry.defGlobalIndex, entry.position) ∧
      (readCreateNetPlayer unassigned bs).2.Remaining rest := by
  rw [RosterEntry.bytes, List.append_assoc, List.append_assoc] at h
  have hid := h.read (-1 : Int32)
  have hdef := hid.2.read unassigned
  have hposition := hdef.2.read ({} : Vec3)
  refine ⟨?_, hposition.2⟩
  simp [readCreateNetPlayer, hid.1, hdef.1, hposition.1]

theorem readMotion_of_remaining {networkId : Int32} {first second : Vec3}
    (h : bs.Remaining (encode networkId ++ (encode first ++ (encode second ++ rest)))) :
    readMotion bs = (networkId, first, second) := by
  have hid := h.read (-1 : Int32)
  have hfirst := hid.2.read ({} : Vec3)
  have hsecond := hfirst.2.read ({} : Vec3)
  simp [readMotion, hid.1, hfirst.1, hsecond.1]

/-- The roster loop over a stream that begins with the records. -/
theorem createNetPlayersLoop_of_remaining (E : Engine σ) {entries : List RosterEntry}
    (h : bs.Remaining (entries.flatMap RosterEntry.bytes ++ rest)) (s : Session σ) :
    createNetPlayersLoop E entries.length bs s = createEach E entries s := by
  induction entries generalizing bs s with
  | nil => rfl
  | cons entry entries ih =>
    rw [List.flatMap_cons, List.append_assoc] at h
    have hentry := readCreateNetPlayer_of_remaining (E.indeterminate s.engine) h
    simp only [List.length_cons, createNetPlayersLoop, createEach, hentry.1]
    cases s.createNetPlayers E entry.networkId entry.position entry.defGlobalIndex with
    | error fault => rfl
    | ok s' => exact ih hentry.2 s'

end Reads

/-- Handing the dispatcher bytes that begin with a message is handing it the message: nothing looks
at what follows. -/
theorem update_of_prefix (E : Engine σ) (rounds : Nat) {s : Session σ} {packet : Packet}
    {m : Message} {rest : List UInt8} (hactive : s.network.active = true)
    (hdata : packet.data = m.bytes ++ rest) (hm : m.Countable) :
    s.update E rounds packet = s.receive E packet.systemAddress m := by
  have hkind : packet.kind = m.kind := Packet.kind_of_prefix hdata
  cases m with
  | connectionNotification =>
    simp [update, hactive, hkind, Message.kind, receive]
  | createLocalNetPlayer networkId position =>
    have hbody : (payload packet).Remaining (encode networkId ++ (encode position ++ rest)) :=
      remaining_payload (by simpa [Message.bytes] using hdata)
    have hid := (hbody.read (-1 : Int32)).1
    simp [update, hactive, hkind, Message.kind, receive, handleCreateLocalNetPlayer, hid,
      readCreateLocalNetPlayer_of_remaining hbody]
  | createNetPlayer networkId defGlobalIndex position =>
    have hbody : (payload packet).Remaining
        (RosterEntry.bytes ⟨networkId, defGlobalIndex, position⟩ ++ rest) :=
      remaining_payload (by simpa [Message.bytes, RosterEntry.bytes] using hdata)
    have hentry := readCreateNetPlayer_of_remaining (E.indeterminate s.engine) hbody
    simp [update, hactive, hkind, Message.kind, receive, handleCreateNetPlayer, hentry.1]
  | createNetPlayers entries =>
    have hbody : (payload packet).Remaining
        (encode (Int32.ofNat entries.length) ++ (entries.flatMap RosterEntry.bytes ++ rest)) :=
      remaining_payload (by simpa [Message.bytes] using hdata)
    have hcount := hbody.read (0 : Int32)
    -- The count is read as an `int`; a countable roster survives that.
    have hlength : (Int32.ofNat entries.length).toNatClampNeg = entries.length := by
      rw [Int32.toNatClampNeg, Int32.toInt_ofNat_of_lt hm, Int.toNat_natCast]
    simp only [update, hactive, hkind, Message.kind, receive, handleCreateNetPlayers, hcount.1,
      hlength]
    simpa using createNetPlayersLoop_of_remaining E hcount.2 s
  | destroyNetPlayer networkId =>
    have hbody : (payload packet).Remaining (encode networkId ++ rest) :=
      remaining_payload (by simpa [Message.bytes] using hdata)
    have hid := (hbody.read (-1 : Int32)).1
    simp [update, hactive, hkind, Message.kind, receive, handleDestroyNetPlayer, hid]
  | playerMovement networkId position acceleration =>
    have hbody : (payload packet).Remaining
        (encode networkId ++ (encode position ++ (encode acceleration ++ rest))) :=
      remaining_payload (by simpa [Message.bytes] using hdata)
    simp [update, hactive, hkind, Message.kind, receive, handleNetPlayerMovement,
      readMotion_of_remaining hbody]
  | playerRotation networkId up forward =>
    have hbody : (payload packet).Remaining
        (encode networkId ++ (encode up ++ (encode forward ++ rest))) :=
      remaining_payload (by simpa [Message.bytes] using hdata)
    simp [update, hactive, hkind, Message.kind, receive, handleNetPlayerRotation,
      readMotion_of_remaining hbody]

/-- Handing the dispatcher the bytes of a message is handing it the message. -/
theorem update_of_bytes (E : Engine σ) (rounds : Nat) {s : Session σ} {packet : Packet}
    {m : Message} (hactive : s.network.active = true) (hdata : packet.data = m.bytes)
    (hm : m.Countable) :
    s.update E rounds packet = s.receive E packet.systemAddress m :=
  have hall : packet.data = m.bytes ++ [] := by rw [hdata, List.append_nil]
  update_of_prefix E rounds hactive hall hm

end Session
end Mod

/-! ## The server reads what a message says -/

namespace Server

theorem readCreateNetPlayer_of_bytes {packet : Packet} {networkId defGlobalIndex : Int32}
    {position : Vec3}
    (h : packet.data = (Message.createNetPlayer networkId defGlobalIndex position).bytes) :
    readCreateNetPlayer packet = (networkId, defGlobalIndex, position) := by
  have hbody : (Mod.Session.payload packet).Remaining
      (RosterEntry.bytes ⟨networkId, defGlobalIndex, position⟩ ++ []) :=
    Mod.Session.remaining_payload (by simpa [Message.bytes, RosterEntry.bytes] using h)
  exact (Mod.Session.readCreateNetPlayer_of_remaining 0 hbody).1

theorem readMotion_of_bytes (id : UInt8) {packet : Packet} {networkId : Int32}
    {first second : Vec3}
    (h : packet.data = id :: (encode networkId ++ (encode first ++ (encode second ++ [])))) :
    readMotion packet = (networkId, first, second) :=
  Mod.Session.readMotion_of_remaining (Mod.Session.remaining_payload h)

end Server

/-! ## Agreement -/

/-- The stream holds the encoding of `m`, with the length `Protocol.h` gives for it. -/
def Encodes (bs : BitStream) (m : Message) : Prop :=
  bs.data = m.bytes ∧ bs.data.length = m.size

theorem encodes_of_data {bs : BitStream} {m : Message} (h : bs.data = m.bytes) : Encodes bs m :=
  ⟨h, by rw [h, m.length_bytes]⟩

/-- The roster the server writes for these players. -/
def rosterOfPlayers (players : List Server.Player) : Message :=
  .createNetPlayers (players.map Server.Player.rosterEntry)

/-- The mod decodes the stream as `m`: its dispatcher calls the manager with exactly the fields of
`m`, whatever the game and the session are. -/
def ModReads (bs : BitStream) (m : Message) : Prop :=
  ∀ {σ : Type} (E : Mod.Engine σ) (rounds : Nat) (s : Mod.Session σ) (packet : Packet),
    s.network.active = true → packet.data = bs.data →
      s.update E rounds packet = s.receive E packet.systemAddress m

theorem modReads_of_encodes {bs : BitStream} {m : Message} (h : Encodes bs m)
    (hm : m.Countable) : ModReads bs m := by
  intro σ E rounds s packet hactive hdata
  exact Mod.Session.update_of_bytes E rounds hactive (hdata.trans h.1) hm

theorem encodes_createNetPlayers (players : List Server.Player) :
    Encodes (Server.createNetPlayersMessage players) (rosterOfPlayers players) := by
  apply encodes_of_data
  simp [Server.createNetPlayersMessage, Server.data_foldl_roster, rosterOfPlayers, Message.bytes]

/-- Wire-format agreement.  What the server encodes has the documented length and is decoded by
the mod with exactly the encoded fields; what a mod client encodes has the documented length and
kind, so the server's length checks let it pass, and is decoded by the server with exactly the
mod's fields.  A roster's count is an `int`; no reachable player vector is too long for it. -/
theorem wire_format_agreement :
    -- from the server to the mod
    (∀ networkId spawn,
      Encodes (Server.createLocalNetPlayerMessage networkId spawn)
          (.createLocalNetPlayer networkId spawn) ∧
        ModReads (Server.createLocalNetPlayerMessage networkId spawn)
          (.createLocalNetPlayer networkId spawn)) ∧
    (∀ networkId defGlobalIndex position,
      Encodes (Server.createNetPlayerMessage networkId defGlobalIndex position)
          (.createNetPlayer networkId defGlobalIndex position) ∧
        ModReads (Server.createNetPlayerMessage networkId defGlobalIndex position)
          (.createNetPlayer networkId defGlobalIndex position)) ∧
    (∀ players, Encodes (Server.createNetPlayersMessage players) (rosterOfPlayers players) ∧
      (players.length < 2 ^ 31 →
        ModReads (Server.createNetPlayersMessage players) (rosterOfPlayers players))) ∧
    (∀ config nowMs restored events,
      (Server.server.state (Server.start config nowMs restored) events).players.length < 2 ^ 31) ∧
    (∀ networkId,
      Encodes (Server.destroyNetPlayerMessage networkId) (.destroyNetPlayer networkId) ∧
        ModReads (Server.destroyNetPlayerMessage networkId) (.destroyNetPlayer networkId)) ∧
    (∀ networkId first second,
      (Encodes (Server.motionMessage idPlayerMovement networkId first second)
          (.playerMovement networkId first second) ∧
        ModReads (Server.motionMessage idPlayerMovement networkId first second)
          (.playerMovement networkId first second)) ∧
      Encodes (Server.motionMessage idPlayerRotation networkId first second)
          (.playerRotation networkId first second) ∧
        ModReads (Server.motionMessage idPlayerRotation networkId first second)
          (.playerRotation networkId first second)) ∧
    -- from the mod to the server
    (∀ packet : Packet, packet.data = (BitStream.write {} idConnectionNotification).data →
      packet.kind = .connectionNotification ∧ packet.length = kSizeConnectionNotification) ∧
    (∀ networkId defGlobalIndex position (packet : Packet),
      packet.data = (Mod.Session.createNetPlayerMessage networkId defGlobalIndex position).data →
        packet.kind = .createNetPlayer ∧ packet.length = kSizeCreateNetPlayer ∧
          Server.readCreateNetPlayer packet = (networkId, defGlobalIndex, position)) ∧
    (∀ networkId first second (packet : Packet),
      (packet.data = (Mod.Session.motionMessage idPlayerMovement networkId first second).data →
        packet.kind = .playerMovement ∧ packet.length = kSizePlayerMovement ∧
          Server.readMotion packet = (networkId, first, second)) ∧
      (packet.data = (Mod.Session.motionMessage idPlayerRotation networkId first second).data →
        packet.kind = .playerRotation ∧ packet.length = kSizePlayerRotation ∧
          Server.readMotion packet = (networkId, first, second))) := by
  have hmod : ∀ {bs : BitStream} {m : Message}, bs.data = m.bytes → m.Countable →
      Encodes bs m ∧ ModReads bs m := by
    intro bs m hdata hm
    have henc := encodes_of_data hdata
    exact ⟨henc, modReads_of_encodes henc hm⟩
  have hpacket : ∀ {packet : Packet} {m : Message}, packet.data = m.bytes →
      packet.kind = m.kind ∧ packet.length = m.size := by
    intro packet m hdata
    exact ⟨Packet.kind_of_bytes hdata, Packet.length_of_bytes hdata⟩
  refine ⟨?_, ?_, ?_, ?_, ?_, ?_, ?_, ?_, ?_⟩
  · intro networkId spawn
    exact hmod rfl trivial
  · intro networkId defGlobalIndex position
    exact hmod rfl trivial
  · intro players
    refine ⟨encodes_createNetPlayers players, ?_⟩
    intro hlen
    apply modReads_of_encodes (encodes_createNetPlayers players)
    simpa [rosterOfPlayers, Message.Countable] using hlen
  · intro config nowMs restored events
    exact (Server.serverInv_run config nowMs restored events).table.length_lt
  · intro networkId
    exact hmod rfl trivial
  · intro networkId first second
    exact ⟨hmod rfl trivial, hmod rfl trivial⟩
  · intro packet hdata
    exact hpacket (m := .connectionNotification) hdata
  · intro networkId defGlobalIndex position packet hdata
    have hkind := hpacket (m := .createNetPlayer networkId defGlobalIndex position) hdata
    exact ⟨hkind.1, hkind.2, Server.readCreateNetPlayer_of_bytes hdata⟩
  · intro networkId first second packet
    refine ⟨?_, ?_⟩
    · intro hdata
      have hkind := hpacket (m := .playerMovement networkId first second) hdata
      have hbody := Server.readMotion_of_bytes idPlayerMovement
        (by simpa [Mod.Session.motionMessage] using hdata)
      exact ⟨hkind.1, hkind.2, hbody⟩
    · intro hdata
      have hkind := hpacket (m := .playerRotation networkId first second) hdata
      have hbody := Server.readMotion_of_bytes idPlayerRotation
        (by simpa [Mod.Session.motionMessage] using hdata)
      exact ⟨hkind.1, hkind.2, hbody⟩

end Crossover
