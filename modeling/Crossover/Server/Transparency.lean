import Mathlib.Data.List.Forall2
import Crossover.Server.Teardown

/-!
# Transparency — whose id a relayed message carries

The id a client claims is read and dropped: two runs that differ in claimed ids only are the same
run.  What is relayed is the sender's assigned id followed by the very bytes that came in.
-/

namespace Crossover
namespace Server

open Wire

/-! ## Packets that differ in the claimed id -/

/-- The length of the fixed part of the three messages a client has relayed. -/
def relayedLength : MessageKind → Option Nat
  | .createNetPlayer => some kSizeCreateNetPlayer
  | .playerMovement => some kSizePlayerMovement
  | .playerRotation => some kSizePlayerRotation
  | _ => none

/-- The packets agree, except perhaps in bytes 1 to 4 if they are of a relayed kind. -/
structure SameButClaim (p q : Packet) : Prop where
  address : p.systemAddress = q.systemAddress
  guid : p.guid = q.guid
  id : p.id = q.id
  length : p.length = q.length
  rest : p.data.drop 5 = q.data.drop 5
  claim : relayedLength p.kind = none → p.data = q.data

/-- The same event up to claimed ids. -/
inductive SameEvent : Event → Event → Prop
  | packet {p q : Packet} (tickMs handlerMs : Int) :
      SameButClaim p q → SameEvent (.packet p tickMs handlerMs) (.packet q tickMs handlerMs)
  | tickEnd (nowMs persistMs : Int) (writable : Bool) :
      SameEvent (.tickEnd nowMs persistMs writable) (.tickEnd nowMs persistMs writable)
  | stop (writable : Bool) : SameEvent (.stop writable) (.stop writable)

namespace SameButClaim

variable {p q : Packet}

theorem kind (h : SameButClaim p q) : p.kind = q.kind := by
  simp [Packet.kind, h.id]

/-- Outside the relayed kinds the packets are the same. -/
theorem eq_of_other (h : SameButClaim p q) (hother : relayedLength p.kind = none) : p = q := by
  have haddress := h.address
  have hguid := h.guid
  have hdata := h.claim hother
  cases p
  cases q
  simp_all

theorem handleCreateNetPlayer_eq (h : SameButClaim p q) (s : RelayServer) :
    s.handleCreateNetPlayer p = s.handleCreateNetPlayer q := by
  by_cases hlen : p.length < kSizeCreateNetPlayer
  · rw [handleCreateNetPlayer_short hlen, handleCreateNetPlayer_short (h.length ▸ hlen)]
  · have hp := readCreateNetPlayer_eq (Nat.not_lt.1 hlen)
    have hq := readCreateNetPlayer_eq (h.length ▸ Nat.not_lt.1 hlen)
    have hdrop9 : p.data.drop 9 = q.data.drop 9 := by
      have hrest := congrArg (List.drop 4) h.rest
      simpa using hrest
    have hfields : (readCreateNetPlayer p).2 = (readCreateNetPlayer q).2 := by
      rw [hp, hq, h.rest, hdrop9]
    simp only [RelayServer.handleCreateNetPlayer, h.length, h.address, hfields]

theorem handleMotion_eq (h : SameButClaim p q) (s : RelayServer) {minSize : Nat}
    (hmin : minSize = kSizePlayerMovement) (messageId : UInt8)
    (store : Vec3 → Vec3 → Player → Player) :
    s.handleMotion minSize messageId store p = s.handleMotion minSize messageId store q := by
  subst hmin
  by_cases hlen : p.length < kSizePlayerMovement
  · rw [handleMotion_short hlen, handleMotion_short (h.length ▸ hlen)]
  · have hp := readMotion_eq (Nat.not_lt.1 hlen)
    have hq := readMotion_eq (h.length ▸ Nat.not_lt.1 hlen)
    have hdrop17 : p.data.drop 17 = q.data.drop 17 := by
      have hrest := congrArg (List.drop 12) h.rest
      simpa using hrest
    have hfields : (readMotion p).2 = (readMotion q).2 := by
      rw [hp, hq, h.rest, hdrop17]
    simp only [RelayServer.handleMotion, h.length, h.address, hfields]

theorem dispatch_eq (h : SameButClaim p q) (s : RelayServer) (nowMs : Int) :
    s.dispatch p nowMs = s.dispatch q nowMs := by
  cases hkind : p.kind with
  | createNetPlayer =>
    simpa [RelayServer.dispatch, ← h.kind, hkind] using h.handleCreateNetPlayer_eq s
  | playerMovement =>
    simp only [RelayServer.dispatch, ← h.kind, hkind]
    exact h.handleMotion_eq s rfl _ _
  | playerRotation =>
    simp only [RelayServer.dispatch, ← h.kind, hkind]
    exact h.handleMotion_eq s rfl _ _
  | _ => rw [h.eq_of_other (by simp [relayedLength, hkind])]

end SameButClaim

/-- The server does not tell events apart that differ in claimed ids. -/
theorem step_sameEvent (s : RelayServer) (e f : Event) (h : SameEvent e f) :
    server.step s e = server.step s f := by
  cases h with
  | @packet p q tickMs handlerMs hpq =>
    have hbooked : s.bookkeep p tickMs = s.bookkeep q tickMs := by
      simp [RelayServer.bookkeep, hpq.address]
    simp only [server_step, step, RelayServer.tickPacket, hbooked, hpq.dispatch_eq]
  | tickEnd nowMs persistMs writable => rfl
  | stop writable => rfl

/-! ## What is relayed -/

theorem id_of_kind {packet : Packet} {kind : MessageKind} {id : UInt8} (h : packet.kind = kind)
    (hid : kind.byte = some id) : id = packet.id := by
  have hnamed : kind ≠ .unknown := by
    rintro rfl
    cases hid
  have hbyte := MessageKind.byte_of_ofByte h hnamed
  exact Option.some.inj (hid.symm.trans hbyte)

/-- The four bytes of an `int`, most significant first. -/
def bigEndian (n : Int32) : List UInt8 :=
  let w := n.toUInt32.toNat
  [UInt8.ofNat (w / 16777216), UInt8.ofNat (w / 65536), UInt8.ofNat (w / 256), UInt8.ofNat w]

theorem encode_int_eq (n : Int32) : encode n = bigEndian n :=
  rfl

/-- The sends of a message kind, as receiver and bytes. -/
def copiesOf (id : UInt8) (calls : List PeerCall) : List (SystemAddress × List UInt8) :=
  calls.filterMap fun call =>
    match call with
    | .send send => if send.data.head? = some id then some (send.address, send.data) else none
    | _ => none

/-- The sender has a record, has not used up its packets and, unless it announces itself just now,
has spawned. -/
structure Entitled (s : RelayServer) (packet : Packet) (tickMs : Int) (p : Player) : Prop where
  find : findByAddress s.players packet.systemAddress = some p
  rate : RateAdmits p tickMs
  spawned : packet.kind = .createNetPlayer ∨ p.spawned = true

@[simp] theorem copiesOf_append (id : UInt8) (calls more : List PeerCall) :
    copiesOf id (calls ++ more) = copiesOf id calls ++ copiesOf id more := by
  simp [copiesOf]

theorem copiesOf_relayMessage {id : UInt8} {m : Message} (hid : m.bytes.head? = some id)
    (players : List Player) (exceptId : Int32) :
    copiesOf id (relayMessage players exceptId m) =
      (recipients players exceptId).map fun p => (p.address, m.bytes) := by
  rw [relayMessage]
  induction recipients players exceptId with
  | nil => rfl
  | cons p l ih =>
    have hcopy : copiesOf id (m.sendTo p.address :: l.map fun p => m.sendTo p.address) =
        (p.address, m.bytes) :: copiesOf id (l.map fun p => m.sendTo p.address) := by
      simp [copiesOf, Message.sendTo, hid]
    rw [List.map_cons, hcopy, ih, List.map_cons]

/-- A roster is no copy of a create message. -/
theorem copiesOf_sendRoster (players : List Player) (receiver : Player) :
    copiesOf idCreateNetPlayer (sendRoster players receiver) = [] := by
  rw [sendRoster_eq]
  split
  · rfl
  · have hne : ¬ idCreateNetPlayers = idCreateNetPlayer := by decide
    simp [copiesOf, Message.sendTo, rosterMessage, Message.bytes, hne]

/-- Changing the sender's own record does not change who its messages go to. -/
theorem recipients_updateByAddress {players : List Player} {a : SystemAddress} {self : Player}
    {f : Player → Player} (hfind : findByAddress players a = some self)
    (hid : (f self).networkId = self.networkId) :
    recipients (updateByAddress a f players) self.networkId =
      recipients players self.networkId := by
  rcases exists_split_of_findByAddress f hfind with ⟨before, after, hsplit, hupdate⟩
  rw [hupdate, hsplit]
  simp [recipients, hid]

section Copies

variable {s : RelayServer} {packet : Packet} {self : Player} {tickMs : Int}

/-- The incoming bytes of a create message from offset 5 on are what the relayed fields encode. -/
theorem encode_readCreateNetPlayer (hlen : kSizeCreateNetPlayer ≤ packet.length) :
    encode (readCreateNetPlayer packet).2.1 ++ encode (readCreateNetPlayer packet).2.2 =
      (packet.data.take kSizeCreateNetPlayer).drop 5 := by
  have hlen' : 21 ≤ packet.data.length := hlen
  rw [readCreateNetPlayer_eq hlen]
  simp only
  rw [encode_decode _ (by simp; omega), encode_decode _ (by simp; omega)]
  calc
    (packet.data.drop 5).take 4 ++ (packet.data.drop 9).take 12
        = (packet.data.drop 5).take 4 ++ ((packet.data.drop 5).drop 4).take 12 := by simp
    _ = (packet.data.drop 5).take 16 := (List.take_add (i := 4) (j := 12)).symm
    _ = (packet.data.take kSizeCreateNetPlayer).drop 5 := by
          rw [List.drop_take]
          rfl

theorem encode_readMotion (hlen : kSizePlayerMovement ≤ packet.length) :
    encode (readMotion packet).2.1 ++ encode (readMotion packet).2.2 =
      (packet.data.take kSizePlayerMovement).drop 5 := by
  have hlen' : 29 ≤ packet.data.length := hlen
  rw [readMotion_eq hlen]
  simp only
  rw [encode_decode _ (by simp; omega), encode_decode _ (by simp; omega)]
  calc
    (packet.data.drop 5).take 12 ++ (packet.data.drop 17).take 12
        = (packet.data.drop 5).take 12 ++ ((packet.data.drop 5).drop 12).take 12 := by simp
    _ = (packet.data.drop 5).take 24 := (List.take_add (i := 12) (j := 12)).symm
    _ = (packet.data.take kSizePlayerMovement).drop 5 := by
          rw [List.drop_take]
          rfl

/-- Neither the bookkeeping nor an assignment to the sender's record changes who its messages go
to. -/
theorem recipients_after_bookkeep (tickMs : Int) {f : Player → Player}
    (hfind : findByAddress s.players packet.systemAddress = some self)
    (hid : ∀ q, (f q).networkId = q.networkId) :
    recipients (updateByAddress packet.systemAddress f (s.bookkeep packet tickMs).1.players)
        self.networkId = recipients s.players self.networkId := by
  have hfind' := find_bookkeep hfind tickMs
  have hafter := recipients_updateByAddress hfind' (hid _)
  rw [account_networkId] at hafter
  rw [hafter, bookkeep_of_find hfind]
  exact recipients_updateByAddress hfind (account_networkId self tickMs)

variable {config : Config} {handlerMs : Int}

theorem copies_of_create (hinv : ServerInv config s) (hkind : packet.kind = .createNetPlayer)
    (hlen : kSizeCreateNetPlayer ≤ packet.length) (hent : Entitled s packet tickMs self) :
    copiesOf packet.id (step s (.packet packet tickMs handlerMs)).2 =
      (recipients s.players self.networkId).map fun p =>
        (p.address, packet.id :: bigEndian self.networkId ++
          (packet.data.take kSizeCreateNetPlayer).drop 5) := by
  have hid : packet.id = idCreateNetPlayer := (id_of_kind hkind rfl).symm
  have hfind' := find_bookkeep hent.find tickMs
  rw [step_admitted hinv hent.find hent.rate]
  simp only [RelayServer.dispatch, hkind]
  rw [Server.handleCreateNetPlayer_eq hlen hfind', hid]
  simp only [copiesOf_append, copiesOf_sendRoster, List.append_nil, account_networkId]
  have hrecipients := recipients_after_bookkeep tickMs (f := Player.spawnAs
    (readCreateNetPlayer packet).2.1 (readCreateNetPlayer packet).2.2) hent.find fun _ => rfl
  rw [copiesOf_relayMessage rfl, hrecipients, ← encode_readCreateNetPlayer hlen]
  simp [Message.bytes, encode_int_eq]

theorem copies_of_motion (hinv : ServerInv config s) (messageId : UInt8)
    (store : Vec3 → Vec3 → Player → Player) {m : Message}
    (hstore : ∀ v w q, (store v w q).networkId = q.networkId)
    (hdispatch : ∀ s : RelayServer, s.dispatch packet handlerMs =
      s.handleMotion kSizePlayerMovement messageId store packet)
    (hlen : kSizePlayerMovement ≤ packet.length) (hent : Entitled s packet tickMs self)
    (hspawned : self.spawned = true) (hid : packet.id = messageId)
    (hrel : m.reliability = .unreliableSequenced)
    (hm : m.bytes = encode messageId ++ encode self.networkId ++
      encode (readMotion packet).2.1 ++ encode (readMotion packet).2.2) :
    copiesOf packet.id (step s (.packet packet tickMs handlerMs)).2 =
      (recipients s.players self.networkId).map fun p =>
        (p.address, packet.id :: bigEndian self.networkId ++
          (packet.data.take kSizePlayerMovement).drop 5) := by
  have hfind' := find_bookkeep hent.find tickMs
  have hspawned' : (RelayServer.account self tickMs).1.spawned = true :=
    (congrArg Lobby.Member.present (account_member self tickMs)).trans hspawned
  have hm' : m.bytes = encode messageId ++
      encode (RelayServer.account self tickMs).1.networkId ++
      encode (readMotion packet).2.1 ++ encode (readMotion packet).2.2 := by
    rw [account_networkId, hm]
  -- From offset 5 on the message is the sender's packet, cut at the layout's size.
  have hbytes : m.bytes = packet.id :: bigEndian self.networkId ++
      (packet.data.take kSizePlayerMovement).drop 5 := by
    rw [hm, ← encode_readMotion hlen, hid]
    simp [encode_int_eq]
  rw [step_admitted hinv hent.find hent.rate, hdispatch,
    Server.handleMotion_eq store hlen hfind' hspawned' hrel hm']
  simp only [account_networkId]
  rw [copiesOf_relayMessage (by simp [hbytes]),
    recipients_after_bookkeep tickMs hent.find (hstore _ _), hbytes]

/-- A packet that is too short or whose sender has no say is dropped by its handler. -/
theorem dispatch_rejected {length : Nat} (hrelayed : relayedLength packet.kind = some length)
    (hreject : packet.length < length ∨
      ∀ self, findByAddress s.players packet.systemAddress = some self →
        packet.kind ≠ .createNetPlayer ∧ self.spawned = false)
    (handlerMs : Int) : s.dispatch packet handlerMs = (s, []) := by
  -- The three relayed kinds; `hrelayed` rules out the rest.
  cases hkind : packet.kind with
  | createNetPlayer =>
    obtain rfl : kSizeCreateNetPlayer = length := by simpa [relayedLength, hkind] using hrelayed
    simp only [RelayServer.dispatch, hkind]
    rcases hreject with hlen | hnot
    · exact handleCreateNetPlayer_short hlen
    · cases hfind : findByAddress s.players packet.systemAddress with
      | none => exact handleCreateNetPlayer_unknown hfind
      | some self => exact absurd hkind (hnot self hfind).1
  | playerMovement =>
    obtain rfl : kSizePlayerMovement = length := by simpa [relayedLength, hkind] using hrelayed
    simp only [RelayServer.dispatch, hkind]
    rcases hreject with hlen | hnot
    · exact handleMotion_short hlen
    · exact handleMotion_unspawned fun self hself => (hnot self hself).2
  | playerRotation =>
    obtain rfl : kSizePlayerRotation = length := by simpa [relayedLength, hkind] using hrelayed
    simp only [RelayServer.dispatch, hkind]
    rcases hreject with hlen | hnot
    · exact handleMotion_short hlen
    · exact handleMotion_unspawned fun self hself => (hnot self hself).2
  | _ => simp [relayedLength, hkind] at hrelayed

/-- Nothing is relayed for a packet that is too short or whose sender is not entitled. -/
theorem copies_of_rejected {length : Nat} (hrelayed : relayedLength packet.kind = some length)
    (hreject : packet.length < length ∨ ∀ self, ¬ Entitled s packet tickMs self)
    (handlerMs : Int) : (step s (.packet packet tickMs handlerMs)).2 = [] := by
  cases hpeer : s.peer with
  | false => simp [step, hpeer]
  | true =>
    cases haccept : (s.bookkeep packet tickMs).2 with
    | false => simp [step, hpeer, RelayServer.tickPacket, haccept]
    | true =>
      have hstep : step s (.packet packet tickMs handlerMs) =
          (s.bookkeep packet tickMs).1.dispatch packet handlerMs := by
        simp [step, hpeer, RelayServer.tickPacket, haccept]
      -- Without entitlement the record is missing or, for motion, not spawned.
      have hrecord : (∀ self, ¬ Entitled s packet tickMs self) → ∀ p,
          findByAddress (s.bookkeep packet tickMs).1.players packet.systemAddress = some p →
            packet.kind ≠ .createNetPlayer ∧ p.spawned = false := by
        intro hnot p hp
        rcases exists_of_find_bookkeep hp with ⟨self, hfind, rfl⟩
        rw [bookkeep_of_find hfind] at haccept
        have hrate := (account_accepts self tickMs).1 haccept
        have hspawned := congrArg Lobby.Member.present (account_member self tickMs)
        constructor
        · intro hkind
          exact hnot self ⟨hfind, hrate, Or.inl hkind⟩
        · rw [Bool.eq_false_iff]
          intro htrue
          exact hnot self ⟨hfind, hrate, Or.inr (hspawned.symm.trans htrue)⟩
      rw [hstep, dispatch_rejected hrelayed (hreject.imp_right hrecord)]

end Copies

/-- No impersonation and payload transparency: runs that differ in claimed ids only are equal at
every point, and a relayed copy is the message id, the id assigned to the sender and the sender's
own bytes from offset 5 on. -/
theorem relay_transparency (config : Config) (nowMs : Int) (restored : Option Vec3) :
    let s₀ := start config nowMs restored
    (∀ es fs, List.Forall₂ SameEvent es fs →
      ∀ n, server.run s₀ (es.take n) = server.run s₀ (fs.take n)) ∧
    ∀ events packet tickMs handlerMs length, relayedLength packet.kind = some length →
      let s := server.state s₀ events
      let copies := copiesOf packet.id (step s (.packet packet tickMs handlerMs)).2
      (∀ self, length ≤ packet.length → Entitled s packet tickMs self →
        copies = (recipients s.players self.networkId).map fun p =>
          (p.address, packet.id :: bigEndian self.networkId ++
            (packet.data.take length).drop 5)) ∧
      ((packet.length < length ∨ ∀ self, ¬ Entitled s packet tickMs self) → copies = []) := by
  intro s₀
  constructor
  · intro es fs h n
    exact Machine.run_congr step_sameEvent (List.forall₂_take n h) s₀
  · intro events packet tickMs handlerMs length hrelayed s copies
    have hinv : ServerInv config s := serverInv_run config nowMs restored events
    constructor
    · intro self hlen hent
      cases hkind : packet.kind with
      | createNetPlayer =>
        obtain rfl : kSizeCreateNetPlayer = length := by simpa [relayedLength, hkind] using hrelayed
        exact copies_of_create hinv hkind hlen hent
      | playerMovement =>
        obtain rfl : kSizePlayerMovement = length := by simpa [relayedLength, hkind] using hrelayed
        have hspawned : self.spawned = true := by simpa [hkind] using hent.spawned
        have hdispatch : ∀ s : RelayServer, s.dispatch packet handlerMs =
            s.handlePlayerMovement packet := by
          intro s
          simp only [RelayServer.dispatch, hkind]
        exact copies_of_motion (m := .playerMovement self.networkId _ _) hinv idPlayerMovement
          (fun position _ p => { p with position := position }) (fun _ _ _ => rfl)
          hdispatch hlen hent hspawned (id_of_kind hkind rfl).symm rfl rfl
      | playerRotation =>
        obtain rfl : kSizePlayerRotation = length := by simpa [relayedLength, hkind] using hrelayed
        have hspawned : self.spawned = true := by simpa [hkind] using hent.spawned
        have hdispatch : ∀ s : RelayServer, s.dispatch packet handlerMs =
            s.handlePlayerRotation packet := by
          intro s
          simp only [RelayServer.dispatch, hkind]
        exact copies_of_motion (m := .playerRotation self.networkId _ _) hinv idPlayerRotation
          (fun up forward p => { p with up := up, forward := forward }) (fun _ _ _ => rfl)
          hdispatch hlen hent hspawned (id_of_kind hkind rfl).symm rfl rfl
      | _ => simp [relayedLength, hkind] at hrelayed
    · intro hreject
      have hnothing := copies_of_rejected hrelayed hreject handlerMs
      show copiesOf _ (step s _).2 = []
      rw [hnothing]
      rfl

end Server
end Crossover
