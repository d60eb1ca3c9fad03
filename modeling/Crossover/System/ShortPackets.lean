import Crossover.Mod.Effects
import Crossover.Mod.Recording
import Crossover.System.RosterMessage

/-!
# ShortPackets — what the mod makes of a packet that ends too early

The callbacks of `SetupNetworkCallbacks` do not look at what `BitStream::Read` returns: a field that
is not there keeps the value its variable was given, and the manager is called with it.

* `contained` is the message a packet holds completely; of a roster, its complete records;
* `updateContained` is a dispatcher that handles this part and no more;
* `short_packets_harmless_iff` says for which packets the real one does the same to the players.
-/

namespace Crossover
namespace Mod

open Wire

namespace Session

variable {σ : Type}

/-! ## The complete part of a packet -/

/-- The kinds of packets that are about players. -/
def playerMessageKinds : List MessageKind :=
  [.createLocalNetPlayer, .createNetPlayer, .createNetPlayers, .destroyNetPlayer, .playerMovement,
    .playerRotation]

/-- The rounds of the roster callback's loop. -/
def rosterRounds (packet : Packet) : Nat :=
  (rosterCount packet.data).1.toNatClampNeg

/-- How many of them find a complete record. -/
def wholeRecords (packet : Packet) : Nat :=
  min (rosterRounds packet)
    ((packet.length - kSizeCreateNetPlayersHeader) / kSizeCreateNetPlayersEntry)

def contained (packet : Packet) : Option Message :=
  match packet.kind with
  | .createLocalNetPlayer => Message.parse (packet.data.take kSizeCreateLocalNetPlayer)
  | .createNetPlayer => Message.parse (packet.data.take kSizeCreateNetPlayer)
  | .createNetPlayers => some (.createNetPlayers
      (Message.parseEntries (wholeRecords packet)
        (packet.data.drop kSizeCreateNetPlayersHeader)))
  | .destroyNetPlayer => Message.parse (packet.data.take kSizeDestroyNetPlayer)
  | .playerMovement => Message.parse (packet.data.take kSizePlayerMovement)
  | .playerRotation => Message.parse (packet.data.take kSizePlayerRotation)
  | _ => none

/-- A dispatcher that handles what a packet contains. -/
def updateContained (E : Engine σ) (s : Session σ) (packet : Packet) :
    Except Fault (Session σ) :=
  if !s.network.active then .ok s
  else
    match contained packet with
    | none => .ok s
    | some m => s.receive E packet.systemAddress m

/-! ## The players -/

/-- The manager's players, and the calls that took players out of the game or moved them. -/
structure Crew where
  localNetPlayer : Option LocalNetPlayer
  netPlayers : List NetPlayer
  gameCalls : List GameCall
  deriving DecidableEq

def crew (s : Session (σ × List GameCall)) : Crew :=
  { localNetPlayer := s.localNetPlayer
    netPlayers := s.netPlayers
    gameCalls := s.engine.2 }

/-- What has become of the players, unless the process has stopped with a fault. -/
def crewAfter (outcome : Except Fault (Session (σ × List GameCall))) : Except Fault Crew :=
  outcome.map crew

/-- The packet does to the players what its complete part does. -/
def Harmless (E : Engine σ) (rounds : Nat) (s : Session (σ × List GameCall)) (packet : Packet) :
    Prop :=
  crewAfter (s.update E.recorded rounds packet) = crewAfter (updateContained E.recorded s packet)

/-! ## When unread fields change nothing -/

/-- A roster with these ids creates nobody: each is the local player's, or known, or the game has no
player to give. -/
def CreatesNobody (E : Engine σ) : List Int32 → Session σ → Prop
  | [], _ => True
  | networkId :: networkIds, s =>
      match s.localNetPlayer with
      | none => False
      | some localNetPlayer =>
          if networkId ≠ localNetPlayer.networkId ∧ s.getLocalIdFromNetworkId networkId = -1 then
            newPlayer E s = none ∧
              CreatesNobody E networkIds
                { s with engine := E.createPlayer s.engine s.getFreeLocalId }
          else CreatesNobody E networkIds s

/-- The ids that the loop reads behind the complete records. -/
def tailIds (packet : Packet) : List Int32 :=
  ((rosterRecords (fun _ => 0) (rosterRounds packet) (rosterCount packet.data).2).drop
    (wholeRecords packet)).map RosterEntry.networkId

/-- The first net player with the id already has these vectors, or there is none. -/
def Unmoved (vectors : NetPlayer → Vec3 × Vec3) (s : Session σ) (fields : Int32 × Vec3 × Vec3) :
    Prop :=
  ∀ netPlayer,
    (s.netPlayers.find? fun netPlayer => netPlayer.networkId == fields.1) = some netPlayer →
      vectors netPlayer = fields.2

/-- What the fields ask for that the packet does not hold comes to nothing. -/
def Tolerates (E : Engine σ) (s : Session σ) (packet : Packet) : Prop :=
  match packet.kind with
  | .createLocalNetPlayer => packet.length < kSizeCreateLocalNetPlayer →
      s.getCreatureFromLocalId E s.getFreeLocalId = none
  | .createNetPlayer => packet.length < kSizeCreateNetPlayer → newPlayer E s = none
  | .createNetPlayers => ∀ m s', contained packet = some m →
      s.receive E packet.systemAddress m = .ok s' → CreatesNobody E (tailIds packet) s'
  | .destroyNetPlayer => packet.length < kSizeDestroyNetPlayer →
      s.getCreatureFromNetworkId E (-1) = none
  | .playerMovement => packet.length < kSizePlayerMovement →
      Unmoved (fun netPlayer => (netPlayer.position, netPlayer.movementAcceleration)) s
        (readMotion (payload packet))
  | .playerRotation => packet.length < kSizePlayerRotation →
      Unmoved (fun netPlayer => (netPlayer.up, netPlayer.forward)) s (readMotion (payload packet))
  | _ => True

/-! ## Handlers that are called with unread fields -/

section Handlers

variable {E : Engine σ} {s s' : Session (σ × List GameCall)}

theorem crewAfter_ok (h : crew s' = crew s) : crewAfter (.ok s') = crewAfter (.ok s) :=
  congrArg Except.ok h

theorem crewAfter_ok_iff : crewAfter (.ok s') = crewAfter (.ok s) ↔ crew s' = crew s :=
  ⟨fun h => Except.ok.inj h, crewAfter_ok⟩

theorem crewAfter_error_ne (s : Session (σ × List GameCall)) (fault : Fault) :
    crewAfter (.error fault : Except Fault (Session (σ × List GameCall))) ≠ crewAfter (.ok s) := by
  intro h
  cases h

/-- The local id of a local player just set is a new one. -/
theorem crew_createLocalNetPlayer (networkId : Int32) (position : Vec3) :
    crew (s.createLocalNetPlayer E.recorded networkId position) = crew s ↔
      s.getCreatureFromLocalId E.recorded s.getFreeLocalId = none := by
  rcases createLocalNetPlayer_cases E.recorded s networkId position with
    ⟨hnone, hsame⟩ | ⟨hsome, hset, _⟩
  · rw [hsame]
    exact ⟨fun _ => hnone, fun _ => rfl⟩
  · constructor
    · intro hcrew
      have hlocal : s.localNetPlayer = some ⟨networkId, s.getFreeLocalId⟩ :=
        (congrArg Crew.localNetPlayer hcrew).symm.trans hset.localNetPlayer
      have hmem : s.getFreeLocalId ∈ s.localIds := by
        simp [localIds, hlocal]
      exact absurd hmem s.getFreeLocalId_not_mem
    · intro hnone
      rw [hnone] at hsome
      cases hsome

theorem crewAfter_createNetPlayer (networkId : Int32) (position : Vec3) (defGlobalIndex : Int32) :
    crewAfter (s.createNetPlayer E.recorded networkId position defGlobalIndex) =
        crewAfter (.ok s) ↔
      newPlayer E.recorded s = none := by
  cases houtcome : s.createNetPlayer E.recorded networkId position defGlobalIndex with
  | error fault =>
    refine ⟨fun h => absurd h (crewAfter_error_ne s fault), ?_⟩
    intro hnone
    simp only [createNetPlayer] at houtcome
    split at houtcome
    · cases houtcome
    · rename_i player hplayer
      exact absurd (hplayer.symm.trans hnone) (by simp)
  | ok s' =>
    rw [crewAfter_ok_iff]
    constructor
    · intro hcrew
      rcases createNetPlayer_cases houtcome with ⟨_, _, ⟨hnone, _⟩ | ⟨_, _, _, _, hadded⟩⟩
      · exact hnone
      · have hlist : s.netPlayers = s.netPlayers ++ [_] :=
          (congrArg Crew.netPlayers hcrew).symm.trans hadded
        simpa using congrArg List.length hlist
    · intro hnone
      rw [createNetPlayer_of_none hnone] at houtcome
      rw [← Except.ok.inj houtcome]
      rfl

theorem crewAfter_destroyNetPlayer (networkId : Int32) :
    crewAfter (s.destroyNetPlayer E.recorded networkId) = crewAfter (.ok s) ↔
      s.getCreatureFromNetworkId E.recorded networkId = none := by
  cases houtcome : s.destroyNetPlayer E.recorded networkId with
  | error fault =>
    refine ⟨fun h => absurd h (crewAfter_error_ne s fault), ?_⟩
    intro hnone
    rw [destroyNetPlayer_of_none hnone] at houtcome
    cases houtcome
  | ok s' =>
    rw [crewAfter_ok_iff]
    rcases destroyNetPlayer_cases houtcome with ⟨hnone, rfl⟩ | ⟨player, _, _, _, _, hengine⟩
    · exact ⟨fun _ => hnone, fun _ => rfl⟩
    · constructor
      · intro hcrew
        have hcalls : s'.engine.2 = s.engine.2 := congrArg Crew.gameCalls hcrew
        rw [hengine] at hcalls
        simpa [engineWithout, Engine.recorded] using congrArg List.length hcalls
      · intro hnone
        rw [destroyNetPlayer_of_none hnone] at houtcome
        rw [Except.ok.inj houtcome]

/-- An assignment to the first net player with an id. -/
theorem updateNetPlayer_eq_iff (networkId : Int32) (f : NetPlayer → NetPlayer)
    (netPlayers : List NetPlayer) :
    updateNetPlayer networkId f netPlayers = netPlayers ↔
      ∀ netPlayer,
        (netPlayers.find? fun netPlayer => netPlayer.networkId == networkId) = some netPlayer →
          f netPlayer = netPlayer := by
  induction netPlayers with
  | nil => simp [updateNetPlayer]
  | cons netPlayer rest ih =>
    by_cases hid : netPlayer.networkId = networkId
    · simp [updateNetPlayer, hid]
    · have hbeq : (netPlayer.networkId == networkId) = false := by simpa using hid
      simp [updateNetPlayer, hid, hbeq, ih]

/-- A motion that only assigns to the first net player with an id. -/
theorem crew_assigned {networkId : Int32} {f : NetPlayer → NetPlayer}
    (hlocal : s'.localNetPlayer = s.localNetPlayer) (hengine : s'.engine = s.engine)
    (hlist : s'.netPlayers = updateNetPlayer networkId f s.netPlayers) :
    crew s' = crew s ↔
      ∀ netPlayer,
        (s.netPlayers.find? fun netPlayer => netPlayer.networkId == networkId) = some netPlayer →
          f netPlayer = netPlayer := by
  rw [← updateNetPlayer_eq_iff, ← hlist]
  simp only [crew, hlocal, hengine, Crew.mk.injEq, true_and, and_true]

theorem crew_receiveNetPlayerMovement (networkId : Int32) (position acceleration : Vec3) :
    crew (s.receiveNetPlayerMovement networkId position acceleration) = crew s ↔
      Unmoved (fun netPlayer => (netPlayer.position, netPlayer.movementAcceleration)) s
        (networkId, position, acceleration) := by
  have hsame := receiveNetPlayerMovement_ids s networkId position acceleration
  rw [crew_assigned hsame.1 hsame.2.2.1
    (netPlayers_receiveNetPlayerMovement s networkId position acceleration)]
  refine forall_congr' fun netPlayer => imp_congr_right fun _ => ?_
  cases netPlayer
  simp only [NetPlayer.mk.injEq, Prod.mk.injEq, true_and, and_true]
  exact ⟨fun h => ⟨h.2.symm, h.1.symm⟩, fun h => ⟨h.2.symm, h.1.symm⟩⟩

theorem crew_receiveNetPlayerRotation (networkId : Int32) (up forward : Vec3) :
    crew (s.receiveNetPlayerRotation networkId up forward) = crew s ↔
      Unmoved (fun netPlayer => (netPlayer.up, netPlayer.forward)) s (networkId, up, forward) := by
  have hsame := receiveNetPlayerRotation_ids s networkId up forward
  rw [crew_assigned hsame.1 hsame.2.2.1
    (netPlayers_receiveNetPlayerRotation s networkId up forward)]
  refine forall_congr' fun netPlayer => imp_congr_right fun _ => ?_
  cases netPlayer
  simp only [NetPlayer.mk.injEq, Prod.mk.injEq, true_and]
  exact ⟨fun h => ⟨h.1.symm, h.2.symm⟩, fun h => ⟨h.1.symm, h.2.symm⟩⟩

/-! ### The tail of a roster -/

/-- A roster never shortens the vector. -/
theorem length_le_createEach {E : Engine σ} {s s' : Session σ} {entries : List RosterEntry}
    (h : createEach E entries s = .ok s') : s.netPlayers.length ≤ s'.netPlayers.length := by
  induction entries generalizing s with
  | nil => exact Except.ok.inj h ▸ Nat.le_refl _
  | cons entry entries ih =>
    simp only [createEach] at h
    split at h
    · cases h
    · rename_i s₁ hfirst
      refine Nat.le_trans ?_ (ih h)
      rcases createNetPlayers_cases hfirst with rfl | hcreate
      · exact Nat.le_refl _
      · rcases createNetPlayer_cases hcreate with ⟨_, _, ⟨_, hsame⟩ | ⟨_, _, _, _, hadded⟩⟩
        · exact Nat.le_of_eq (congrArg List.length hsame.symm)
        · simp [hadded]

theorem createEach_append (E : Engine σ) (first second : List RosterEntry) (s : Session σ) :
    createEach E (first ++ second) s =
      match createEach E first s with
      | .error fault => .error fault
      | .ok s => createEach E second s := by
  induction first generalizing s with
  | nil => rfl
  | cons entry entries ih =>
    simp only [List.cons_append, createEach]
    cases s.createNetPlayers E entry.networkId entry.position entry.defGlobalIndex with
    | error fault => rfl
    | ok s' => exact ih s'

/-- Records that are made of unread fields leave the players alone exactly when they create
nobody. -/
theorem crewAfter_createEach (entries : List RosterEntry) :
    crewAfter (createEach E.recorded entries s) = crewAfter (.ok s) ↔
      CreatesNobody E.recorded (entries.map RosterEntry.networkId) s := by
  induction entries generalizing s with
  | nil => exact ⟨fun _ => trivial, fun _ => rfl⟩
  | cons entry entries ih =>
    cases hlocal : s.localNetPlayer with
    | none =>
      have hfault : createEach E.recorded (entry :: entries) s = .error .nullLocalNetPlayer := by
        simp only [createEach, createNetPlayers, hlocal]
      rw [hfault]
      simp only [List.map_cons, CreatesNobody, hlocal, iff_false]
      exact crewAfter_error_ne s _
    | some localNetPlayer =>
      simp only [List.map_cons, CreatesNobody, hlocal, createEach, createNetPlayers]
      by_cases hunknown : entry.networkId ≠ localNetPlayer.networkId ∧
          s.getLocalIdFromNetworkId entry.networkId = -1
      · simp only [if_pos hunknown]
        by_cases hnone : newPlayer E.recorded s = none
        · rw [createNetPlayer_of_none hnone]
          simp only [hnone, true_and]
          rw [← ih, ← hlocal]
          exact Iff.rfl
        · -- From here on the vector is longer, or the process has stopped.
          simp only [hnone, false_and, iff_false]
          cases houtcome : s.createNetPlayer E.recorded entry.networkId entry.position
              entry.defGlobalIndex with
          | error fault => exact crewAfter_error_ne s fault
          | ok s₁ =>
            rcases createNetPlayer_cases houtcome with
              ⟨_, _, ⟨hnone', _⟩ | ⟨_, _, _, _, hadded⟩⟩
            · exact absurd hnone' hnone
            · simp only
              cases hrest : createEach E.recorded entries s₁ with
              | error fault => exact crewAfter_error_ne s fault
              | ok s₂ =>
                rw [crewAfter_ok_iff]
                intro hcrew
                have hlength := length_le_createEach hrest
                have hlist : s₂.netPlayers = s.netPlayers := congrArg Crew.netPlayers hcrew
                rw [hlist, hadded, List.length_append] at hlength
                exact absurd hlength (Nat.not_succ_le_self _)
      · simp only [if_neg hunknown]
        exact ih

end Handlers

/-! ## The packet is taken apart -/

section Packets

variable {packet : Packet} {m : Message}

/-- A packet that contains a message of a fixed length begins with it. -/
theorem data_of_parse_take {n : Nat} (h : Message.parse (packet.data.take n) = some m)
    (hfixed : m.kind ≠ .createNetPlayers) :
    packet.data = m.bytes ++ packet.data.drop n := by
  rw [Message.bytes_of_parse h hfixed, List.take_append_drop]

theorem rosterCount_of_short (hshort : packet.length < kSizeCreateNetPlayersHeader) :
    rosterRounds packet = 0 := by
  have hread : (rosterCount packet.data).1 = 0 := by
    unfold rosterCount BitStream.read
    rw [if_neg]
    have hbytes : packet.data.length < 5 := hshort
    simp only [BitStream.ignoreBytes, BitStream.ofData, size_int]
    omega
  rw [rosterRounds, hread]
  rfl

/-- An id that is not there stays the callback's default. -/
theorem read_of_short (hshort : packet.length < kSizeDestroyNetPlayer) :
    ((payload packet).read (-1 : Int32)).1 = -1 := by
  have hbytes : packet.data.length < 5 := hshort
  unfold BitStream.read
  rw [if_neg]
  simp only [payload, BitStream.ignoreBytes, BitStream.ofData, size_int]
  omega

theorem remaining_rosterCount (hheader : kSizeCreateNetPlayersHeader ≤ packet.length) :
    (rosterCount packet.data).2.Remaining (packet.data.drop kSizeCreateNetPlayersHeader) := by
  have hbytes : 5 ≤ packet.data.length := hheader
  have hfits : ((BitStream.ofData packet.data).ignoreBytes 1).readOffset + Pod.size Int32 ≤
      ((BitStream.ofData packet.data).ignoreBytes 1).data.length := by
    simpa [BitStream.ignoreBytes, BitStream.ofData] using hbytes
  rw [rosterCount, BitStream.read_of_le _ hfits]
  exact ⟨packet.data.take kSizeCreateNetPlayersHeader, (List.take_append_drop _ _).symm,
    (List.length_take_of_le hbytes).symm⟩

/-- Which bytes are ids does not depend on the unassigned indices. -/
theorem map_networkId_rosterRecords (unassigned unassigned' : Nat → Int32) (count : Nat)
    (bs : BitStream) :
    (rosterRecords unassigned count bs).map RosterEntry.networkId =
      (rosterRecords unassigned' count bs).map RosterEntry.networkId := by
  induction count generalizing unassigned unassigned' bs with
  | zero => rfl
  | succ count ih =>
    have hbehind : (readCreateNetPlayer (unassigned 0) bs).2 =
        (readCreateNetPlayer (unassigned' 0) bs).2 := by
      simp only [readCreateNetPlayer]
      rw [BitStream.read_snd _ (unassigned 0) (unassigned' 0)]
    simp only [rosterRecords, List.map_cons, hbehind]
    rw [ih (fun round => unassigned (round + 1)) (fun round => unassigned' (round + 1))]
    rfl

/-- The loop's records: the complete ones, then what it makes of the rest. -/
theorem rosterRecords_split (packet : Packet) (unassigned : Nat → Int32) :
    ∃ tail, tail.map RosterEntry.networkId = tailIds packet ∧
      rosterRecords unassigned (rosterRounds packet) (rosterCount packet.data).2 =
        Message.parseEntries (wholeRecords packet)
          (packet.data.drop kSizeCreateNetPlayersHeader) ++ tail := by
  refine ⟨(rosterRecords unassigned (rosterRounds packet) (rosterCount packet.data).2).drop
    (wholeRecords packet), ?_, ?_⟩
  · rw [tailIds, List.map_drop, List.map_drop, map_networkId_rosterRecords]
  · by_cases hheader : kSizeCreateNetPlayersHeader ≤ packet.length
    · let body := packet.data.drop kSizeCreateNetPlayersHeader
      have hbody : body.length = packet.length - kSizeCreateNetPlayersHeader := List.length_drop
      have hfit : 20 * wholeRecords packet ≤ body.length := by
        have hdiv := Nat.mul_div_le body.length kSizeCreateNetPlayersEntry
        have hmin := Nat.min_le_right (rosterRounds packet)
          (body.length / kSizeCreateNetPlayersEntry)
        rw [hbody] at hdiv hmin ⊢
        simp only [wholeRecords, kSizeCreateNetPlayersEntry, kIntBytes, kVec3Bytes] at hdiv hmin ⊢
        omega
      let entries := Message.parseEntries (wholeRecords packet) body
      have hlength : entries.length = wholeRecords packet := Message.length_parseEntries _ _
      have hrounds : rosterRounds packet =
          entries.length + (rosterRounds packet - wholeRecords packet) := by
        have hmin : wholeRecords packet ≤ rosterRounds packet := Nat.min_le_left _ _
        omega
      have hremaining : (rosterCount packet.data).2.Remaining
          (entries.flatMap RosterEntry.bytes ++ body.drop (20 * wholeRecords packet)) := by
        rw [Message.flatMap_parseEntries _ _ hfit, List.take_append_drop]
        exact remaining_rosterCount hheader
      obtain ⟨behind, -, hread⟩ := rosterRecords_of_remaining
        (rosterRounds packet - wholeRecords packet) unassigned hremaining
      rw [hrounds, hread, ← hlength, List.drop_left, hlength]
    · have hzero := rosterCount_of_short (Nat.lt_of_not_le hheader)
      have hwhole : wholeRecords packet = 0 := by
        rw [wholeRecords, hzero, Nat.zero_min]
      rw [hzero, hwhole]
      rfl

/-- The kinds of packets with a single record, with the length of their layout. -/
def layoutSize : MessageKind → Option Nat
  | .createLocalNetPlayer => some kSizeCreateLocalNetPlayer
  | .createNetPlayer => some kSizeCreateNetPlayer
  | .destroyNetPlayer => some kSizeDestroyNetPlayer
  | .playerMovement => some kSizePlayerMovement
  | .playerRotation => some kSizePlayerRotation
  | _ => none

theorem contained_of_layoutSize {n : Nat} (hsize : layoutSize packet.kind = some n) :
    contained packet = Message.parse (packet.data.take n) := by
  unfold contained
  cases hkind : packet.kind <;> simp_all [layoutSize]

theorem contained_eq_none_iff {n : Nat} (hsize : layoutSize packet.kind = some n) :
    contained packet = none ↔ packet.length < n := by
  rw [contained_of_layoutSize hsize, packet.data_eq_cons]
  have hlength : packet.length = packet.data.tail.length + 1 := by
    rw [Packet.length, packet.data_eq_cons]
    rfl
  have hkind : MessageKind.ofByte packet.id = packet.kind := rfl
  rw [hlength]
  cases hcase : packet.kind <;>
    simp only [hcase, layoutSize, Option.some.injEq, reduceCtorEq] at hsize <;>
    subst hsize <;>
    simp [Message.parse, hkind, hcase, kSizeCreateLocalNetPlayer, kSizeCreateNetPlayer,
      kSizeDestroyNetPlayer, kSizePlayerMovement, kSizePlayerRotation, kMsgIdBytes, kIntBytes,
      kVec3Bytes] <;>
    omega

theorem kind_of_parse {data : List UInt8} {id : UInt8} {body : List UInt8}
    (hdata : data = id :: body) (h : Message.parse data = some m) :
    m.kind = MessageKind.ofByte id := by
  rw [hdata] at h
  simp only [Message.parse] at h
  split at h <;> first
    | cases h
    | (split at h
       · obtain rfl := Option.some.inj h
         exact (by assumption : MessageKind.ofByte id = _).symm
       · cases h)

/-- A record that is there is handled as what it says. -/
theorem update_of_contained {n : Nat} (hsize : layoutSize packet.kind = some n)
    (h : contained packet = some m) (E : Engine σ) (rounds : Nat) {s : Session σ}
    (hactive : s.network.active = true) :
    s.update E rounds packet = s.receive E packet.systemAddress m := by
  rw [contained_of_layoutSize hsize] at h
  have hkind : m.kind = packet.kind := by
    cases n with
    | zero => simp [Message.parse] at h
    | succ n => exact kind_of_parse (by rw [packet.data_eq_cons]; rfl) h
  have hfixed : m.kind ≠ .createNetPlayers := by
    intro hroster
    rw [← hkind, hroster] at hsize
    cases hsize
  refine update_of_prefix E rounds hactive (data_of_parse_take h hfixed) ?_
  cases m with
  | createNetPlayers entries => exact absurd rfl hfixed
  | _ => trivial

end Packets

/-! ## Which packets are harmless -/

section Harmless

variable {E : Engine σ} {rounds : Nat} {s : Session (σ × List GameCall)} {packet : Packet}

theorem harmless_of_inactive (hinactive : s.network.active = false) :
    Harmless E rounds s packet := by
  simp only [Harmless, update, updateContained, hinactive, Bool.not_false, if_true]

/-- With a single record everything depends on whether it is there. -/
theorem harmless_iff_of_layoutSize {n : Nat} (hactive : s.network.active = true)
    (hsize : layoutSize packet.kind = some n) :
    Harmless E rounds s packet ↔
      (packet.length < n →
        crewAfter (s.update E.recorded rounds packet) = crewAfter (.ok s)) := by
  rw [← contained_eq_none_iff hsize]
  simp only [Harmless, updateContained, hactive, Bool.not_true, Bool.false_eq_true, if_false]
  cases hcontained : contained packet with
  | none => simp
  | some m =>
    simp only [update_of_contained hsize hcontained E.recorded rounds hactive, reduceCtorEq,
      false_implies]

/-- What a roster does to the players is up to its tail. -/
theorem harmless_roster_iff (hactive : s.network.active = true)
    (hkind : packet.kind = .createNetPlayers) :
    Harmless E rounds s packet ↔ ∀ m s', contained packet = some m →
      s.receive E.recorded packet.systemAddress m = .ok s' →
        CreatesNobody E.recorded (tailIds packet) s' := by
  obtain ⟨unassigned, hloop⟩ := createNetPlayersLoop_eq E.recorded (rosterRounds packet)
    (rosterCount packet.data).2 s
  obtain ⟨tail, hids, hsplit⟩ := rosterRecords_split packet unassigned
  let entries := Message.parseEntries (wholeRecords packet)
    (packet.data.drop kSizeCreateNetPlayersHeader)
  have hcontained : contained packet = some (.createNetPlayers entries) := by
    simp only [contained, hkind, entries]
  have hupdate : s.update E.recorded rounds packet =
      createEach E.recorded (entries ++ tail) s := by
    rw [← hsplit, ← hloop]
    simp only [update, hactive, hkind, Bool.not_true, Bool.false_eq_true, if_false]
    rfl
  have hideal : updateContained E.recorded s packet = createEach E.recorded entries s := by
    simp only [updateContained, hactive, hcontained, receive, Bool.not_true, Bool.false_eq_true,
      if_false]
  rw [Harmless, hupdate, hideal, createEach_append]
  constructor
  · intro hsame m s' hm hentries
    obtain rfl : m = .createNetPlayers entries := Option.some.inj (hm.symm.trans hcontained)
    have hentries' : createEach E.recorded entries s = .ok s' := hentries
    rw [hentries'] at hsame
    rw [← hids]
    exact (crewAfter_createEach tail).1 hsame
  · intro hnobody
    cases hentries : createEach E.recorded entries s with
    | error fault => rfl
    | ok s' =>
      have htail := hnobody _ s' hcontained hentries
      rw [← hids] at htail
      exact (crewAfter_createEach tail).2 htail

/-- Short packets.  Handling one of these packets does to the players what its complete part does
exactly when the peer is closed or what the unread fields ask for comes to nothing. -/
theorem short_packets_harmless_iff (E : Engine σ) (rounds : Nat)
    (s : Session (σ × List GameCall)) (packet : Packet)
    (hkind : packet.kind ∈ playerMessageKinds) :
    Harmless E rounds s packet ↔ (s.network.active = true → Tolerates E.recorded s packet) := by
  cases hactive : s.network.active with
  | false => simp [harmless_of_inactive hactive]
  | true =>
    simp only [forall_const]
    cases hcase : packet.kind with
    | createLocalNetPlayer =>
      rw [harmless_iff_of_layoutSize hactive (by rw [hcase]; rfl)]
      simp only [Tolerates, hcase]
      refine imp_congr_right fun _ => ?_
      simp only [update, hactive, hcase, Bool.not_true, Bool.false_eq_true, if_false]
      exact crewAfter_ok_iff.trans (crew_createLocalNetPlayer _ _)
    | createNetPlayer =>
      rw [harmless_iff_of_layoutSize hactive (by rw [hcase]; rfl)]
      simp only [Tolerates, hcase]
      refine imp_congr_right fun _ => ?_
      simp only [update, hactive, hcase, Bool.not_true, Bool.false_eq_true, if_false]
      exact crewAfter_createNetPlayer _ _ _
    | createNetPlayers =>
      rw [harmless_roster_iff hactive hcase]
      simp only [Tolerates, hcase]
    | destroyNetPlayer =>
      rw [harmless_iff_of_layoutSize hactive (by rw [hcase]; rfl)]
      simp only [Tolerates, hcase]
      refine imp_congr_right fun hshort => ?_
      simp only [update, hactive, hcase, Bool.not_true, Bool.false_eq_true, if_false]
      rw [handleDestroyNetPlayer, read_of_short hshort]
      exact crewAfter_destroyNetPlayer (-1)
    | playerMovement =>
      rw [harmless_iff_of_layoutSize hactive (by rw [hcase]; rfl)]
      simp only [Tolerates, hcase]
      refine imp_congr_right fun _ => ?_
      simp only [update, hactive, hcase, Bool.not_true, Bool.false_eq_true, if_false]
      exact crewAfter_ok_iff.trans (crew_receiveNetPlayerMovement _ _ _)
    | playerRotation =>
      rw [harmless_iff_of_layoutSize hactive (by rw [hcase]; rfl)]
      simp only [Tolerates, hcase]
      refine imp_congr_right fun _ => ?_
      simp only [update, hactive, hcase, Bool.not_true, Bool.false_eq_true, if_false]
      exact crewAfter_ok_iff.trans (crew_receiveNetPlayerRotation _ _ _)
    | _ =>
      rw [hcase] at hkind
      exact absurd hkind (by decide)

/-! ### A movement that ends behind its id -/

/-- A client whose one net player has gone to (1, 1, 1). -/
def clientWithPlayer : Session (Engine.Table × List GameCall) :=
  { engine := ([(0, 7), (1, 8)], [])
    network := { active := true }
    localNetPlayer := some { networkId := 1, localId := 0 }
    netPlayers :=
      [{ networkId := 2, localId := 1, position := ⟨0x3F800000, 0x3F800000, 0x3F800000⟩ }] }

def shortMovement : Packet :=
  { systemAddress := { ip := 1, port := 2 }
    guid := 0
    data := [idPlayerMovement, 0, 0, 0, 2]
    nonempty := by simp }

theorem short_movement_harmless_iff :
    Harmless localGame 0 clientWithPlayer shortMovement ↔
      (clientWithPlayer.network.active = true →
        Tolerates localGame.recorded clientWithPlayer shortMovement) :=
  short_packets_harmless_iff localGame 0 clientWithPlayer shortMovement (by decide)

/-- Five bytes put the player with id 2 at the origin. -/
theorem short_movement_moves :
    ¬ ∀ (E : Engine Engine.Table) (rounds : Nat) (s : Session (Engine.Table × List GameCall))
      (packet : Packet), packet.kind ∈ playerMessageKinds → Harmless E rounds s packet := by
  intro hall
  have hsame := hall localGame 0 clientWithPlayer shortMovement (by decide)
  have hmoved := congrArg (fun outcome => outcome.toOption.map Crew.netPlayers) hsame
  exact absurd hmoved (by decide)

end Harmless

end Session
end Mod
end Crossover
