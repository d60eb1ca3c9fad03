import Crossover.System.WireFormat

/-!
# RosterMessage — the count of an `ID_CREATE_NET_PLAYERS` and the records behind it

`BroadcastCreateNetPlayers` writes the number of players, then the records of those whose creature
it finds; the callback reads as many records as the count says.

* `rosterRecords` is what the callback's loop hands to the manager, one record a round;
* `rosterWritten` is the list of players that are written;
* `roster_well_counted_iff` says when the two are the same.
-/

namespace Crossover
namespace Mod

open Wire

namespace Session

variable {σ : Type}

/-! ## What the roster callback reads -/

/-- The records the loop reads, round by round; `unassigned i` is what the definition index holds
before round `i` reads it. -/
def rosterRecords (unassigned : Nat → Int32) : Nat → BitStream → List RosterEntry
  | 0, _ => []
  | count + 1, bs =>
      let entry := readCreateNetPlayer (unassigned 0) bs
      { networkId := entry.1.1, defGlobalIndex := entry.1.2.1, position := entry.1.2.2 } ::
        rosterRecords (fun round => unassigned (round + 1)) count entry.2

/-- The callback's loop hands its records to the manager one after the other. -/
theorem createNetPlayersLoop_eq (E : Engine σ) (count : Nat) (bs : BitStream) (s : Session σ) :
    ∃ unassigned, createNetPlayersLoop E count bs s =
      createEach E (rosterRecords unassigned count bs) s := by
  induction count generalizing bs s with
  | zero => exact ⟨fun _ => 0, rfl⟩
  | succ count ih =>
    let entry := readCreateNetPlayer (E.indeterminate s.engine) bs
    cases hfirst : s.createNetPlayers E entry.1.1 entry.1.2.2 entry.1.2.1 with
    | error fault =>
      refine ⟨fun _ => E.indeterminate s.engine, ?_⟩
      simp only [createNetPlayersLoop, rosterRecords, createEach, entry] at hfirst ⊢
      simp only [hfirst]
    | ok s' =>
      obtain ⟨unassigned, hrest⟩ := ih entry.2 s'
      let drawn : Nat → Int32 := Nat.rec (E.indeterminate s.engine) fun round _ => unassigned round
      have hnow : drawn 0 = E.indeterminate s.engine := rfl
      have hlater : (fun round => drawn (round + 1)) = unassigned := rfl
      refine ⟨drawn, ?_⟩
      simp only [createNetPlayersLoop, rosterRecords, createEach, entry, hnow, hlater]
        at hfirst hrest ⊢
      simp only [hfirst, hrest]

/-- Records that are there are read as they are; the loop then goes on behind them. -/
theorem rosterRecords_of_remaining {entries : List RosterEntry} {rest : List UInt8}
    (more : Nat) {bs : BitStream} (unassigned : Nat → Int32)
    (h : bs.Remaining (entries.flatMap RosterEntry.bytes ++ rest)) :
    ∃ behind, behind.Remaining rest ∧
      rosterRecords unassigned (entries.length + more) bs =
        entries ++
          rosterRecords (fun round => unassigned (entries.length + round)) more behind := by
  induction entries generalizing bs unassigned with
  | nil => exact ⟨bs, by simpa using h, by simp⟩
  | cons entry entries ih =>
    rw [List.flatMap_cons, List.append_assoc] at h
    have hentry := readCreateNetPlayer_of_remaining (unassigned 0) h
    obtain ⟨behind, hbehind, hrest⟩ := ih (fun round => unassigned (round + 1)) hentry.2
    refine ⟨behind, hbehind, ?_⟩
    have hlength : (entry :: entries).length + more = (entries.length + more) + 1 := by
      simp only [List.length_cons]
      omega
    have hround : ∀ round, entries.length + round + 1 = (entry :: entries).length + round := by
      intro round
      simp only [List.length_cons]
      omega
    rw [hlength, rosterRecords, hentry.1, hrest]
    simp only [hround, List.cons_append]

@[simp] theorem length_rosterRecords (unassigned : Nat → Int32) (count : Nat) (bs : BitStream) :
    (rosterRecords unassigned count bs).length = count := by
  induction count generalizing unassigned bs with
  | zero => rfl
  | succ count ih => simp [rosterRecords, ih]

/-- The count field of the bytes of a roster message, and the stream behind it. -/
def rosterCount (data : List UInt8) : Int32 × BitStream :=
  ((BitStream.ofData data).ignoreBytes 1).read (0 : Int32)

theorem rosterCount_of_data {count : Int32} {body : List UInt8}
    {data : List UInt8} (hdata : data = idCreateNetPlayers :: (encode count ++ body)) :
    (rosterCount data).1 = count ∧ (rosterCount data).2.Remaining body := by
  have hall := BitStream.remaining_ofData data
  rw [hdata] at hall
  have hbody := hall.ignoreBytes [idCreateNetPlayers]
  have hcount := hbody.read (0 : Int32)
  rw [rosterCount, hdata]
  exact hcount

/-! ## What the host writes -/

/-- The record of a player, when its creature is found. -/
def recordOf (E : Engine σ) (s : Session σ) (networkId : Int32) : Option RosterEntry :=
  (s.getCreatureFromNetworkId E networkId).map fun creature =>
    { networkId := networkId
      defGlobalIndex := E.defGlobalIndex s.engine creature
      position := E.getPos s.engine creature }

/-- The local player, then the net players. -/
def rosterIds (s : Session σ) : List Int32 :=
  s.localNetPlayer.toList.map LocalNetPlayer.networkId ++ s.netPlayers.map NetPlayer.networkId

/-- The records of the players whose creature is found. -/
def rosterWritten (E : Engine σ) (s : Session σ) : List RosterEntry :=
  s.rosterIds.filterMap (s.recordOf E)

/-- The number of net players whose creature is missing. -/
def missingCreatures (E : Engine σ) (s : Session σ) : Nat :=
  (s.netPlayers.map NetPlayer.networkId).countP fun networkId => (s.recordOf E networkId).isNone

section Writes

variable (E : Engine σ) (s : Session σ)

theorem data_writeRosterEntry {networkId : Int32} {creature : CreaturePtr}
    (hcreature : s.getCreatureFromNetworkId E networkId = some creature) (bs : BitStream) :
    ∃ entry, s.recordOf E networkId = some entry ∧
      (s.writeRosterEntry E bs networkId creature).data = bs.data ++ entry.bytes := by
  have hrecord : s.recordOf E networkId =
      some { networkId := networkId
             defGlobalIndex := E.defGlobalIndex s.engine creature
             position := E.getPos s.engine creature } := by
    simp only [recordOf, hcreature, Option.map_some]
  refine ⟨_, hrecord, ?_⟩
  simp [writeRosterEntry, RosterEntry.bytes]

/-- The loop over the net players. -/
theorem data_writeNetPlayers (bs : BitStream) :
    (s.writeNetPlayers E bs).data = bs.data ++
      ((s.netPlayers.map NetPlayer.networkId).filterMap (s.recordOf E)).flatMap
        RosterEntry.bytes := by
  unfold writeNetPlayers
  induction s.netPlayers generalizing bs with
  | nil => simp
  | cons netPlayer rest ih =>
    rw [List.foldl_cons, ih]
    cases hcreature : s.getCreatureFromNetworkId E netPlayer.networkId with
    | none => simp [recordOf, hcreature]
    | some creature =>
      obtain ⟨entry, hentry, hdata⟩ := s.data_writeRosterEntry E hcreature bs
      simp [hentry, hdata]

variable {E s}

/-- What `SendToClient` adds to the calls is a single send of the stream. -/
theorem sendToClient_data {networkId : Int32} {bs : BitStream} {reliability : PacketReliability}
    {send : Send} (h : (s.sendToClient networkId bs reliability).calls = s.calls ++ [.send send]) :
    send.data = bs.data := by
  have hsilent : s.calls ≠ s.calls ++ [.send send] := by
    intro hsame
    simpa using congrArg List.length hsame
  unfold sendToClient at h
  split at h
  · exact absurd h hsilent
  · unfold peerSend at h
    split at h
    · have hsend := List.append_cancel_left h
      simp only [List.cons.injEq, PeerCall.send.injEq, and_true] at hsend
      rw [← hsend]
    · exact absurd h hsilent

/-- The bytes of a roster that goes out. -/
theorem data_broadcastCreateNetPlayers {networkId : Int32} {send : Send}
    (h : (s.broadcastCreateNetPlayers E networkId).calls = s.calls ++ [.send send]) :
    send.data = idCreateNetPlayers ::
      (encode (Int32.ofNat s.rosterIds.length) ++
        (s.rosterWritten E).flatMap RosterEntry.bytes) ∧
    (s.rosterWritten E).length + s.missingCreatures E = s.rosterIds.length := by
  have hsplit : ∀ networkIds : List Int32,
      (networkIds.filterMap (s.recordOf E)).length +
        networkIds.countP (fun networkId => (s.recordOf E networkId).isNone) =
      networkIds.length := by
    intro networkIds
    induction networkIds with
    | nil => rfl
    | cons networkId rest ih =>
      cases hrecord : s.recordOf E networkId <;> simp [hrecord] <;> omega
  have hnet := hsplit (s.netPlayers.map NetPlayer.networkId)
  rw [List.length_map] at hnet
  simp only [broadcastCreateNetPlayers] at h
  cases hlocal : s.localNetPlayer with
  | none =>
    simp only [hlocal, Option.isSome_none, Bool.false_eq_true, if_false, Nat.add_zero] at h
    have hdata := sendToClient_data h
    rw [data_writeNetPlayers] at hdata
    refine ⟨?_, ?_⟩
    · simpa [rosterIds, rosterWritten, hlocal] using hdata
    · simpa [rosterIds, rosterWritten, missingCreatures, hlocal] using hnet
  | some localNetPlayer =>
    simp only [hlocal, Option.isSome_some, if_true] at h
    cases hcreature : s.getCreatureFromNetworkId E localNetPlayer.networkId with
    | none =>
      simp only [hcreature] at h
      simpa using congrArg List.length h
    | some creature =>
      simp only [hcreature] at h
      have hdata := sendToClient_data h
      obtain ⟨entry, hentry, hbytes⟩ := s.data_writeRosterEntry E hcreature
        ((BitStream.write {} idCreateNetPlayers).write
          (Int32.ofNat (s.netPlayers.length + 1)))
      rw [data_writeNetPlayers, hbytes] at hdata
      refine ⟨?_, ?_⟩
      · simpa [rosterIds, rosterWritten, hlocal, hentry, Nat.add_comm] using hdata
      · simp only [rosterIds, rosterWritten, missingCreatures, hlocal, Option.toList_some,
          List.map_cons, List.map_nil, List.singleton_append, List.filterMap_cons, hentry,
          List.length_cons, List.length_map]
        omega

end Writes

/-! ## Counting -/

/-- The bytes are a roster of these players that counts them. -/
structure RosterWellCounted (entries : List RosterEntry) (data : List UInt8) : Prop where
  layout : ∃ count : Int32,
    data = idCreateNetPlayers :: (encode count ++ entries.flatMap RosterEntry.bytes) ∧
      count.toInt = entries.length
  /-- The callback gets these records, whatever an unread definition index would hold. -/
  decoded : ∀ unassigned,
    rosterRecords unassigned (rosterCount data).1.toNatClampNeg (rosterCount data).2 = entries
  /-- All of its reads lie in the message. -/
  contained : kSizeCreateNetPlayersHeader +
    kSizeCreateNetPlayersEntry * (rosterCount data).1.toNatClampNeg ≤ data.length

/-- Nobody is skipped behind the count: the net players without a creature are none, or so many
that the `int` comes round. -/
def RosterComplete (E : Engine σ) (s : Session σ) : Prop :=
  2 ^ 32 ∣ s.missingCreatures E ∧ (s.rosterWritten E).length < 2 ^ 31

theorem rosterComplete_iff_of_lt {E : Engine σ} {s : Session σ}
    (hfew : s.netPlayers.length + 1 < 2 ^ 31) :
    RosterComplete E s ↔
      ∀ netPlayer ∈ s.netPlayers, s.getCreatureFromNetworkId E netPlayer.networkId ≠ none := by
  have hmissing : s.missingCreatures E ≤ s.netPlayers.length := by
    simpa [missingCreatures] using List.countP_le_length
      (l := s.netPlayers.map NetPlayer.networkId)
      (p := fun networkId => (s.recordOf E networkId).isNone)
  have hwritten : (s.rosterWritten E).length ≤ s.netPlayers.length + 1 := by
    have hids := List.length_filterMap_le (s.recordOf E) s.rosterIds
    have hone : s.rosterIds.length ≤ s.netPlayers.length + 1 := by
      cases hlocal : s.localNetPlayer <;> simp [rosterIds, hlocal]
    exact Nat.le_trans hids hone
  have hzero : s.missingCreatures E = 0 ↔
      ∀ netPlayer ∈ s.netPlayers,
        s.getCreatureFromNetworkId E netPlayer.networkId ≠ none := by
    simp [missingCreatures, List.countP_eq_zero, recordOf]
  rw [← hzero]
  constructor
  · intro hcomplete
    exact Nat.eq_zero_of_dvd_of_lt hcomplete.1 (by omega)
  · intro hnone
    exact ⟨hnone ▸ Nat.dvd_zero _, by omega⟩

/-- An `int` made of one number is another one when they differ by whole turns. -/
theorem toInt_ofNat_eq_iff {n m : Nat} (hle : m ≤ n) :
    (Int32.ofNat n).toInt = m ↔ 2 ^ 32 ∣ n - m ∧ m < 2 ^ 31 := by
  have htoInt : (Int32.ofNat n).toInt = (n : Int).bmod (2 ^ 32) := by
    simp
  rw [htoInt]
  constructor
  · intro heq
    have hlt := Int.bmod_lt (x := (n : Int)) (m := 2 ^ 32) (by decide)
    refine ⟨?_, by omega⟩
    have hmod := Int.bmod_emod (x := (n : Int)) (m := 2 ^ 32)
    rw [heq] at hmod
    omega
  · rintro ⟨hdvd, hlt⟩
    rw [Int.bmod_eq_iff (by decide)]
    omega

/-- The host's roster.  Whenever one goes out, it counts and carries the players written exactly
when none is skipped behind the count. -/
theorem roster_well_counted_iff (E : Engine σ) (s : Session σ) (networkId : Int32) (send : Send)
    (hsent : (s.broadcastCreateNetPlayers E networkId).calls = s.calls ++ [.send send]) :
    RosterWellCounted (s.rosterWritten E) send.data ↔ RosterComplete E s := by
  obtain ⟨hdata, hlength⟩ := data_broadcastCreateNetPlayers hsent
  have hcomplete : RosterComplete E s ↔
      (Int32.ofNat s.rosterIds.length).toInt = (s.rosterWritten E).length := by
    rw [toInt_ofNat_eq_iff (by omega), RosterComplete]
    have hmissing : s.rosterIds.length - (s.rosterWritten E).length = s.missingCreatures E := by
      omega
    rw [hmissing]
  obtain ⟨hcount, hrecords⟩ := rosterCount_of_data hdata
  rw [hcomplete]
  constructor
  · intro hwell
    obtain ⟨count, hcount', hcounted⟩ := hwell.layout
    rw [← hcount, (rosterCount_of_data hcount').1]
    exact hcounted
  · intro hcounted
    have hclamp : (rosterCount send.data).1.toNatClampNeg = (s.rosterWritten E).length := by
      rw [hcount, Int32.toNatClampNeg, hcounted, Int.toNat_natCast]
    exact
      { layout := ⟨_, hdata, hcounted⟩
        decoded := by
          intro unassigned
          rw [hclamp]
          have hall : (rosterCount send.data).2.Remaining
              ((s.rosterWritten E).flatMap RosterEntry.bytes ++ []) := by
            simpa using hrecords
          obtain ⟨behind, -, hread⟩ := rosterRecords_of_remaining 0 unassigned hall
          simpa [rosterRecords] using hread
        contained := by
          have hbytes := length_flatMap_bytes (s.rosterWritten E)
          rw [hclamp, hdata]
          simp only [List.length_cons, List.length_append, length_encode, hbytes, size_int,
            kSizeCreateNetPlayersHeader, kSizeCreateNetPlayersEntry, kMsgIdBytes, kIntBytes,
            kVec3Bytes]
          omega }

/-! ## A net player without a creature -/

/-- A host with client 1, whose net player has a creature only if `found` says so. -/
def hostWithClient (found : Bool) : Session Engine.Table :=
  { engine := if found then [(0, 7), (1, 8)] else [(0, 7)]
    network :=
      { active := true
        connections := [{ networkId := 0 }, { address := { ip := 1, port := 2 }, networkId := 1 }] }
    localNetPlayer := some { networkId := 0, localId := 0 }
    netPlayers := [{ networkId := 1, localId := 1 }] }

def localGame : Engine Engine.Table :=
  Engine.table fun _ port => { ip := 0, port := port }

/-- What `hostWithClient` sends. -/
def hostRoster (found : Bool) : Send :=
  { data := idCreateNetPlayers :: (encode (2 : Int32) ++
      ((hostWithClient found).rosterWritten localGame).flatMap RosterEntry.bytes)
    priority := .high
    reliability := .reliableOrdered
    address := { ip := 1, port := 2 } }

theorem roster_well_counted_iff_both_found :
    RosterWellCounted ((hostWithClient true).rosterWritten localGame) (hostRoster true).data ↔
      RosterComplete localGame (hostWithClient true) :=
  roster_well_counted_iff localGame (hostWithClient true) 1 (hostRoster true) (by decide)

/-- The count takes in the player that the loop skips. -/
theorem roster_miscounted :
    ¬ ∀ (E : Engine Engine.Table) (s : Session Engine.Table) (networkId : Int32) (send : Send),
      (s.broadcastCreateNetPlayers E networkId).calls = s.calls ++ [.send send] →
        RosterWellCounted (s.rosterWritten E) send.data := by
  intro hall
  have hwell := hall localGame (hostWithClient false) 1 (hostRoster false) (by decide)
  exact absurd hwell.contained (by decide)

end Session
end Mod
end Crossover
