import Crossover.Mod.Avatars

/-!
# Waiting — a session without a local player

`CreateNetPlayer`, `CreateNetPlayers` and `DestroyNetPlayer` dereference `localNetPlayer` without a
test.  With a local player in place no step of a session can fail that way.  A session that waits
for its local player survives every event that is not a creation, and while it waits it announces
nothing: `Hushed` is what it has not done yet.
-/

namespace Crossover
namespace Mod
namespace Session

open Wire

variable {σ : Type}

/-- The session is open and has no local player. -/
def Waiting (s : Session σ) : Prop :=
  s.network.active = true ∧ s.localNetPlayer = none

/-- The session is not about to announce itself and has not done so. -/
structure Hushed (s : Session σ) : Prop where
  regionLoad : s.updateRegionLoadCallbacks = []
  silent : ∀ send, PeerCall.send send ∈ s.calls → send.data.head? ≠ some idCreateNetPlayer

/-- The call did not follow a null `localNetPlayer`. -/
def Safe (result : Except Fault (Session σ)) : Prop :=
  result ≠ .error .nullLocalNetPlayer

theorem safe_ok (s : Session σ) : Safe (.ok s) := by
  intro h
  cases h

/-! ## With a local player -/

section Present

variable {E : Engine σ} {s s' : Session σ}

theorem createNetPlayers_ok (E : Engine σ) (hlocal : s.localNetPlayer.isSome = true)
    (networkId : Int32) (position : Vec3) (defGlobalIndex : Int32) :
    ∃ s', s.createNetPlayers E networkId position defGlobalIndex = .ok s' ∧
      s'.localNetPlayer = s.localNetPlayer := by
  unfold createNetPlayers
  split
  · rename_i hnone
    rw [hnone] at hlocal
    cases hlocal
  · split
    · rcases createNetPlayer_ok E hlocal networkId position defGlobalIndex with ⟨s', hok⟩
      exact ⟨s', hok, (createNetPlayer_cases hok).1⟩
    · exact ⟨s, rfl, rfl⟩

theorem createNetPlayersLoop_ok (E : Engine σ) (count : Nat) (bs : BitStream)
    (hlocal : s.localNetPlayer.isSome = true) :
    ∃ s', createNetPlayersLoop E count bs s = .ok s' ∧ s'.localNetPlayer = s.localNetPlayer := by
  induction count generalizing bs s with
  | zero => exact ⟨s, rfl, rfl⟩
  | succ count ih =>
    simp only [createNetPlayersLoop]
    generalize readCreateNetPlayer (E.indeterminate s.engine) bs = entry
    rcases createNetPlayers_ok E hlocal entry.1.1 entry.1.2.2 entry.1.2.1 with ⟨s', hok, hkept⟩
    rcases ih entry.2 (hkept ▸ hlocal) with ⟨s'', hrest, hkept'⟩
    exact ⟨s'', by simp [hok, hrest], hkept'.trans hkept⟩

theorem safe_destroyNetPlayers (E : Engine σ) (rounds : Nat)
    (hlocal : s.localNetPlayer.isSome = true) : Safe (destroyNetPlayers E rounds s) := by
  induction rounds generalizing s with
  | zero =>
    cases hlist : s.netPlayers with
    | nil =>
      rw [destroyNetPlayers_nil E hlist]
      exact safe_ok s
    | cons front rest =>
      rw [destroyNetPlayers_zero E hlist]
      -- Running out of rounds is a fault, but not this one.
      intro h
      cases h
  | succ rounds ih =>
    cases hlist : s.netPlayers with
    | nil =>
      rw [destroyNetPlayers_nil E hlist]
      exact safe_ok s
    | cons front rest =>
      rcases destroyNetPlayer_ok E hlocal front.networkId with ⟨s', hok⟩
      have hkept := (destroyNetPlayer_kept hok).1
      rw [destroyNetPlayers_succ E hlist, hok]
      exact ih (hkept ▸ hlocal)

theorem safe_disconnect (E : Engine σ) (rounds : Nat) (hlocal : s.localNetPlayer.isSome = true) :
    Safe (s.disconnect E rounds) := by
  unfold disconnect
  split
  · exact safe_ok s
  · have hsafe := safe_destroyNetPlayers E rounds
      (s := { s with network := { s.network with active := false } }) hlocal
    simp only [removeConnections]
    cases hresult : destroyNetPlayers E rounds
        { s with network := { s.network with active := false } } with
    | ok cleared => exact safe_ok _
    | error fault =>
      cases fault with
      | nullLocalNetPlayer => exact absurd hresult hsafe
      | _ =>
        intro h
        cases h

theorem safe_handleLoss (E : Engine σ) (rounds : Nat) (packet : Packet)
    (hlocal : s.localNetPlayer.isSome = true) : Safe (s.handleLoss E rounds packet) := by
  simp only [handleLoss, removeConnection]
  generalize s.getNetworkIdFromAddress E packet.systemAddress = networkId
  rcases destroyNetPlayer_ok E hlocal networkId with ⟨s', hok⟩
  have hkept := (destroyNetPlayer_kept hok).1
  simp only [hok]
  split
  · exact safe_disconnect E rounds (hkept ▸ hlocal)
  · exact safe_ok _

theorem safe_sendMotion (E : Engine σ) (s : Session σ) (networkId : Int32) (bs : BitStream) :
    Safe (s.sendMotion E networkId bs) := by
  unfold sendMotion
  split
  · intro h
    cases h
  · split <;> exact safe_ok _

theorem safe_runMovementCallback (E : Engine σ) (s : Session σ) (callback : MotionCallback) :
    Safe (s.runMovementCallback E callback) := by
  cases callback with
  | broadcast networkId creature => exact safe_sendMotion E s _ _
  | apply networkId creature =>
    simp only [runMovementCallback]
    split
    · exact safe_ok s
    · split <;> exact safe_ok _

theorem safe_runFacingCallback (E : Engine σ) (s : Session σ) (callback : MotionCallback) :
    Safe (s.runFacingCallback E callback) := by
  cases callback with
  | broadcast networkId creature => exact safe_sendMotion E s _ _
  | apply networkId creature =>
    simp only [runFacingCallback]
    split <;> exact safe_ok _

/-- The hooks call no method that dereferences `localNetPlayer`. -/
theorem safe_runAll {run : Session σ → MotionCallback → Except Fault (Session σ)}
    (hsafe : ∀ (s : Session σ) callback, Safe (run s callback))
    (callbacks : CallbackMap MotionCallback) (s : Session σ) : Safe (runAll run callbacks s) := by
  induction callbacks generalizing s with
  | nil => exact safe_ok s
  | cons entry rest ih =>
    simp only [runAll]
    cases hresult : run s entry.2 with
    | ok s' => exact ih s'
    | error fault =>
      have hfirst := hsafe s entry.2
      rw [hresult] at hfirst
      exact hfirst

/-- No step of a session with a local player follows a null pointer. -/
theorem safe_step_of_isSome (E : Engine σ) (hlocal : s.localNetPlayer.isSome = true)
    (event : SessionEvent σ) : Safe (s.step E event) := by
  cases event with
  | packet packet rounds =>
    simp only [step, update]
    split
    · exact safe_ok s
    · cases hkind : packet.kind with
      | connectionNotification =>
        simp only [handleConnectionNotification, connectionNotification]
        split
        · rename_i hnone
          -- The connection is added before the test, and the local player is untouched by it.
          have hgone : s.localNetPlayer = none := hnone
          rw [hgone] at hlocal
          cases hlocal
        · split <;> exact safe_ok _
      | createNetPlayer =>
        rcases createNetPlayer_ok E hlocal (createdEntry E s packet).1
          (createdEntry E s packet).2.2 (createdEntry E s packet).2.1 with ⟨s', hok⟩
        have hsafe := safe_ok s'
        rw [← hok] at hsafe
        exact hsafe
      | createNetPlayers =>
        simp only [handleCreateNetPlayers]
        generalize (payload packet).read (0 : Int32) = count
        rcases createNetPlayersLoop_ok E count.1.toNatClampNeg count.2 hlocal with ⟨s', hok, _⟩
        rw [hok]
        exact safe_ok s'
      | disconnectionNotification => exact safe_handleLoss E rounds packet hlocal
      | connectionLost => exact safe_handleLoss E rounds packet hlocal
      | destroyNetPlayer =>
        simp only [handleDestroyNetPlayer]
        generalize (payload packet).read (-1 : Int32) = networkId
        rcases destroyNetPlayer_ok E hlocal networkId.1 with ⟨s', hok⟩
        rw [hok]
        exact safe_ok s'
      | connectionAttemptFailed =>
        simp only [handleConnectionAttemptFailed]
        split
        · exact safe_disconnect E rounds hlocal
        · exact safe_ok s
      | _ => exact safe_ok _
  | updateRegionLoad => exact safe_ok _
  | resolveMovementAcceleration =>
    exact safe_runAll (safe_runMovementCallback E) _ s
  | resolveFacingDirection =>
    exact safe_runAll (safe_runFacingCallback E) _ s
  | game engine => exact safe_ok _
  | disconnect rounds => exact safe_disconnect E rounds hlocal

/-- A session that is still open has not lost its local player. -/
theorem isSome_step (hlocal : s.localNetPlayer.isSome = true) {event : SessionEvent σ}
    (h : s.step E event = .ok s') (hactive : s'.network.active = true) :
    s'.localNetPlayer.isSome = true := by
  cases step_change h with
  | fewer hfewer =>
    -- The local player goes only in `Disconnect`, which closes the session first.
    rcases hfewer.localNetPlayer with hsame | ⟨_, _, hover⟩
    · rw [hsame]
      exact hlocal
    · rw [hover] at hactive
      cases hactive
  | createNetPlayer _ _ hcreated =>
    rw [(createNetPlayer_cases hcreated).1]
    exact hlocal
  | @createNetPlayers _ _ count bs _ hloop =>
    rcases createNetPlayersLoop_ok E count bs hlocal with ⟨s'', hok, hkept⟩
    obtain rfl := Except.ok.inj (hloop.symm.trans hok)
    rw [hkept]
    exact hlocal
  | @createLocalNetPlayer packet _ s₀ _ _ _ hsame _ =>
    rcases createLocalNetPlayer_cases E s₀ (readCreateLocalNetPlayer (payload packet)).1
      (readCreateLocalNetPlayer (payload packet)).2 with ⟨_, hkept⟩ | ⟨_, hset, _⟩
    · rw [hkept, hsame]
      exact hlocal
    · rw [hset.localNetPlayer]
      rfl

end Present

/-! ## While waiting -/

section Waits

variable {E : Engine σ} {s s' : Session σ}

/-- The packets a waiting session survives. -/
def Tolerable (packet : Packet) : Prop :=
  packet.kind ≠ .connectionNotification ∧ packet.kind ≠ .createNetPlayer ∧
    packet.kind ≠ .createNetPlayers

/-- The call is safe, and a session that waits behind it is still hushed. -/
def StaysHushed (result : Except Fault (Session σ)) : Prop :=
  Safe result ∧ ∀ s', result = .ok s' → Waiting s' → Hushed s'

theorem StaysHushed.of_ok {s' : Session σ} (h : Waiting s' → Hushed s') :
    StaysHushed (.ok s') := by
  refine ⟨safe_ok s', ?_⟩
  intro s'' heq
  obtain rfl := Except.ok.inj heq
  exact h

theorem StaysHushed.of_same (h : Hushed s) {s' : Session σ}
    (hregion : s'.updateRegionLoadCallbacks = s.updateRegionLoadCallbacks)
    (hcalls : s'.calls = s.calls) : StaysHushed (.ok s') :=
  StaysHushed.of_ok fun _ => ⟨hregion.trans h.regionLoad, hcalls ▸ h.silent⟩

theorem staysHushed_same (h : Hushed s) : StaysHushed (.ok s) :=
  StaysHushed.of_same h rfl rfl

/-- A session whose peer has been shut down does not wait. -/
theorem StaysHushed.of_inactive {s' : Session σ} (h : s'.network.active = false) :
    StaysHushed (.ok s') := by
  refine StaysHushed.of_ok ?_
  intro hw
  have hfalse := h.symm.trans hw.1
  cases hfalse

/-- A removal finds nobody. -/
theorem destroyNetPlayer_waiting (hneg : ∀ e, E.getPlayer e (-1) = none) (hs : Placed s)
    (hnone : s.localNetPlayer = none) (networkId : Int32) :
    s.destroyNetPlayer E networkId = .ok s := by
  have hlookup : s.getLocalIdFromNetworkId networkId = -1 := by
    simp [getLocalIdFromNetworkId, hnone, hs.netPlayers_nil hnone]
  simp [destroyNetPlayer, hlookup, hneg]

theorem disconnect_waiting (E : Engine σ) (rounds : Nat) (hs : Placed s) (hw : Waiting s) :
    ∃ s', s.disconnect E rounds = .ok s' ∧ s'.network.active = false := by
  have hcleared := destroyNetPlayers_nil E
    (s := { s with network := { s.network with active := false } }) (hs.netPlayers_nil hw.2) rounds
  simp only [disconnect, hw.1, removeConnections, hcleared, Bool.not_true, Bool.false_eq_true,
    if_false]
  have hself := destroyLocalNetPlayer_cases E
    { s with network := { s.network with active := false, connections := [] } }
  exact ⟨_, rfl, congrArg Network.active hself.2.2⟩

theorem staysHushed_disconnect (E : Engine σ) (rounds : Nat) (hs : Placed s) (hw : Waiting s) :
    StaysHushed (s.disconnect E rounds) := by
  rcases disconnect_waiting E rounds hs hw with ⟨s', hok, hover⟩
  rw [hok]
  exact StaysHushed.of_inactive hover

theorem staysHushed_handleLoss (hneg : ∀ e, E.getPlayer e (-1) = none) (rounds : Nat)
    (packet : Packet) (hs : Placed s) (hw : Waiting s) (hq : Hushed s) :
    StaysHushed (s.handleLoss E rounds packet) := by
  have hdestroyed := destroyNetPlayer_waiting hneg hs hw.2
    (s.getNetworkIdFromAddress E packet.systemAddress)
  simp only [handleLoss, removeConnection, hdestroyed]
  split
  · apply staysHushed_disconnect
    · exact hs.congr rfl rfl
    · exact hw
  · exact StaysHushed.of_same hq rfl rfl

/-- An assignment ends the waiting or changes nothing that matters. -/
theorem staysHushed_handleCreateLocalNetPlayer (E : Engine σ) (packet : Packet) (hq : Hushed s) :
    StaysHushed (.ok (s.handleCreateLocalNetPlayer E packet)) := by
  simp only [handleCreateLocalNetPlayer]
  generalize hstart : (Session.mk _ _ _ _ _ _ _ _ : Session σ) = s₀
  have hkept : s₀.updateRegionLoadCallbacks = s.updateRegionLoadCallbacks ∧
      s₀.calls = s.calls := by
    rw [← hstart]
    exact ⟨rfl, rfl⟩
  rcases createLocalNetPlayer_cases E s₀ (readCreateLocalNetPlayer (payload packet)).1
    (readCreateLocalNetPlayer (payload packet)).2 with ⟨_, hsame⟩ | ⟨_, hset, _⟩
  · rw [hsame]
    exact StaysHushed.of_same hq hkept.1 hkept.2
  · refine StaysHushed.of_ok ?_
    intro hw'
    have hnone := hset.localNetPlayer.symm.trans hw'.2
    cases hnone

theorem staysHushed_peerSend (hq : Hushed s) {data : List UInt8}
    (hdata : data.head? ≠ some idCreateNetPlayer) (priority : PacketPriority)
    (reliability : PacketReliability) (address : SystemAddress) :
    StaysHushed (.ok (s.peerSend data priority reliability address)) := by
  unfold peerSend
  split
  · refine StaysHushed.of_ok fun _ => ⟨hq.regionLoad, ?_⟩
    intro send hsend
    rcases List.mem_append.1 hsend with hold | hnew
    · exact hq.silent send hold
    · obtain rfl := PeerCall.send.inj (List.mem_singleton.1 hnew)
      exact hdata
  · exact staysHushed_same hq

theorem isHost_waiting (hw : Waiting s) : s.isHost = false := by
  simp [isHost, hw.2]

/-- A closure that returns without a local player has sent nothing and registered nothing. -/
structure Untouched (s s' : Session σ) : Prop where
  localNetPlayer : s'.localNetPlayer = s.localNetPlayer
  regionLoad : s'.updateRegionLoadCallbacks = s.updateRegionLoadCallbacks
  calls : s'.calls = s.calls

theorem Moves.untouched (h : Moves E s s') (hnone : s.localNetPlayer = none) :
    Untouched s s' := by
  cases h with
  | sent hsent =>
    simp only [sendMotion, hnone] at hsent
    cases hsent
  | applied engine happlied =>
    rw [happlied]
    exact ⟨rfl, rfl, rfl⟩

/-- Closures that an earlier session has left behind do no harm that the session could tell. -/
theorem staysHushed_runAll {run : Session σ → MotionCallback → Except Fault (Session σ)}
    (hsafe : ∀ (s : Session σ) callback, Safe (run s callback))
    (hrun : ∀ {s s' : Session σ} {callback}, run s callback = .ok s' → Moves E s s')
    (callbacks : CallbackMap MotionCallback) (hw : Waiting s) (hq : Hushed s) :
    StaysHushed (runAll run callbacks s) := by
  refine ⟨safe_runAll hsafe callbacks s, ?_⟩
  intro s' hok _
  have hsame : Untouched s s' := by
    refine runAll_rel (R := fun s s' => s.localNetPlayer = none → Untouched s s')
      (fun _ _ => ⟨rfl, rfl, rfl⟩) ?_ (fun hcall => (hrun hcall).untouched) hok hw.2
    intro s s' s'' hfirst hrest hnone
    have hstep := hfirst hnone
    have hlater := hrest (hstep.localNetPlayer.trans hnone)
    exact ⟨hlater.localNetPlayer.trans hstep.localNetPlayer,
      hlater.regionLoad.trans hstep.regionLoad, hlater.calls.trans hstep.calls⟩
  exact ⟨hsame.regionLoad.trans hq.regionLoad, hsame.calls ▸ hq.silent⟩

/-- What a waiting session survives leaves it hushed. -/
theorem staysHushed_step (hneg : ∀ e, E.getPlayer e (-1) = none) (hs : Placed s) (hw : Waiting s)
    (hq : Hushed s) {event : SessionEvent σ}
    (hevent : ∀ packet rounds, event = .packet packet rounds → Tolerable packet) :
    StaysHushed (s.step E event) := by
  cases event with
  | packet packet rounds =>
    have htolerable := hevent packet rounds rfl
    simp only [step, update, hw.1, Bool.not_true, Bool.false_eq_true, if_false]
    cases hkind : packet.kind with
    | connectionRequestAccepted => exact staysHushed_peerSend hq (by decide) _ _ _
    -- The three messages whose handlers dereference `localNetPlayer` are not tolerable.
    | connectionNotification => exact absurd hkind htolerable.1
    | createLocalNetPlayer => exact staysHushed_handleCreateLocalNetPlayer E packet hq
    | createNetPlayer => exact absurd hkind htolerable.2.1
    | createNetPlayers => exact absurd hkind htolerable.2.2
    | playerMovement =>
      simp only [handleNetPlayerMovement, receiveNetPlayerMovement, isHost_waiting hw]
      exact StaysHushed.of_same hq rfl rfl
    | playerRotation =>
      simp only [handleNetPlayerRotation, receiveNetPlayerRotation, isHost_waiting hw]
      exact StaysHushed.of_same hq rfl rfl
    | disconnectionNotification => exact staysHushed_handleLoss hneg rounds packet hs hw hq
    | connectionLost => exact staysHushed_handleLoss hneg rounds packet hs hw hq
    -- No player has an id, so the lookup gives the local id -1, which is nobody's.
    | destroyNetPlayer =>
      simp only [handleDestroyNetPlayer, destroyNetPlayer_waiting hneg hs hw.2]
      exact staysHushed_same hq
    | connectionAttemptFailed =>
      simp only [handleConnectionAttemptFailed]
      split
      · exact staysHushed_disconnect E rounds hs hw
      · exact staysHushed_same hq
    | _ => exact staysHushed_same hq
  | updateRegionLoad =>
    simp only [step, updateRegionLoad, hq.regionLoad, List.foldl_nil]
    exact staysHushed_same hq
  | resolveMovementAcceleration =>
    exact staysHushed_runAll (safe_runMovementCallback E) moves_runMovementCallback _ hw hq
  | resolveFacingDirection =>
    exact staysHushed_runAll (safe_runFacingCallback E) moves_runFacingCallback _ hw hq
  | game engine => exact StaysHushed.of_same hq rfl rfl
  | disconnect rounds => exact staysHushed_disconnect E rounds hs hw

/-! ## Behind a shutdown -/

/-- A session whose peer has been shut down is never open again. -/
theorem inactive_step (E : Engine σ) (hover : s.network.active = false) (event : SessionEvent σ) :
    Safe (s.step E event) ∧ ∀ s', s.step E event = .ok s' → s'.network.active = false := by
  -- Every event but the two motion hooks returns a state we can name.
  have hok : ∀ s' : Session σ, s'.network.active = false → s.step E event = .ok s' →
      Safe (s.step E event) ∧ ∀ s', s.step E event = .ok s' → s'.network.active = false := by
    intro s' hclosed hstep
    rw [hstep]
    refine ⟨safe_ok s', ?_⟩
    intro s'' heq
    obtain rfl := Except.ok.inj heq
    exact hclosed
  cases event with
  | packet packet rounds => exact hok s hover (by simp [step, update, hover])
  | updateRegionLoad =>
    have hquiet := quiet_updateRegionLoad E s
    exact hok (s.updateRegionLoad E) (by rw [hquiet.network, hover]) rfl
  | resolveMovementAcceleration =>
    refine ⟨safe_runAll (safe_runMovementCallback E) _ s, ?_⟩
    intro s' hrun
    rw [(sameManager_runAll moves_runMovementCallback hrun).network, hover]
  | resolveFacingDirection =>
    refine ⟨safe_runAll (safe_runFacingCallback E) _ s, ?_⟩
    intro s' hrun
    rw [(sameManager_runAll moves_runFacingCallback hrun).network, hover]
  | game engine => exact hok { s with engine := engine } hover rfl
  | disconnect rounds => exact hok s hover (by simp [step, disconnect, hover])

end Waits

/-! ## A client's session -/

/-- What a client's session keeps: as long as it waits it is hushed. -/
structure ClientInv (s : Session σ) : Prop where
  placed : Placed s
  hushed : Waiting s → Hushed s

theorem clientInv_opened (E : Engine σ) (process : Process σ) (ip : String) (port : UInt16)
    (startup connected : Bool) :
    ClientInv (opened E process (.connect ip port startup connected)) := by
  refine ⟨(opened_players E process _).1, fun _ => ?_⟩
  simp only [opened, connect]
  split
  · exact ⟨rfl, by simp [made]⟩
  · split <;> exact ⟨rfl, by simp [made]⟩

/-- A step of a client's session is safe, if what a waiting session gets is tolerable, and keeps
the invariant. -/
theorem ClientInv.step {E : Engine σ} (hneg : ∀ e, E.getPlayer e (-1) = none) {s : Session σ}
    (h : ClientInv s) {event : SessionEvent σ}
    (hevent : Waiting s → ∀ packet rounds, event = .packet packet rounds → Tolerable packet) :
    Safe (s.step E event) ∧ ∀ s', s.step E event = .ok s' → ClientInv s' := by
  cases hactive : s.network.active with
  | false =>
    rcases inactive_step E hactive event with ⟨hsafe, hover⟩
    refine ⟨hsafe, ?_⟩
    intro s' hok
    refine ⟨h.placed.step hok, ?_⟩
    intro hw
    have hfalse := (hover s' hok).symm.trans hw.1
    cases hfalse
  | true =>
    cases hlocal : s.localNetPlayer with
    -- While it waits, the invariant says that no closure could run.
    | none =>
      have hw : Waiting s := ⟨hactive, hlocal⟩
      rcases staysHushed_step hneg h.placed hw (h.hushed hw) (hevent hw) with ⟨hsafe, hquiet⟩
      exact ⟨hsafe, fun s' hok => ⟨h.placed.step hok, hquiet s' hok⟩⟩
    -- With a local player nothing can go wrong, and the session never waits again.
    | some p =>
      have hsome : s.localNetPlayer.isSome = true := by rw [hlocal]; rfl
      refine ⟨safe_step_of_isSome E hsome event, ?_⟩
      intro s' hok
      refine ⟨h.placed.step hok, ?_⟩
      intro hw
      have hsome' := isSome_step hsome hok hw.1
      rw [hw.2] at hsome'
      cases hsome'

/-- A session that waits behind a step has waited before it. -/
theorem waiting_of_step {E : Engine σ} {s s' : Session σ} {event : SessionEvent σ}
    (h : s.step E event = .ok s') (hw : Waiting s') : Waiting s := by
  refine ⟨?_, ?_⟩
  · cases hactive : s.network.active with
    | true => rfl
    | false =>
      have hfalse := (inactive_step E hactive event).2 s' h
      rw [hw.1] at hfalse
      cases hfalse
  · cases hlocal : s.localNetPlayer with
    | none => rfl
    | some p =>
      have hsome : s.localNetPlayer.isSome = true := by rw [hlocal]; rfl
      have hsome' := isSome_step hsome h hw.1
      rw [hw.2] at hsome'
      cases hsome'

end Session
end Mod
end Crossover
