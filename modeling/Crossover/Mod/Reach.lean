import Crossover.Mod.Effects

/-!
# Reach — whom an open session talks to

A session sends to its connections and to the address of the host.  `Within` is a step that keeps
to them and adds no connection; all of a session's steps are within reach but two: a notification
adds a connection, and an accepted request is answered to wherever it comes from.
-/

namespace Crossover
namespace Mod
namespace Session

open Wire

variable {σ : Type}

/-- The address belongs to a connection or to the host. -/
def Reaches (E : Engine σ) (s : Session σ) (address : SystemAddress) : Prop :=
  (∃ connection ∈ s.network.connections, connection.address = address) ∨
    address = E.systemAddress s.network.settings.ip s.network.settings.port

/-- What has been sent has gone to somebody within reach, and no connection is new. -/
structure Within (E : Engine σ) (s s' : Session σ) : Prop where
  calls : ∃ sent, s'.calls = s.calls ++ sent ∧ ∀ send, PeerCall.send send ∈ sent →
    s.network.active = true ∧ Reaches E s send.address
  connections : s'.network.connections ⊆ s.network.connections
  settings : s'.network.active = true →
    s.network.active = true ∧ s'.network.settings = s.network.settings

namespace Within

variable {E : Engine σ} {s s' s'' : Session σ}

theorem of_same (hnetwork : s'.network = s.network) (hcalls : s'.calls = s.calls) :
    Within E s s' := by
  -- Nothing has been sent.
  refine ⟨⟨[], by simp [hcalls], by simp⟩, ?_, ?_⟩
  · rw [hnetwork]
    exact List.Subset.refl _
  · intro hactive
    rw [hnetwork] at hactive ⊢
    exact ⟨hactive, rfl⟩

theorem refl (E : Engine σ) (s : Session σ) : Within E s s :=
  of_same rfl rfl

/-- Whoever is in reach later has been in reach before. -/
theorem reaches (h : Within E s s') (hactive : s'.network.active = true)
    {address : SystemAddress} (hreach : Reaches E s' address) : Reaches E s address := by
  rcases hreach with ⟨connection, hmem, haddr⟩ | hhost
  · exact Or.inl ⟨connection, h.connections hmem, haddr⟩
  · right
    rw [hhost, (h.settings hactive).2]

theorem trans (h : Within E s s') (h' : Within E s' s'') : Within E s s'' := by
  rcases h.calls with ⟨sent, hsent, hfirst⟩
  rcases h'.calls with ⟨more, hmore, hsecond⟩
  refine ⟨⟨sent ++ more, by rw [hmore, hsent, List.append_assoc], ?_⟩, ?_, ?_⟩
  · intro send hsend
    rcases List.mem_append.1 hsend with hsend | hsend
    · exact hfirst send hsend
    · -- A later send is on a peer that was open before, to somebody who was there before.
      rcases hsecond send hsend with ⟨hactive, hreach⟩
      exact ⟨(h.settings hactive).1, h.reaches hactive hreach⟩
  · exact List.Subset.trans h'.connections h.connections
  · intro hactive
    have hsecond := h'.settings hactive
    have hfirst := h.settings hsecond.1
    exact ⟨hfirst.1, hsecond.2.trans hfirst.2⟩

/-- On a peer that is shut down the rest of the network's state does not matter. -/
theorem of_closed (h : Within E s s') (hclosed : s''.network.active = false)
    (hcalls : s''.calls = s'.calls)
    (hconnections : s''.network.connections ⊆ s'.network.connections) : Within E s s'' := by
  refine ⟨by rw [hcalls]; exact h.calls, List.Subset.trans hconnections h.connections, ?_⟩
  intro hactive
  rw [hclosed] at hactive
  cases hactive

end Within

/-! ## Sending -/

section Sending

variable (E : Engine σ) (s : Session σ)

theorem within_peerSend (data : List UInt8) (priority : PacketPriority)
    (reliability : PacketReliability) {address : SystemAddress} (hreach : Reaches E s address) :
    Within E s (s.peerSend data priority reliability address) := by
  unfold peerSend
  split
  · rename_i hactive
    refine ⟨⟨_, rfl, ?_⟩, List.Subset.refl _, fun _ => ⟨hactive, rfl⟩⟩
    intro send hsend
    obtain rfl := PeerCall.send.inj (List.mem_singleton.1 hsend)
    exact ⟨hactive, hreach⟩
  · exact Within.refl E s

theorem within_sendToHost (bs : BitStream) (reliability : PacketReliability) :
    Within E s (s.sendToHost E bs reliability) :=
  within_peerSend E s _ _ _ (Or.inr rfl)

theorem within_sendToClient (networkId : Int32) (bs : BitStream)
    (reliability : PacketReliability) :
    Within E s (s.sendToClient networkId bs reliability) := by
  unfold sendToClient
  split
  · exact Within.refl E s
  · rename_i connection hfind
    exact within_peerSend E s _ _ _
      (Or.inl ⟨connection, List.mem_of_find?_eq_some hfind, rfl⟩)

theorem within_sendToAllClientsExcept (networkId : Int32) (bs : BitStream)
    (reliability : PacketReliability) :
    Within E s (s.sendToAllClientsExcept networkId bs reliability) := by
  unfold sendToAllClientsExcept
  have hreceivers : ∀ connection ∈ clientsExcept s.network.connections networkId,
      connection ∈ s.network.connections :=
    fun connection hmem => (List.mem_filter.1 hmem).1
  -- The receivers are fixed before the first send; every send leaves the connections alone.
  generalize clientsExcept s.network.connections networkId = receivers at hreceivers ⊢
  induction receivers generalizing s with
  | nil => exact Within.refl E s
  | cons connection rest ih =>
    have hhead := hreceivers connection List.mem_cons_self
    have hfirst := within_peerSend E s bs.data .high reliability
      (Or.inl ⟨connection, hhead, rfl⟩)
    refine hfirst.trans (ih _ ?_)
    intro other hother
    rw [(quiet_peerSend s _ _ _ _).network]
    exact hreceivers other (List.mem_cons_of_mem _ hother)

theorem within_broadcastCreateNetPlayers (networkId : Int32) :
    Within E s (s.broadcastCreateNetPlayers E networkId) := by
  simp only [broadcastCreateNetPlayers]
  split
  · exact within_sendToClient E s _ _ _
  · split
    · exact Within.refl E s
    · exact within_sendToClient E s _ _ _

theorem within_runRegionLoadCallback (callback : RegionLoadCallback) :
    Within E s (s.runRegionLoadCallback E callback) := by
  unfold runRegionLoadCallback
  split
  · exact Within.refl E s
  · have herased : Within E s
        { s with updateRegionLoadCallbacks := s.updateRegionLoadCallbacks.erase regionLoadKey } :=
      Within.of_same rfl rfl
    exact herased.trans (within_sendToHost E _ _ _)

theorem within_updateRegionLoad : Within E s (s.updateRegionLoad E) :=
  updateRegionLoad_rel (Within.refl E) Within.trans (within_runRegionLoadCallback E)

variable {E s} {s' : Session σ}

theorem within_sendMotion {networkId : Int32} {bs : BitStream}
    (h : s.sendMotion E networkId bs = .ok s') : Within E s s' := by
  unfold sendMotion at h
  split at h
  · cases h
  · split at h
    · cases h
      exact within_sendToAllClientsExcept E s _ _ _
    · cases h
      exact within_sendToHost E s _ _

theorem within_runAll {run : Session σ → MotionCallback → Except Fault (Session σ)}
    (hrun : ∀ {s s' : Session σ} {callback}, run s callback = .ok s' → Moves E s s')
    {callbacks : CallbackMap MotionCallback} (h : runAll run callbacks s = .ok s') :
    Within E s s' := by
  refine runAll_rel (Within.refl E) Within.trans ?_ h
  intro s s' callback hcall
  cases hrun hcall with
  | sent hsent => exact within_sendMotion hsent
  | applied engine happlied =>
    rw [happlied]
    exact Within.of_same rfl rfl

end Sending

/-! ## Players come and go -/

section Players

variable {E : Engine σ} {s s' : Session σ}

theorem within_applyNetPlayerMovement (E : Engine σ) (s : Session σ) (networkId : Int32) :
    Within E s (s.applyNetPlayerMovement E networkId) := by
  unfold applyNetPlayerMovement
  split <;> exact Within.of_same rfl rfl

theorem within_applyNetPlayerRotation (E : Engine σ) (s : Session σ) (networkId : Int32) :
    Within E s (s.applyNetPlayerRotation E networkId) := by
  unfold applyNetPlayerRotation
  split <;> exact Within.of_same rfl rfl

theorem within_broadcastLocalNetPlayerMovement (E : Engine σ) (s : Session σ)
    (networkId : Int32) : Within E s (s.broadcastLocalNetPlayerMovement E networkId) := by
  unfold broadcastLocalNetPlayerMovement
  split <;> exact Within.of_same rfl rfl

theorem within_broadcastLocalNetPlayerRotation (E : Engine σ) (s : Session σ)
    (networkId : Int32) : Within E s (s.broadcastLocalNetPlayerRotation E networkId) := by
  unfold broadcastLocalNetPlayerRotation
  split <;> exact Within.of_same rfl rfl

theorem within_teleportLocalNetPlayerToHost (E : Engine σ) (s : Session σ) (networkId : Int32)
    (position : Vec3) : Within E s (s.teleportLocalNetPlayerToHost E networkId position) := by
  unfold teleportLocalNetPlayerToHost
  split <;> exact Within.of_same rfl rfl

theorem within_createLocalNetPlayer (E : Engine σ) (s : Session σ) (networkId : Int32)
    (position : Vec3) : Within E s (s.createLocalNetPlayer E networkId position) := by
  simp only [createLocalNetPlayer]
  split
  · exact Within.refl E s
  · generalize hstart : (Session.mk _ _ _ _ _ _ _ _ : Session σ) = started
    have hstarted : Within E s started := by
      rw [← hstart]
      exact Within.of_same rfl rfl
    have hmotion := (within_broadcastLocalNetPlayerMovement E started networkId).trans
      (within_broadcastLocalNetPlayerRotation E _ networkId)
    split
    · exact (hstarted.trans hmotion).trans (within_teleportLocalNetPlayerToHost E _ _ _)
    · exact hstarted.trans hmotion

theorem within_createNetPlayer {networkId defGlobalIndex : Int32} {position : Vec3}
    (h : s.createNetPlayer E networkId position defGlobalIndex = .ok s') : Within E s s' := by
  simp only [createNetPlayer] at h
  split at h
  · cases h
    exact Within.of_same rfl rfl
  · generalize hadded : (Session.mk _ _ _ _ _ _ _ _ : Session σ) = added at h
    -- Neither the entry nor the game's part is anything to the network.
    have hstart : Within E s added := by
      rw [← hadded]
      exact Within.of_same rfl rfl
    have hmotion := hstart.trans ((within_applyNetPlayerMovement E added networkId).trans
      (within_applyNetPlayerRotation E _ networkId))
    split at h
    · cases h
    · split at h
      · -- The host announces the newcomer and sends it the roster.
        cases h
        exact hmotion.trans ((within_sendToAllClientsExcept E _ _ _ _).trans
          (within_broadcastCreateNetPlayers E _ _))
      · cases h
        exact hmotion

theorem within_createNetPlayersLoop {count : Nat} {bs : BitStream}
    (h : createNetPlayersLoop E count bs s = .ok s') : Within E s s' := by
  refine createNetPlayersLoop_rel (Within.refl E) Within.trans ?_ h
  intro s s' networkId position defGlobalIndex hentry
  rcases createNetPlayers_cases hentry with rfl | hcreated
  · exact Within.refl E _
  · exact within_createNetPlayer hcreated

theorem within_destroyNetPlayer {networkId : Int32}
    (h : s.destroyNetPlayer E networkId = .ok s') : Within E s s' := by
  unfold destroyNetPlayer at h
  split at h
  · cases h
    exact Within.refl E s
  · split at h
    · cases h
      exact Within.refl E s
    · simp only at h
      split at h
      · cases h
      · generalize hstart : (Session.mk _ _ _ _ _ _ _ _ : Session σ) = dropped at h
        have hdropped : Within E s dropped := by
          rw [← hstart]
          exact Within.of_same rfl rfl
        split at h
        · cases h
          exact hdropped.trans (within_sendToAllClientsExcept E _ _ _ _)
        · cases h
          exact hdropped

/-- The peer is shut down first, so a departure reaches nobody. -/
theorem within_disconnect {rounds : Nat} (h : s.disconnect E rounds = .ok s') :
    Within E s s' := by
  have hover := inactive_of_disconnect h
  rcases disconnect_cases h with ⟨_, rfl⟩ | ⟨_, cleared, rfl, hcleared⟩
  · exact Within.refl E _
  · have hshut : Within E s { s with network := { s.network with active := false } } :=
      (Within.refl E s).of_closed rfl rfl (List.Subset.refl _)
    have hloop := destroyNetPlayers_rel (Within.refl E) Within.trans within_destroyNetPlayer
      hcleared
    have heffect := (disconnected_effect E cleared).2.2.2
    -- The connections and the address go on a peer that is closed already.
    refine (hshut.trans hloop).of_closed hover heffect.2 ?_
    rw [heffect.1]
    exact List.nil_subset _

end Players

/-! ## Steps -/

section Steps

variable {E : Engine σ} {s s' : Session σ}

theorem within_removeConnection {networkId : Int32}
    (h : s.removeConnection E networkId = .ok s') : Within E s s' := by
  rcases removeConnection_cases h with ⟨t, hdestroyed, rfl⟩
  refine (within_destroyNetPlayer hdestroyed).trans ?_
  exact ⟨⟨[], by simp, by simp⟩, List.eraseP_subset, fun hactive => ⟨hactive, rfl⟩⟩

theorem within_handleLoss {rounds : Nat} {packet : Packet}
    (h : s.handleLoss E rounds packet = .ok s') : Within E s s' := by
  rcases handleLoss_cases h with ⟨t, hremoved, ⟨_, hdisconnect⟩ | ⟨_, rfl⟩⟩
  · exact (within_removeConnection hremoved).trans (within_disconnect hdisconnect)
  · exact within_removeConnection hremoved

theorem within_receiveNetPlayerMovement (E : Engine σ) (s : Session σ) (networkId : Int32)
    (position acceleration : Vec3) :
    Within E s (s.receiveNetPlayerMovement networkId position acceleration) := by
  have hkept : ∀ t : Session σ, ∀ netPlayers, Within E t { t with netPlayers := netPlayers } :=
    fun t netPlayers => Within.of_same rfl rfl
  simp only [receiveNetPlayerMovement]
  split
  · exact (within_sendToAllClientsExcept E s _ _ _).trans (hkept _ _)
  · exact hkept _ _

theorem within_receiveNetPlayerRotation (E : Engine σ) (s : Session σ) (networkId : Int32)
    (up forward : Vec3) : Within E s (s.receiveNetPlayerRotation networkId up forward) := by
  have hkept : ∀ t : Session σ, ∀ netPlayers, Within E t { t with netPlayers := netPlayers } :=
    fun t netPlayers => Within.of_same rfl rfl
  simp only [receiveNetPlayerRotation]
  split
  · exact (within_sendToAllClientsExcept E s _ _ _).trans (hkept _ _)
  · exact hkept _ _

/-- The packets that make a session talk to somebody new. -/
def Introduces (packet : Packet) : Prop :=
  packet.kind = .connectionNotification ∨ packet.kind = .connectionRequestAccepted

/-- All other events leave a session within its reach. -/
theorem within_step {event : SessionEvent σ}
    (hevent : ∀ packet rounds, event = .packet packet rounds → ¬ Introduces packet)
    (h : s.step E event = .ok s') : Within E s s' := by
  cases event with
  | packet packet rounds =>
    -- One case for each handler; the two that introduce somebody are excluded.
    have hother := hevent packet rounds rfl
    simp only [step, update] at h
    split at h
    · cases h
      exact Within.refl E s
    · cases hkind : packet.kind with
      | connectionRequestAccepted => exact absurd (Or.inr hkind) hother
      | connectionNotification => exact absurd (Or.inl hkind) hother
      | createLocalNetPlayer =>
        simp only [hkind, handleCreateLocalNetPlayer] at h
        cases h
        -- The removal itself.
        generalize hstart : (Session.mk _ _ _ _ _ _ _ _ : Session σ) = renamed
        have hrenamed : Within E s renamed := by
          rw [← hstart]
          exact ⟨⟨[], by simp, by simp⟩, List.Subset.refl _, fun hactive => ⟨hactive, rfl⟩⟩
        exact hrenamed.trans (within_createLocalNetPlayer E _ _ _)
      | createNetPlayer =>
        simp only [hkind, handleCreateNetPlayer] at h
        exact within_createNetPlayer h
      | createNetPlayers =>
        simp only [hkind, handleCreateNetPlayers] at h
        exact within_createNetPlayersLoop h
      | playerMovement =>
        simp only [hkind, handleNetPlayerMovement] at h
        cases h
        exact within_receiveNetPlayerMovement E s _ _ _
      | playerRotation =>
        simp only [hkind, handleNetPlayerRotation] at h
        cases h
        exact within_receiveNetPlayerRotation E s _ _ _
      | disconnectionNotification =>
        simp only [hkind] at h
        exact within_handleLoss h
      | connectionLost =>
        simp only [hkind] at h
        exact within_handleLoss h
      | destroyNetPlayer =>
        simp only [hkind, handleDestroyNetPlayer] at h
        exact within_destroyNetPlayer h
      | connectionAttemptFailed =>
        simp only [hkind, handleConnectionAttemptFailed] at h
        split at h
        · exact within_disconnect h
        · cases h
          exact Within.refl E s
      | _ =>
        simp only [hkind] at h
        cases h
        exact Within.refl E s
  | updateRegionLoad =>
    cases h
    exact within_updateRegionLoad E s
  | resolveMovementAcceleration => exact within_runAll moves_runMovementCallback h
  | resolveFacingDirection => exact within_runAll moves_runFacingCallback h
  | game engine =>
    cases h
    exact Within.of_same rfl rfl
  | disconnect rounds => exact within_disconnect h

end Steps

end Session
end Mod
end Crossover
