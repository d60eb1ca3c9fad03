import Crossover.Mod.Effects

/-!
# Motion — what a session says and hears of movement and rotation

Both kinds of motion take the same way: a hook runs the local player's closure, which reads two
vectors off its creature and sends them, and a message that arrives stores two vectors in the net
player it names.  `heard_step` says that there is no other way for a net player to come by vectors,
`said_step` that a session sends motion in no other way, unless it hosts and passes it on.
-/

namespace Crossover
namespace Mod

open Wire

inductive Motion
  | movement
  | rotation
  deriving DecidableEq, Repr

namespace Motion

variable {σ : Type}

def kind : Motion → MessageKind
  | .movement => .playerMovement
  | .rotation => .playerRotation

def messageId : Motion → UInt8
  | .movement => idPlayerMovement
  | .rotation => idPlayerRotation

/-- What a net player keeps of the last message. -/
def vectors : Motion → NetPlayer → Vec3 × Vec3
  | .movement, netPlayer => (netPlayer.position, netPlayer.movementAcceleration)
  | .rotation, netPlayer => (netPlayer.up, netPlayer.forward)

/-- What the local player's closure reads off its creature. -/
def observed (E : Engine σ) (engine : σ) (creature : CreaturePtr) : Motion → Vec3 × Vec3
  | .movement => (E.getPos engine creature, E.movementAcceleration engine creature)
  | .rotation => (E.rhUp engine creature, E.rhForward engine creature)

/-- The event in which the hook runs its closures. -/
def resolve : Motion → SessionEvent σ
  | .movement => .resolveMovementAcceleration
  | .rotation => .resolveFacingDirection

def callbacks (s : Session σ) : Motion → CallbackMap MotionCallback
  | .movement => s.resolveMovementAccelerationCallbacks
  | .rotation => s.resolveFacingDirectionCallbacks

def runCallback (E : Engine σ) : Motion → Session σ → MotionCallback → Except Fault (Session σ)
  | .movement => Session.runMovementCallback E
  | .rotation => Session.runFacingCallback E

/-- The message a closure sends for a creature. -/
def message (motion : Motion) (E : Engine σ) (engine : σ) (networkId : Int32)
    (creature : CreaturePtr) : BitStream :=
  let seen := motion.observed E engine creature
  Session.motionMessage motion.messageId networkId seen.1 seen.2

theorem step_resolve (motion : Motion) (E : Engine σ) (s : Session σ) :
    s.step E motion.resolve = Session.runAll (motion.runCallback E) (motion.callbacks s) s := by
  cases motion <;> rfl

theorem runCallback_broadcast (motion : Motion) (E : Engine σ) (s : Session σ) (networkId : Int32)
    (creature : CreaturePtr) :
    motion.runCallback E s (.broadcast networkId creature) =
      s.sendMotion E networkId (motion.message E s.engine networkId creature) := by
  cases motion <;> rfl

end Motion

namespace Session

variable {σ : Type}

/-! ## What is heard -/

/-- Every net player holds what one of its id has held before, or it has just been made. -/
def Retains (motion : Motion) (s s' : Session σ) : Prop :=
  ∀ netPlayer ∈ s'.netPlayers, motion.vectors netPlayer = ({}, {}) ∨
    ∃ before ∈ s.netPlayers, before.networkId = netPlayer.networkId ∧
      motion.vectors before = motion.vectors netPlayer

section Hearing

variable {E : Engine σ} {motion : Motion} {s s' s'' : Session σ}

theorem Retains.of_subset (h : s'.netPlayers ⊆ s.netPlayers) : Retains motion s s' := by
  intro netPlayer hmem
  exact Or.inr ⟨netPlayer, h hmem, rfl, rfl⟩

theorem Retains.refl (s : Session σ) : Retains motion s s :=
  .of_subset (List.Subset.refl _)

theorem Retains.trans (h : Retains motion s s') (h' : Retains motion s' s'') :
    Retains motion s s'' := by
  intro netPlayer hmem
  rcases h' netPlayer hmem with hmade | ⟨between, hbetween, hid, hsame⟩
  · exact Or.inl hmade
  · rcases h between hbetween with hmade | ⟨before, hbefore, hid', hsame'⟩
    · exact Or.inl (hsame ▸ hmade)
    · exact Or.inr ⟨before, hbefore, hid'.trans hid, hsame'.trans hsame⟩

theorem SameManager.retains (h : SameManager s s') : Retains motion s s' :=
  .of_subset (by rw [h.netPlayers]; exact List.Subset.refl _)

theorem retains_createNetPlayer {networkId defGlobalIndex : Int32} {position : Vec3}
    (h : s.createNetPlayer E networkId position defGlobalIndex = .ok s') :
    Retains motion s s' := by
  rcases createNetPlayer_cases h with ⟨_, _, ⟨_, hsame⟩ | ⟨_, _, _, _, hadded⟩⟩
  · exact .of_subset (by rw [hsame]; exact List.Subset.refl _)
  · intro netPlayer hmem
    rw [hadded] at hmem
    rcases List.mem_append.1 hmem with hold | hnew
    · exact Or.inr ⟨netPlayer, hold, rfl, rfl⟩
    · -- The new entry is at its defaults.
      rw [List.mem_singleton.1 hnew]
      left
      cases motion <;> rfl

theorem retains_createNetPlayers {networkId defGlobalIndex : Int32} {position : Vec3}
    (h : s.createNetPlayers E networkId position defGlobalIndex = .ok s') :
    Retains motion s s' := by
  rcases createNetPlayers_cases h with rfl | hcreated
  · exact Retains.refl s'
  · exact retains_createNetPlayer hcreated

theorem retains_destroyNetPlayer {networkId : Int32}
    (h : s.destroyNetPlayer E networkId = .ok s') : Retains motion s s' := by
  rcases destroyNetPlayer_cases h with ⟨_, rfl⟩ | ⟨_, _, _, _, herased, _⟩
  · exact Retains.refl s'
  · exact .of_subset (by rw [herased]; exact List.eraseP_subset)

theorem retains_disconnect {rounds : Nat} (h : s.disconnect E rounds = .ok s') :
    Retains motion s s' := by
  rcases disconnect_cases h with ⟨_, rfl⟩ | ⟨_, cleared, rfl, hcleared⟩
  · exact Retains.refl s'
  · refine .of_subset ?_
    rw [(disconnected_effect E cleared).2.1, netPlayers_destroyNetPlayers hcleared]
    exact List.nil_subset _

theorem retains_handleLoss {rounds : Nat} {packet : Packet}
    (h : s.handleLoss E rounds packet = .ok s') : Retains motion s s' := by
  rcases handleLoss_cases h with ⟨t, hremoved, hends⟩
  rcases removeConnection_cases hremoved with ⟨s₁, hdestroyed, rfl⟩
  have hkept : Retains motion s s₁ := retains_destroyNetPlayer hdestroyed
  rcases hends with ⟨_, hdisconnect⟩ | ⟨_, rfl⟩
  · -- The connection that has gone is none of the net players' business.
    have hrest : Retains motion _ s' := retains_disconnect hdisconnect
    exact hkept.trans hrest
  · exact hkept

/-- What an assignment to the net player of an id leaves in the vector. -/
theorem mem_updateNetPlayer {networkId : Int32} {f : NetPlayer → NetPlayer}
    {netPlayers : List NetPlayer} {netPlayer : NetPlayer}
    (h : netPlayer ∈ updateNetPlayer networkId f netPlayers) :
    netPlayer ∈ netPlayers ∨
      ∃ before ∈ netPlayers, before.networkId = networkId ∧ netPlayer = f before := by
  induction netPlayers with
  | nil => cases h
  | cons first rest ih =>
    simp only [updateNetPlayer] at h
    split at h
    · rename_i hid
      rcases List.mem_cons.1 h with hfirst | hrest
      · exact Or.inr ⟨first, List.mem_cons_self, hid, hfirst⟩
      · exact Or.inl (List.mem_cons_of_mem _ hrest)
    · rcases List.mem_cons.1 h with hfirst | hrest
      · exact Or.inl (hfirst ▸ List.mem_cons_self)
      · rcases ih hrest with hold | ⟨before, hbefore, hid, hf⟩
        · exact Or.inl (List.mem_cons_of_mem _ hold)
        · exact Or.inr ⟨before, List.mem_cons_of_mem _ hbefore, hid, hf⟩

/-- An assignment that leaves the vectors of this kind alone. -/
theorem retains_updateNetPlayer {networkId : Int32} {f : NetPlayer → NetPlayer}
    (hf : ∀ netPlayer, (f netPlayer).networkId = netPlayer.networkId ∧
      motion.vectors (f netPlayer) = motion.vectors netPlayer)
    (h : s'.netPlayers = updateNetPlayer networkId f s.netPlayers) : Retains motion s s' := by
  intro netPlayer hmem
  rw [h] at hmem
  rcases mem_updateNetPlayer hmem with hold | ⟨before, hbefore, _, rfl⟩
  · exact Or.inr ⟨netPlayer, hold, rfl, rfl⟩
  · exact Or.inr ⟨before, hbefore, (hf before).1.symm, (hf before).2.symm⟩

/-- A packet of another kind leaves the net players' vectors of this kind alone. -/
theorem retains_update {rounds : Nat} {packet : Packet} (hkind : packet.kind ≠ motion.kind)
    (h : s.update E rounds packet = .ok s') : Retains motion s s' := by
  unfold update at h
  split at h
  · cases h
    exact Retains.refl _
  · split at h
    · cases h
      exact (quiet_peerSend _ _ _ _ _).toSameManager.retains
    · have hhandled := (spoke_handleConnectionNotification h).quiet.toSameManager
      exact Retains.trans (.of_subset (List.Subset.refl _)) hhandled.retains
    · cases h
      simp only [handleCreateLocalNetPlayer]
      generalize hstart : (Session.mk _ _ _ _ _ _ _ _ : Session σ) = s₀
      have hkept : s₀.netPlayers = s.netPlayers := by rw [← hstart]
      have hbegins : Retains motion s s₀ := .of_subset (by rw [hkept]; exact List.Subset.refl _)
      refine hbegins.trans ?_
      rcases createLocalNetPlayer_cases E s₀ (readCreateLocalNetPlayer (payload packet)).1
        (readCreateLocalNetPlayer (payload packet)).2 with ⟨_, hsame⟩ | ⟨_, hset, _⟩
      · rw [hsame]
        exact Retains.refl s₀
      · exact .of_subset (by rw [hset.netPlayers]; exact List.Subset.refl _)
    · exact retains_createNetPlayer h
    · exact createNetPlayersLoop_rel Retains.refl Retains.trans retains_createNetPlayers h
    -- The two kinds of motion: this one is ruled out, and the other one assigns other fields.
    · rename_i hmovement
      cases motion with
      | movement => exact absurd hmovement hkind
      | rotation =>
        cases h
        refine retains_updateNetPlayer ?_ (netPlayers_receiveNetPlayerMovement s _ _ _)
        exact fun _ => ⟨rfl, rfl⟩
    · rename_i hrotation
      cases motion with
      | rotation => exact absurd hrotation hkind
      | movement =>
        cases h
        refine retains_updateNetPlayer ?_ (netPlayers_receiveNetPlayerRotation s _ _ _)
        exact fun _ => ⟨rfl, rfl⟩
    · exact retains_handleLoss h
    · exact retains_handleLoss h
    · exact retains_destroyNetPlayer h
    · simp only [handleConnectionAttemptFailed] at h
      split at h
      · exact retains_disconnect h
      · cases h
        exact Retains.refl _
    · cases h
      exact Retains.refl _

/-- A net player holds what one of its id has held before, or nothing, or what a message has just
said about its id. -/
theorem heard_step {event : SessionEvent σ} (h : s.step E event = .ok s') {netPlayer : NetPlayer}
    (hmem : netPlayer ∈ s'.netPlayers) (hsaid : motion.vectors netPlayer ≠ ({}, {})) :
    (∃ before ∈ s.netPlayers, before.networkId = netPlayer.networkId ∧
        motion.vectors before = motion.vectors netPlayer) ∨
      ∃ packet rounds, event = .packet packet rounds ∧ packet.kind = motion.kind ∧
        readMotion (payload packet) = (netPlayer.networkId, motion.vectors netPlayer) := by
  have hretained : Retains motion s s' → ∃ before ∈ s.netPlayers,
      before.networkId = netPlayer.networkId ∧
        motion.vectors before = motion.vectors netPlayer := by
    intro hretains
    exact (hretains netPlayer hmem).resolve_left hsaid
  cases event with
  | packet packet rounds =>
    by_cases hkind : packet.kind = motion.kind
    · by_cases hactive : s.network.active = true
      · -- The message assigns to one net player and to nobody else.
        have hassigned : ∃ f : NetPlayer → NetPlayer,
            s'.netPlayers = updateNetPlayer (readMotion (payload packet)).1 f s.netPlayers ∧
            ∀ before, (f before).networkId = before.networkId ∧
              motion.vectors (f before) = (readMotion (payload packet)).2 := by
          cases motion with
          | movement =>
            simp [step, update, hactive, show packet.kind = .playerMovement from hkind] at h
            cases h
            exact ⟨_, netPlayers_receiveNetPlayerMovement s _ _ _, fun _ => ⟨rfl, rfl⟩⟩
          | rotation =>
            simp [step, update, hactive, show packet.kind = .playerRotation from hkind] at h
            cases h
            exact ⟨_, netPlayers_receiveNetPlayerRotation s _ _ _, fun _ => ⟨rfl, rfl⟩⟩
        rcases hassigned with ⟨f, hnet, hf⟩
        rw [hnet] at hmem
        rcases mem_updateNetPlayer hmem with hold | ⟨before, _, hid, rfl⟩
        · exact Or.inl ⟨netPlayer, hold, rfl, rfl⟩
        · refine Or.inr ⟨packet, rounds, rfl, hkind, ?_⟩
          rw [(hf before).1, (hf before).2, hid]
      · simp [step, update, hactive] at h
        cases h
        exact Or.inl (hretained (Retains.refl _))
    · exact Or.inl (hretained (retains_update hkind h))
  | updateRegionLoad =>
    cases h
    exact Or.inl (hretained (quiet_updateRegionLoad E s).toSameManager.retains)
  | resolveMovementAcceleration =>
    exact Or.inl (hretained (sameManager_runAll moves_runMovementCallback h).retains)
  | resolveFacingDirection =>
    exact Or.inl (hretained (sameManager_runAll moves_runFacingCallback h).retains)
  | game engine =>
    cases h
    exact Or.inl (hretained (.of_subset (List.Subset.refl _)))
  | disconnect rounds => exact Or.inl (hretained (retains_disconnect h))

end Hearing

/-! ## What is said -/

/-- What has been sent in between is of this kind. -/
def SendsOnly (D : List UInt8 → Prop) (s s' : Session σ) : Prop :=
  ∀ send, PeerCall.send send ∈ s'.calls → PeerCall.send send ∈ s.calls ∨ D send.data

/-- Another message than this kind of motion. -/
def Unlike (motion : Motion) (data : List UInt8) : Prop :=
  data.head? ≠ some motion.messageId

/-- In the run of its hook, a registered closure of the local player reads this off its creature. -/
def Observes (motion : Motion) (E : Engine σ) (s : Session σ) (networkId : Int32)
    (seen : Vec3 × Vec3) : Prop :=
  ∃ before key creature after t,
    motion.callbacks s = before ++ (key, MotionCallback.broadcast networkId creature) :: after ∧
    runAll (motion.runCallback E) before s = .ok t ∧ motion.observed E t.engine creature = seen

section Saying

variable {E : Engine σ} {D : List UInt8 → Prop} {motion : Motion} {s s' s'' : Session σ}

theorem SendsOnly.of_calls (h : s'.calls = s.calls) : SendsOnly D s s' := by
  intro send hsend
  exact Or.inl (h ▸ hsend)

theorem SendsOnly.refl (s : Session σ) : SendsOnly D s s :=
  .of_calls rfl

theorem SendsOnly.trans (h : SendsOnly D s s') (h' : SendsOnly D s' s'') : SendsOnly D s s'' := by
  intro send hsend
  rcases h' send hsend with hbetween | hnew
  · exact h send hbetween
  · exact Or.inr hnew

theorem sendsOnly_peerSend (s : Session σ) {data : List UInt8} (hdata : D data)
    (priority : PacketPriority) (reliability : PacketReliability) (address : SystemAddress) :
    SendsOnly D s (s.peerSend data priority reliability address) := by
  unfold peerSend
  split
  · intro send hsend
    rcases List.mem_append.1 hsend with hold | hnew
    · exact Or.inl hold
    · cases List.mem_singleton.1 hnew
      exact Or.inr hdata
  · exact SendsOnly.refl s

theorem sendsOnly_sendToHost (s : Session σ) {bs : BitStream} (hdata : D bs.data)
    (reliability : PacketReliability) : SendsOnly D s (s.sendToHost E bs reliability) :=
  sendsOnly_peerSend s hdata _ _ _

theorem sendsOnly_sendToClient (s : Session σ) (networkId : Int32) {bs : BitStream}
    (hdata : D bs.data) (reliability : PacketReliability) :
    SendsOnly D s (s.sendToClient networkId bs reliability) := by
  unfold sendToClient
  split
  · exact SendsOnly.refl s
  · exact sendsOnly_peerSend s hdata _ _ _

theorem sendsOnly_sendToAllClientsExcept (s : Session σ) (networkId : Int32) {bs : BitStream}
    (hdata : D bs.data) (reliability : PacketReliability) :
    SendsOnly D s (s.sendToAllClientsExcept networkId bs reliability) := by
  unfold sendToAllClientsExcept
  induction clientsExcept s.network.connections networkId generalizing s with
  | nil => exact SendsOnly.refl s
  | cons connection rest ih => exact (sendsOnly_peerSend s hdata _ _ _).trans (ih _)

theorem sendsOnly_sendMotion {networkId : Int32} {bs : BitStream} (hdata : D bs.data)
    (h : s.sendMotion E networkId bs = .ok s') : SendsOnly D s s' := by
  unfold sendMotion at h
  split at h
  · cases h
  · split at h
    · cases h
      exact sendsOnly_sendToAllClientsExcept s _ hdata _
    · cases h
      exact sendsOnly_sendToHost s hdata _

/-! ### Everything but motion -/

/-- A message keeps its id, whatever is written behind it. -/
theorem head?_write {α : Type} [Pod α] {bs : BitStream} {id : UInt8} (h : bs.data.head? = some id)
    (x : α) : (bs.write x).data.head? = some id := by
  rw [BitStream.data_write, List.head?_append, h]
  rfl

theorem head?_writeNetPlayers (E : Engine σ) (s : Session σ) {bs : BitStream} {id : UInt8}
    (h : bs.data.head? = some id) : (s.writeNetPlayers E bs).data.head? = some id := by
  unfold writeNetPlayers
  induction s.netPlayers generalizing bs with
  | nil => exact h
  | cons netPlayer rest ih =>
    rw [List.foldl_cons]
    split
    · exact ih h
    · exact ih (head?_write (head?_write (head?_write h _) _) _)

theorem unlike_of_head {data : List UInt8} {id : UInt8} (h : data.head? = some id)
    (hid : id ≠ idPlayerMovement ∧ id ≠ idPlayerRotation) : Unlike motion data := by
  rw [Unlike, h]
  cases motion with
  | movement => exact fun heq => hid.1 (Option.some.inj heq)
  | rotation => exact fun heq => hid.2 (Option.some.inj heq)

theorem sendsOnly_broadcastCreateNetPlayers (E : Engine σ) (s : Session σ) (networkId : Int32) :
    SendsOnly (Unlike motion) s (s.broadcastCreateNetPlayers E networkId) := by
  -- The roster's id stands in front, however many records follow.
  have hroster : ∀ bs : BitStream, bs.data.head? = some idCreateNetPlayers →
      Unlike motion (s.writeNetPlayers E bs).data :=
    fun bs hbs => unlike_of_head (head?_writeNetPlayers E s hbs) (by decide)
  simp only [broadcastCreateNetPlayers]
  split
  · exact sendsOnly_sendToClient s _ (hroster _ rfl) _
  · split
    · exact SendsOnly.refl s
    · refine sendsOnly_sendToClient s _ (hroster _ ?_) _
      exact head?_write (head?_write (head?_write rfl _) _) _

theorem sendsOnly_createNetPlayer {networkId defGlobalIndex : Int32} {position : Vec3}
    (h : s.createNetPlayer E networkId position defGlobalIndex = .ok s') :
    SendsOnly (Unlike motion) s s' := by
  simp only [createNetPlayer] at h
  split at h
  · cases h
    exact .of_calls rfl
  · generalize hadded : (Session.mk _ _ _ _ _ _ _ _ : Session σ) = added at h
    have hcalls : added.calls = s.calls := by rw [← hadded]
    have hmovement : (added.applyNetPlayerMovement E networkId).calls = added.calls := by
      unfold applyNetPlayerMovement
      split <;> rfl
    have hrotation : ((added.applyNetPlayerMovement E networkId).applyNetPlayerRotation E
        networkId).calls = added.calls := by
      unfold applyNetPlayerRotation
      split <;> exact hmovement
    have hsilent : SendsOnly (Unlike motion) s _ := .of_calls (hrotation.trans hcalls)
    split at h
    · cases h
    · split at h
      · cases h
        refine hsilent.trans (SendsOnly.trans ?_ (sendsOnly_broadcastCreateNetPlayers E _ _))
        exact sendsOnly_sendToAllClientsExcept _ _ (unlike_of_head rfl (by decide)) _
      · cases h
        exact hsilent

theorem sendsOnly_createNetPlayers {networkId defGlobalIndex : Int32} {position : Vec3}
    (h : s.createNetPlayers E networkId position defGlobalIndex = .ok s') :
    SendsOnly (Unlike motion) s s' := by
  rcases createNetPlayers_cases h with rfl | hcreated
  · exact SendsOnly.refl s'
  · exact sendsOnly_createNetPlayer hcreated

theorem sendsOnly_destroyNetPlayer {networkId : Int32}
    (h : s.destroyNetPlayer E networkId = .ok s') : SendsOnly (Unlike motion) s s' := by
  unfold destroyNetPlayer at h
  split at h
  · cases h
    exact SendsOnly.refl _
  · split at h
    · cases h
      exact SendsOnly.refl _
    · simp only at h
      split at h
      · cases h
      · split at h
        · cases h
          refine SendsOnly.trans (.of_calls ?_) (sendsOnly_sendToAllClientsExcept _ _ ?_ _)
          · rfl
          · exact unlike_of_head rfl (by decide)
        · cases h
          exact .of_calls rfl

theorem sendsOnly_disconnect {rounds : Nat} (h : s.disconnect E rounds = .ok s') :
    SendsOnly (Unlike motion) s s' := by
  rcases disconnect_cases h with ⟨_, rfl⟩ | ⟨_, cleared, rfl, hcleared⟩
  · exact SendsOnly.refl s'
  · have hloop := destroyNetPlayers_rel (R := SendsOnly (Unlike motion)) SendsOnly.refl
      SendsOnly.trans sendsOnly_destroyNetPlayer hcleared
    have hends : SendsOnly (Unlike motion) cleared (disconnected E cleared) :=
      .of_calls (disconnected_effect E cleared).2.2.2.2
    exact SendsOnly.trans hloop hends

theorem sendsOnly_handleLoss {rounds : Nat} {packet : Packet}
    (h : s.handleLoss E rounds packet = .ok s') : SendsOnly (Unlike motion) s s' := by
  rcases handleLoss_cases h with ⟨t, hremoved, hends⟩
  rcases removeConnection_cases hremoved with ⟨s₁, hdestroyed, rfl⟩
  have hfirst : SendsOnly (Unlike motion) s s₁ := sendsOnly_destroyNetPlayer hdestroyed
  rcases hends with ⟨_, hdisconnect⟩ | ⟨_, rfl⟩
  · have hrest : SendsOnly (Unlike motion) _ s' := sendsOnly_disconnect hdisconnect
    exact hfirst.trans hrest
  · exact hfirst

theorem calls_handleCreateLocalNetPlayer (E : Engine σ) (s : Session σ) (packet : Packet) :
    (s.handleCreateLocalNetPlayer E packet).calls = s.calls := by
  have hmovement : ∀ (s : Session σ) networkId,
      (s.broadcastLocalNetPlayerMovement E networkId).calls = s.calls := by
    intro s networkId
    unfold broadcastLocalNetPlayerMovement
    split <;> rfl
  have hrotation : ∀ (s : Session σ) networkId,
      (s.broadcastLocalNetPlayerRotation E networkId).calls = s.calls := by
    intro s networkId
    unfold broadcastLocalNetPlayerRotation
    split <;> rfl
  have hteleport : ∀ (s : Session σ) networkId position,
      (s.teleportLocalNetPlayerToHost E networkId position).calls = s.calls := by
    intro s networkId position
    unfold teleportLocalNetPlayerToHost
    split <;> rfl
  simp only [handleCreateLocalNetPlayer, createLocalNetPlayer]
  split
  · rfl
  · split
    · rw [hteleport, hrotation, hmovement]
    · rw [hrotation, hmovement]

theorem sendsOnly_updateRegionLoad (E : Engine σ) (s : Session σ) :
    SendsOnly (Unlike motion) s (s.updateRegionLoad E) := by
  refine updateRegionLoad_rel SendsOnly.refl SendsOnly.trans ?_
  intro s callback
  unfold runRegionLoadCallback
  split
  · exact SendsOnly.refl s
  · refine SendsOnly.trans (.of_calls ?_) (sendsOnly_sendToHost _ ?_ _)
    · rfl
    · exact unlike_of_head rfl (by decide)

/-- A packet has the session send motion of its own kind only, and only if the session hosts. -/
theorem sendsOnly_update {rounds : Nat} {packet : Packet} (h : s.update E rounds packet = .ok s')
    (hclient : packet.kind = motion.kind → s.isHost = false) :
    SendsOnly (Unlike motion) s s' := by
  unfold update at h
  split at h
  · cases h
    exact SendsOnly.refl _
  · split at h
    · cases h
      exact sendsOnly_peerSend s (unlike_of_head rfl (by decide)) _ _ _
    · simp only [handleConnectionNotification, connectionNotification] at h
      split at h
      · cases h
      · split at h
        · cases h
          exact .of_calls rfl
        · cases h
          refine SendsOnly.trans (.of_calls ?_) (sendsOnly_peerSend _ ?_ _ _ _)
          · rfl
          · exact unlike_of_head rfl (by decide)
    · cases h
      exact .of_calls (calls_handleCreateLocalNetPlayer E s packet)
    · exact sendsOnly_createNetPlayer h
    · exact createNetPlayersLoop_rel SendsOnly.refl SendsOnly.trans sendsOnly_createNetPlayers h
    -- A host passes motion on under the id it came with.
    · rename_i hmovement
      cases h
      simp only [handleNetPlayerMovement, receiveNetPlayerMovement]
      cases motion with
      | movement =>
        rw [hclient hmovement]
        exact .of_calls rfl
      | rotation =>
        split
        · refine SendsOnly.trans (sendsOnly_sendToAllClientsExcept s _ ?_ _) (.of_calls rfl)
          exact fun heq => absurd (Option.some.inj heq) (by decide)
        · exact .of_calls rfl
    · rename_i hrotation
      cases h
      simp only [handleNetPlayerRotation, receiveNetPlayerRotation]
      cases motion with
      | rotation =>
        rw [hclient hrotation]
        exact .of_calls rfl
      | movement =>
        split
        · refine SendsOnly.trans (sendsOnly_sendToAllClientsExcept s _ ?_ _) (.of_calls rfl)
          exact fun heq => absurd (Option.some.inj heq) (by decide)
        · exact .of_calls rfl
    · exact sendsOnly_handleLoss h
    · exact sendsOnly_handleLoss h
    · exact sendsOnly_destroyNetPlayer h
    · simp only [handleConnectionAttemptFailed] at h
      split at h
      · exact sendsOnly_disconnect h
      · cases h
        exact SendsOnly.refl _
    · cases h
      exact SendsOnly.refl _

/-! ### Motion -/

/-- What a hook's closures have brought about, one of them has. -/
theorem runAll_appears {run : Session σ → MotionCallback → Except Fault (Session σ)}
    {S : Session σ → Prop} {callbacks : CallbackMap MotionCallback}
    (h : runAll run callbacks s = .ok s') (hnot : ¬ S s) (hshows : S s') :
    ∃ before entry after t t', callbacks = before ++ entry :: after ∧
      runAll run before s = .ok t ∧ run t entry.2 = .ok t' ∧ ¬ S t ∧ S t' := by
  induction callbacks generalizing s with
  | nil =>
    cases h
    exact absurd hshows hnot
  | cons entry rest ih =>
    simp only [runAll] at h
    split at h
    · cases h
    · rename_i s₁ hfirst
      by_cases hearly : S s₁
      · exact ⟨[], entry, rest, s, s₁, rfl, rfl, hfirst, hnot, hearly⟩
      · rcases ih h hearly with ⟨before, later, after, t, t', hsplit, hrun, hlater⟩
        refine ⟨entry :: before, later, after, t, t', by rw [hsplit]; rfl, ?_, hlater⟩
        simp only [runAll, hfirst, hrun]

/-- A closure sends what the local player's creature does, or nothing. -/
theorem said_callback {callback : MotionCallback}
    (h : motion.runCallback E s callback = .ok s') {send : Send}
    (hnew : PeerCall.send send ∉ s.calls) (hsend : PeerCall.send send ∈ s'.calls) :
    ∃ networkId creature, callback = .broadcast networkId creature ∧
      send.data = (motion.message E s.engine networkId creature).data := by
  cases callback with
  | broadcast networkId creature =>
    rw [motion.runCallback_broadcast] at h
    have hsaid := sendsOnly_sendMotion
      (D := (· = (motion.message E s.engine networkId creature).data)) rfl h send hsend
    exact ⟨networkId, creature, rfl, hsaid.resolve_left hnew⟩
  | apply networkId creature =>
    -- The other closures change the game.
    have hcalls : s'.calls = s.calls := by
      cases motion with
      | movement =>
        simp only [Motion.runCallback, runMovementCallback] at h
        split at h
        · cases h
          rfl
        · split at h <;> cases h <;> rfl
      | rotation =>
        simp only [Motion.runCallback, runFacingCallback] at h
        split at h <;> cases h <;> rfl
    exact absurd (hcalls ▸ hsend) hnew

/-- The hook of the other kind of motion does not send this one. -/
theorem sendsOnly_resolve {other : Motion} (hne : other ≠ motion)
    (h : s.step E other.resolve = .ok s') : SendsOnly (Unlike motion) s s' := by
  rw [other.step_resolve] at h
  intro send hsend
  by_cases hnew : PeerCall.send send ∈ s.calls
  · exact Or.inl hnew
  · right
    rcases runAll_appears (S := fun s => PeerCall.send send ∈ s.calls) h hnew hsend with
      ⟨before, entry, after, t, t', _, _, hrun, hbefore, hafter⟩
    rcases said_callback hrun hbefore hafter with ⟨networkId, creature, _, hdata⟩
    rw [hdata]
    intro heq
    apply hne
    cases other <;> cases motion <;> first | rfl | exact absurd (Option.some.inj heq) (by decide)

/-- A session sends motion because its own closure has seen it, unless it hosts and passes on what
it has got. -/
theorem said_step {event : SessionEvent σ} (h : s.step E event = .ok s') {send : Send}
    (hnew : PeerCall.send send ∉ s.calls) (hsend : PeerCall.send send ∈ s'.calls)
    (hmotion : send.data.head? = some motion.messageId) :
    (event = motion.resolve ∧ ∃ networkId seen, Observes motion E s networkId seen ∧
        send.data = (motionMessage motion.messageId networkId seen.1 seen.2).data) ∨
      s.isHost = true ∧ ∃ packet rounds, event = .packet packet rounds ∧
        packet.kind = motion.kind := by
  have hother : ¬ SendsOnly (Unlike motion) s s' := by
    intro honly
    exact (honly send hsend).elim hnew fun hunlike => hunlike hmotion
  have hresolve : ∀ {other : Motion}, s.step E other.resolve = .ok s' →
      other = motion ∧ ∃ networkId seen, Observes motion E s networkId seen ∧
        send.data = (motionMessage motion.messageId networkId seen.1 seen.2).data := by
    intro other hstep
    by_cases hsame : other = motion
    · subst hsame
      refine ⟨rfl, ?_⟩
      rw [other.step_resolve] at hstep
      rcases runAll_appears (S := fun s => PeerCall.send send ∈ s.calls) hstep hnew hsend with
        ⟨before, entry, after, t, t', hsplit, hbefore, hrun, hfirst, hthen⟩
      rcases said_callback hrun hfirst hthen with ⟨networkId, creature, hentry, hdata⟩
      refine ⟨networkId, other.observed E t.engine creature, ?_, hdata⟩
      refine ⟨before, entry.1, creature, after, t, ?_, hbefore, rfl⟩
      rw [hsplit, ← hentry]
    · exact absurd (sendsOnly_resolve hsame hstep) hother
  cases event with
  | packet packet rounds =>
    right
    by_contra hno
    apply hother
    refine sendsOnly_update h ?_
    intro hkind
    by_contra hhost
    exact hno ⟨by simpa using hhost, packet, rounds, rfl, hkind⟩
  | updateRegionLoad =>
    cases h
    exact absurd (sendsOnly_updateRegionLoad E s) hother
  | resolveMovementAcceleration =>
    rcases @hresolve .movement h with ⟨rfl, hseen⟩
    exact Or.inl ⟨rfl, hseen⟩
  | resolveFacingDirection =>
    rcases @hresolve .rotation h with ⟨rfl, hseen⟩
    exact Or.inl ⟨rfl, hseen⟩
  | game engine =>
    cases h
    exact absurd (SendsOnly.of_calls rfl) hother
  | disconnect rounds => exact absurd (sendsOnly_disconnect h) hother

end Saying

end Session
end Mod
end Crossover
