import Crossover.Mod.Emptying
import Crossover.Mod.Waiting

/-!
# Registry — what a session leaves in the hooks' maps

The maps belong to the game's classes and outlive the session, while every closure in them captures
the session's `NetPlayerManager`.  `DestroyNetPlayer` and `DestroyLocalNetPlayer` take the closures
of one network id away, and only behind their early returns; nothing but the closure itself takes
the region-load closure away.
-/

namespace Crossover
namespace Mod

open Wire

namespace CallbackMap

variable {α : Type}

theorem mem_erase_iff {key : String} {callbacks : CallbackMap α} {entry : String × α} :
    entry ∈ erase key callbacks ↔ entry ∈ callbacks ∧ entry.1 ≠ key := by
  simp [erase]

theorem mem_eraseAll {keys : List String} {callbacks : CallbackMap α} {entry : String × α} :
    entry ∈ eraseAll keys callbacks ↔ entry ∈ callbacks ∧ entry.1 ∉ keys := by
  unfold eraseAll
  induction keys generalizing callbacks with
  | nil => simp
  | cons key keys ih =>
    rw [List.foldl_cons, ih, mem_erase_iff]
    simp [and_assoc]

theorem eraseAll_append (keys more : List String) (callbacks : CallbackMap α) :
    eraseAll (keys ++ more) callbacks = eraseAll more (eraseAll keys callbacks) :=
  List.foldl_append

/-- Nothing is left exactly when every entry is under one of the keys. -/
theorem eraseAll_eq_nil {keys : List String} {callbacks : CallbackMap α} :
    eraseAll keys callbacks = [] ↔ ∀ entry ∈ callbacks, entry.1 ∈ keys := by
  rw [List.eq_nil_iff_forall_not_mem]
  constructor
  · intro h entry hentry
    by_contra hkey
    exact h entry (mem_eraseAll.2 ⟨hentry, hkey⟩)
  · intro h entry hentry
    rcases mem_eraseAll.1 hentry with ⟨hold, hkey⟩
    exact hkey (h entry hold)

end CallbackMap

namespace Session

variable {σ : Type}

/-! ## The end of a session -/

/-- The event ends the session: `Network::Disconnect` runs in the state `s₁`. -/
inductive Disconnects (E : Engine σ) (s : Session σ) :
    SessionEvent σ → Session σ → Nat → Prop
  | key (rounds : Nat) : s.network.active = true → Disconnects E s (.disconnect rounds) s rounds
  | attemptFailed (packet : Packet) (rounds : Nat) :
      s.network.active = true → s.network.quitCallbacks = true →
      packet.kind = .connectionAttemptFailed →
      Disconnects E s (.packet packet rounds) s rounds
  | hostLost (packet : Packet) (rounds : Nat) {s₁ : Session σ} :
      s.network.active = true → s.network.quitCallbacks = true →
      packet.kind = .disconnectionNotification ∨ packet.kind = .connectionLost →
      s.getNetworkIdFromAddress E packet.systemAddress = 0 →
      s.removeConnection E 0 = .ok s₁ →
      Disconnects E s (.packet packet rounds) s₁ rounds

/-- The local player's id, if its creature is there. -/
def releasedSelf (E : Engine σ) (engine : σ) (localNetPlayer : LocalNetPlayer) : List Int32 :=
  match playerWithCreature E engine localNetPlayer.localId with
  | none => []
  | some _ => [localNetPlayer.networkId]

/-- The network ids whose closures `Network::Disconnect` takes out of the maps: the net players',
and the local player's if its creature is still there after them. -/
def released (E : Engine σ) (s : Session σ) : List Int32 :=
  match s.localNetPlayer with
  | none => []
  | some localNetPlayer =>
      s.netPlayers.map NetPlayer.networkId ++
        match emptied E localNetPlayer s.netPlayers s.engine with
        | none => []
        | some engine => releasedSelf E engine localNetPlayer

/-- What has to be true when `Network::Disconnect` runs. -/
structure Clean (E : Engine σ) (s : Session σ) : Prop where
  regionLoad : s.updateRegionLoadCallbacks = []
  movement : ∀ entry ∈ s.resolveMovementAccelerationCallbacks,
    entry.1 ∈ (released E s).map movementKey
  facing : ∀ entry ∈ s.resolveFacingDirectionCallbacks, entry.1 ∈ (released E s).map facingKey

/-- The hooks' maps hold nothing. -/
structure NoCallbacks (s : Session σ) : Prop where
  regionLoad : s.updateRegionLoadCallbacks = []
  movement : s.resolveMovementAccelerationCallbacks = []
  facing : s.resolveFacingDirectionCallbacks = []

section Ending

variable {E : Engine σ} {s s' s₁ : Session σ}

theorem destroyLocalNetPlayer_present {localNetPlayer : LocalNetPlayer}
    (hlocal : s.localNetPlayer = some localNetPlayer) :
    s.destroyLocalNetPlayer E =
      match playerWithCreature E s.engine localNetPlayer.localId with
      | none => s
      | some _ => { s.removeCallbacks localNetPlayer.networkId with localNetPlayer := none } := by
  have hself : s.getLocalIdFromNetworkId localNetPlayer.networkId = localNetPlayer.localId := by
    simp [getLocalIdFromNetworkId, hlocal]
  -- The lookup by network id leads to the local player itself.
  have hfound := playerWithCreature_isSome E s localNetPlayer.localId
  simp only [destroyLocalNetPlayer, hlocal, hself]
  cases hcreature : s.getCreatureFromLocalId E localNetPlayer.localId with
  | none =>
    rw [hcreature, Option.isSome_none, Option.isSome_eq_false_iff, Option.isNone_iff_eq_none]
      at hfound
    simp [hfound]
  | some creature =>
    rw [hcreature, Option.isSome_some, Option.isSome_iff_exists] at hfound
    rcases hfound with ⟨player, hplayer⟩
    simp [hplayer]

theorem maps_removeSelf {localNetPlayer : LocalNetPlayer}
    (hlocal : s.localNetPlayer = some localNetPlayer) :
    let ids := releasedSelf E s.engine localNetPlayer
    (s.removeSelf E).clearSession.updateRegionLoadCallbacks = s.updateRegionLoadCallbacks ∧
      (s.removeSelf E).clearSession.resolveMovementAccelerationCallbacks =
        s.resolveMovementAccelerationCallbacks.eraseAll (ids.map movementKey) ∧
      (s.removeSelf E).clearSession.resolveFacingDirectionCallbacks =
        s.resolveFacingDirectionCallbacks.eraseAll (ids.map facingKey) := by
  simp only [removeSelf, clearSession, destroyLocalNetPlayer_present hlocal, releasedSelf]
  cases playerWithCreature E s.engine localNetPlayer.localId with
  | none => exact ⟨rfl, rfl, rfl⟩
  | some player => exact ⟨rfl, rfl, rfl⟩

/-- `Network::Disconnect` takes the closures of the released ids out of the two maps of motion
closures and leaves the third map alone. -/
theorem maps_disconnect {rounds : Nat} (hs : Placed s) (hactive : s.network.active = true)
    (h : s.disconnect E rounds = .ok s') :
    s'.updateRegionLoadCallbacks = s.updateRegionLoadCallbacks ∧
      s'.resolveMovementAccelerationCallbacks =
        s.resolveMovementAccelerationCallbacks.eraseAll ((released E s).map movementKey) ∧
      s'.resolveFacingDirectionCallbacks =
        s.resolveFacingDirectionCallbacks.eraseAll ((released E s).map facingKey) := by
  rcases disconnect_cases h with ⟨hclosed, _⟩ | ⟨_, cleared, rfl, hloop⟩
  · rw [hactive] at hclosed
    cases hclosed
  · generalize hclosed : ({ s with network := { s.network with active := false } } : Session σ) =
      t at hloop
    cases hlocal : s.localNetPlayer with
    | none =>
      have hnil : t.netPlayers = [] := by
        rw [← hclosed]
        exact hs.netPlayers_nil hlocal
      have hsame : cleared = t :=
        Except.ok.inj (hloop.symm.trans (destroyNetPlayers_nil E hnil rounds))
      subst hsame hclosed
      simp [disconnected, removeSelf, clearSession, destroyLocalNetPlayer, hlocal, released,
        CallbackMap.eraseAll]
    | some localNetPlayer =>
      have hlocal' : t.localNetPlayer = some localNetPlayer := by
        rw [← hclosed]
        exact hlocal
      rcases emptied_of_ok hlocal' hloop with ⟨engine, hemptied, sent, rfl⟩
      have hself := maps_removeSelf (E := E) (s := { t.emptiedTo engine with
        calls := (t.emptiedTo engine).calls ++ sent
        network := { t.network with connections := [] } }) hlocal'
      -- The local player goes after the others, in the game they have left.
      subst hclosed
      refine ⟨hself.1, hself.2.1.trans ?_, hself.2.2.trans ?_⟩
      · simp [released, hlocal, hemptied, emptiedTo, CallbackMap.eraseAll_append,
          Function.comp_def]
      · simp [released, hlocal, hemptied, emptiedTo, CallbackMap.eraseAll_append,
          Function.comp_def]

/-- `Network::Disconnect` returns exactly when the loop over the net players ends. -/
theorem disconnect_returns_iff {rounds : Nat} (hs : Placed s) (hactive : s.network.active = true) :
    (∃ s', s.disconnect E rounds = .ok s') ↔
      EachStands E s ∧ s.netPlayers.length ≤ rounds := by
  simp only [disconnect, hactive, Bool.not_true, Bool.false_eq_true, if_false,
    removeConnections]
  generalize hclosed : ({ s with network := { s.network with active := false } } : Session σ) = t
  have hstands : EachStands E s ↔ EachStands E t := by rw [← hclosed]; rfl
  have hlist : s.netPlayers = t.netPlayers := by rw [← hclosed]
  have hplaced : Placed t := hs.congr (by rw [← hclosed]) hlist.symm
  rw [hstands, hlist]
  constructor
  · -- A loop that has ended had enough rounds, and has found everybody.
    rintro ⟨s', h⟩
    cases hloop : destroyNetPlayers E rounds t with
    | error fault => simp [hloop] at h
    | ok cleared =>
      refine ⟨?_, length_le_of_ok hloop⟩
      intro localNetPlayer hlocal
      rcases emptied_of_ok hlocal hloop with ⟨engine, hemptied, _⟩
      simp [hemptied]
  · -- Conversely the loop ends, and behind it nothing can fail.
    rintro ⟨heach, hrounds⟩
    cases hlocal : t.localNetPlayer with
    | none =>
      have hloop := destroyNetPlayers_nil E (hplaced.netPlayers_nil hlocal) rounds
      exact ⟨_, by simp only [hloop]; rfl⟩
    | some localNetPlayer =>
      rcases Option.isSome_iff_exists.1 (heach localNetPlayer hlocal) with ⟨engine, hemptied⟩
      rcases destroyNetPlayers_of_emptied hlocal hrounds hemptied with ⟨cleared, hloop, _⟩
      exact ⟨_, by simp only [hloop]; rfl⟩

theorem noCallbacks_iff_clean {rounds : Nat} (hs : Placed s) (hactive : s.network.active = true)
    (h : s.disconnect E rounds = .ok s') : NoCallbacks s' ↔ Clean E s := by
  rcases maps_disconnect hs hactive h with ⟨hregion, hmovement, hfacing⟩
  constructor
  · intro hnone
    exact ⟨hregion ▸ hnone.regionLoad, CallbackMap.eraseAll_eq_nil.1 (hmovement ▸ hnone.movement),
      CallbackMap.eraseAll_eq_nil.1 (hfacing ▸ hnone.facing)⟩
  · intro hclean
    exact ⟨hregion.trans hclean.regionLoad,
      hmovement.trans (CallbackMap.eraseAll_eq_nil.2 hclean.movement),
      hfacing.trans (CallbackMap.eraseAll_eq_nil.2 hclean.facing)⟩

/-- An event that ends the session is a call of `Network::Disconnect`, on an open session. -/
theorem Disconnects.step_eq {event : SessionEvent σ} {rounds : Nat}
    (h : Disconnects E s event s₁ rounds) (hs : Placed s) :
    s.step E event = s₁.disconnect E rounds ∧ s₁.network.active = true ∧ Placed s₁ := by
  cases h with
  | key rounds hactive => exact ⟨rfl, hactive, hs⟩
  | attemptFailed packet rounds hactive hquit hkind =>
    refine ⟨?_, hactive, hs⟩
    simp [step, update, hactive, hkind, handleConnectionAttemptFailed, hquit]
  | hostLost packet rounds hactive hquit hkind hhost hremoved =>
    -- The removal in front of the call leaves the network's flags alone.
    have hnetwork : s₁.network.active = true ∧ s₁.network.quitCallbacks = true := by
      rcases removeConnection_cases hremoved with ⟨t, hdestroyed, rfl⟩
      simp only [(destroyNetPlayer_kept hdestroyed).2]
      exact ⟨hactive, hquit⟩
    refine ⟨?_, hnetwork.1, (fewer_removeConnection hremoved).placed hs⟩
    rcases hkind with hkind | hkind <;>
      simp [step, update, hactive, hkind, handleLoss, hhost, hremoved, hnetwork.2]

end Ending

/-! ## Sessions that leave nothing -/

/-- If the event ends the session and `Network::Disconnect` returns, no closure is left. -/
def LeavesNone (E : Engine σ) (s : Session σ) (event : SessionEvent σ) : Prop :=
  ∀ s₁ rounds s', Disconnects E s event s₁ rounds → s.step E event = .ok s' → NoCallbacks s'

/-- If the event ends the session and `Network::Disconnect` can return, no region load is pending
and every motion closure is that of a net player, or of the local player with its creature in
place. -/
def EndsClean (E : Engine σ) (s : Session σ) (event : SessionEvent σ) : Prop :=
  ∀ s₁ rounds, Disconnects E s event s₁ rounds → EachStands E s₁ →
    s₁.netPlayers.length ≤ rounds → Clean E s₁

theorem leavesNone_iff {E : Engine σ} {s : Session σ} (hs : Placed s) (event : SessionEvent σ) :
    LeavesNone E s event ↔ EndsClean E s event := by
  constructor
  · intro hleaves s₁ rounds hends hstands hrounds
    rcases hends.step_eq hs with ⟨hstep, hactive, hplaced⟩
    rcases (disconnect_returns_iff hplaced hactive).2 ⟨hstands, hrounds⟩ with ⟨s', hdisconnect⟩
    exact (noCallbacks_iff_clean hplaced hactive hdisconnect).1
      (hleaves s₁ rounds s' hends (hstep.trans hdisconnect))
  · intro hclean s₁ rounds s' hends hok
    rcases hends.step_eq hs with ⟨hstep, hactive, hplaced⟩
    have hdisconnect := hstep.symm.trans hok
    rcases (disconnect_returns_iff hplaced hactive).1 ⟨s', hdisconnect⟩ with ⟨hstands, hrounds⟩
    exact (noCallbacks_iff_clean hplaced hactive hdisconnect).2
      (hclean s₁ rounds hends hstands hrounds)

/-- A session opened while the hooks' maps are empty leaves them empty, whenever and however it
ends, exactly when it ends clean. -/
theorem no_callback_outlives_iff (E : Engine σ) (engine : σ) (boundAddress : SystemAddress)
    (opening : Opening) (events : List (SessionEvent σ)) :
    let process : Process σ := { engine := engine, boundAddress := boundAddress }
    Fallible.StepsSatisfy (step E) (LeavesNone E) (opened E process opening) events ↔
      Fallible.StepsSatisfy (step E) (EndsClean E) (opened E process opening) events := by
  intro process
  refine Fallible.stepsSatisfy_congr (I := Placed) (opened_players E process opening).1 ?_ ?_
  · intro s event s' hs hstep
    exact hs.step hstep
  · intro s event hs
    exact leavesNone_iff hs event

/-! ### A load that is still pending -/

/-- The host's answer to the client that joined it: its id is 1. -/
def assignPacket : Packet where
  systemAddress := exampleAddress "" 60000
  guid := 1
  data := (((BitStream.write {} idCreateLocalNetPlayer).write (1 : Int32)).write ({} : Vec3)).data
  nonempty := by decide

/-- A client of the host in the examples. -/
def exampleClient : Session Engine.Table :=
  opened (Engine.table exampleAddress) hostProcess (.connect "127.0.0.1" 60000 true true)

/-- The client while the game loads the host's region. -/
def loadingClient : Session Engine.Table where
  engine := [(0, 1000)]
  resolveMovementAccelerationCallbacks := [(movementKey 1, .broadcast 1 0)]
  resolveFacingDirectionCallbacks := [(facingKey 1, .broadcast 1 0)]
  updateRegionLoadCallbacks :=
    [(regionLoadKey, { networkId := 1, defGlobalIndex := 1000, position := {} })]
  network := { exampleClient.network with
    self := { address := exampleAddress "" 60000, networkId := 1 } }
  localNetPlayer := some { networkId := 1, localId := 0 }

theorem run_loadingClient :
    run (Engine.table exampleAddress) exampleClient [.packet assignPacket 0] =
      .ok loadingClient :=
  rfl

/-- The player disconnects during the load: the closure that announces it stays behind. -/
theorem pending_load_outlives :
    ¬ ∀ (E : Engine Engine.Table) (engine : Engine.Table) (boundAddress : SystemAddress)
        (opening : Opening) (events : List (SessionEvent Engine.Table)),
        let process : Process Engine.Table := { engine := engine, boundAddress := boundAddress }
        Fallible.StepsSatisfy (step E) (LeavesNone E) (opened E process opening) events := by
  intro hall
  have hsteps := hall (Engine.table exampleAddress) hostProcess.engine hostProcess.boundAddress
    (.connect "127.0.0.1" 60000 true true) [.packet assignPacket 0, .disconnect 0]
  have hleaves := hsteps [.packet assignPacket 0] (.disconnect 0) [] rfl loadingClient
    run_loadingClient
  -- Nothing has run the closure since it was registered, so it is still there.
  have hnone := hleaves loadingClient 0 _ (Disconnects.key 0 rfl) rfl
  exact List.cons_ne_nil _ _ hnone.regionLoad

/-! ## The closures in the maps -/

/-- Every motion closure is under the id of one of the session's players. -/
structure Covered (s : Session σ) : Prop where
  movement : ∀ entry ∈ s.resolveMovementAccelerationCallbacks,
    entry.1 ∈ s.networkIds.map movementKey
  facing : ∀ entry ∈ s.resolveFacingDirectionCallbacks, entry.1 ∈ s.networkIds.map facingKey

/-- The local player gets another id than the one it has. -/
def Renames (s : Session σ) : SessionEvent σ → Prop
  | .packet packet _ =>
      packet.kind = .createLocalNetPlayer ∧
        ∃ localNetPlayer, s.localNetPlayer = some localNetPlayer ∧
        (readCreateLocalNetPlayer (payload packet)).1 ≠ localNetPlayer.networkId
  | _ => False

namespace Covered

variable {E : Engine σ} {s s' : Session σ}

theorem congr (h : Covered s)
    (hmovement : s'.resolveMovementAccelerationCallbacks = s.resolveMovementAccelerationCallbacks)
    (hfacing : s'.resolveFacingDirectionCallbacks = s.resolveFacingDirectionCallbacks)
    (hids : s.networkIds ⊆ s'.networkIds) : Covered s' := by
  refine ⟨?_, ?_⟩
  · intro entry hentry
    exact List.map_subset movementKey hids (h.movement entry (hmovement ▸ hentry))
  · intro entry hentry
    exact List.map_subset facingKey hids (h.facing entry (hfacing ▸ hentry))

theorem spoke (h : Covered s) (hs : Spoke s s') : Covered s' := by
  rcases hs with ⟨sent, rfl⟩
  exact h.congr rfl rfl (List.Subset.refl _)

theorem assignMovement (h : Covered s) {networkId : Int32} (hmem : networkId ∈ s.networkIds)
    (value : MotionCallback) :
    Covered { s with
      resolveMovementAccelerationCallbacks := s.resolveMovementAccelerationCallbacks.assign
        (movementKey networkId) value } := by
  refine ⟨?_, h.facing⟩
  intro entry hentry
  rcases CallbackMap.mem_assign hentry with rfl | hold
  · exact List.mem_map_of_mem hmem
  · exact h.movement entry hold

theorem assignFacing (h : Covered s) {networkId : Int32} (hmem : networkId ∈ s.networkIds)
    (value : MotionCallback) :
    Covered { s with
      resolveFacingDirectionCallbacks := s.resolveFacingDirectionCallbacks.assign
        (facingKey networkId) value } := by
  refine ⟨h.movement, ?_⟩
  intro entry hentry
  rcases CallbackMap.mem_assign hentry with rfl | hold
  · exact List.mem_map_of_mem hmem
  · exact h.facing entry hold

theorem applyMotion (h : Covered s) {networkId : Int32} (hmem : networkId ∈ s.networkIds) :
    Covered ((s.applyNetPlayerMovement E networkId).applyNetPlayerRotation E networkId) := by
  have hfirst : Covered (s.applyNetPlayerMovement E networkId) ∧
      networkId ∈ (s.applyNetPlayerMovement E networkId).networkIds := by
    unfold applyNetPlayerMovement
    split
    · exact ⟨h, hmem⟩
    · exact ⟨h.assignMovement hmem _, hmem⟩
  unfold applyNetPlayerRotation
  split
  · exact hfirst.1
  · exact hfirst.1.assignFacing hfirst.2 _

theorem broadcastMotion (h : Covered s) {networkId : Int32} (hmem : networkId ∈ s.networkIds) :
    Covered ((s.broadcastLocalNetPlayerMovement E networkId).broadcastLocalNetPlayerRotation E
      networkId) := by
  have hfirst : Covered (s.broadcastLocalNetPlayerMovement E networkId) ∧
      networkId ∈ (s.broadcastLocalNetPlayerMovement E networkId).networkIds := by
    unfold broadcastLocalNetPlayerMovement
    split
    · exact ⟨h, hmem⟩
    · exact ⟨h.assignMovement hmem _, hmem⟩
  unfold broadcastLocalNetPlayerRotation
  split
  · exact hfirst.1
  · exact hfirst.1.assignFacing hfirst.2 _

theorem createLocalNetPlayer (h : Covered s) {networkId : Int32} (position : Vec3)
    (hsame : ∀ localNetPlayer, s.localNetPlayer = some localNetPlayer →
      networkId = localNetPlayer.networkId) :
    Covered (s.createLocalNetPlayer E networkId position) := by
  simp only [Session.createLocalNetPlayer]
  split
  · exact h
  · generalize hstarted : (Session.mk _ _ _ _ _ _ _ _ : Session σ) = started
    -- The new local player has the id of the one it takes the place of, if there was one.
    have hids : s.networkIds ⊆ started.networkIds ∧ networkId ∈ started.networkIds := by
      rw [← hstarted, networkIds_eq, networkIds_eq]
      refine ⟨?_, by simp⟩
      cases hlocal : s.localNetPlayer with
      | none => simp
      | some localNetPlayer => simp [hsame localNetPlayer hlocal]
    have hstart : Covered started := by
      refine h.congr ?_ ?_ hids.1 <;> rw [← hstarted]
    have hmotion := hstart.broadcastMotion (E := E) hids.2
    split
    · unfold teleportLocalNetPlayerToHost
      split
      · exact hmotion
      · exact hmotion.congr rfl rfl (List.Subset.refl _)
    · exact hmotion

theorem createNetPlayer (h : Covered s) {networkId defGlobalIndex : Int32} {position : Vec3}
    (hok : s.createNetPlayer E networkId position defGlobalIndex = .ok s') : Covered s' := by
  simp only [Session.createNetPlayer] at hok
  split at hok
  · cases hok
    exact h.congr rfl rfl (List.Subset.refl _)
  · generalize hadded : (Session.mk _ _ _ _ _ _ _ _ : Session σ) = added at hok
    -- The entry is in the vector when its closures are registered.
    have hids : s.networkIds ⊆ added.networkIds ∧ networkId ∈ added.networkIds := by
      rw [← hadded, networkIds_eq, networkIds_eq]
      refine ⟨?_, by simp⟩
      rw [List.map_append, ← List.append_assoc]
      exact List.subset_append_left _ _
    have hstart : Covered added := by
      refine h.congr ?_ ?_ hids.1 <;> rw [← hadded]
    have hmotion := hstart.applyMotion (E := E) hids.2
    split at hok
    · cases hok
    · split at hok
      · cases hok
        exact hmotion.spoke ((spoke_sendToAllClientsExcept _ _ _ _).trans
          (spoke_broadcastCreateNetPlayers E _ _))
      · cases hok
        exact hmotion

theorem createNetPlayersLoop (h : Covered s) {count : Nat} {bs : BitStream}
    (hok : Session.createNetPlayersLoop E count bs s = .ok s') : Covered s' := by
  refine createNetPlayersLoop_rel (R := fun s s' => Covered s → Covered s') (fun _ => id)
    (fun h h' hs => h' (h hs)) ?_ hok h
  intro s s' networkId position defGlobalIndex hentry hs
  rcases createNetPlayers_cases hentry with rfl | hcreated
  · exact hs
  · exact hs.createNetPlayer hcreated

/-- The id that may lose its last player loses its closures first. -/
theorem destroyNetPlayer (h : Covered s) {networkId : Int32}
    (hok : s.destroyNetPlayer E networkId = .ok s') : Covered s' := by
  rcases destroyNetPlayer_shape hok with ⟨_, rfl⟩ | ⟨player, _, hspoke⟩
  · exact h
  · refine Covered.spoke ?_ hspoke
    -- Only the id that is destroyed can lose its last player.
    have hkept : ∀ k ∈ s.networkIds, k ≠ networkId →
        k ∈ (withoutPlayer E s networkId player).networkIds := by
      intro k hk hne
      rw [networkIds_eq] at hk ⊢
      rcases List.mem_append.1 hk with hself | hother
      · exact List.mem_append_left _ hself
      · refine List.mem_append_right _ ?_
        rcases List.mem_map.1 hother with ⟨netPlayer, hmem, rfl⟩
        refine List.mem_map_of_mem (List.mem_eraseP_of_neg ?_ |>.2 hmem)
        simpa using hne
    refine ⟨?_, ?_⟩
    · intro entry hentry
      rcases CallbackMap.mem_erase_iff.1 hentry with ⟨hold, hkey⟩
      rcases List.mem_map.1 (h.movement entry hold) with ⟨k, hk, heq⟩
      have hne : k ≠ networkId := by
        intro hsame
        exact hkey (heq ▸ hsame ▸ rfl)
      exact heq ▸ List.mem_map_of_mem (hkept k hk hne)
    · intro entry hentry
      rcases CallbackMap.mem_erase_iff.1 hentry with ⟨hold, hkey⟩
      rcases List.mem_map.1 (h.facing entry hold) with ⟨k, hk, heq⟩
      have hne : k ≠ networkId := by
        intro hsame
        exact hkey (heq ▸ hsame ▸ rfl)
      exact heq ▸ List.mem_map_of_mem (hkept k hk hne)

theorem runAll {run : Session σ → MotionCallback → Except Fault (Session σ)}
    (hrun : ∀ {s s' : Session σ} {callback}, run s callback = .ok s' → Moves E s s')
    (h : Covered s) {callbacks : CallbackMap MotionCallback}
    (hok : Session.runAll run callbacks s = .ok s') : Covered s' := by
  refine runAll_rel (R := fun s s' => Covered s → Covered s') (fun _ => id)
    (fun h h' hs => h' (h hs)) ?_ hok h
  intro s s' callback hcall hs
  cases hrun hcall with
  | sent hsent => exact hs.spoke (spoke_sendMotion hsent)
  | applied engine happlied =>
    rw [happlied]
    exact hs.congr rfl rfl (List.Subset.refl _)

theorem runRegionLoadCallback (h : Covered s) (callback : RegionLoadCallback) :
    Covered (s.runRegionLoadCallback E callback) := by
  unfold Session.runRegionLoadCallback
  split
  · exact h
  · refine Covered.spoke ?_ (spoke_sendToHost E _ _ _)
    exact h.congr rfl rfl (List.Subset.refl _)

theorem updateRegionLoad (h : Covered s) : Covered (s.updateRegionLoad E) :=
  updateRegionLoad_rel (R := fun s s' => Covered s → Covered s') (fun _ => id)
    (fun h h' hs => h' (h hs)) (fun _ callback hs => hs.runRegionLoadCallback callback) h

theorem receiveNetPlayerMovement (h : Covered s) (networkId : Int32)
    (position acceleration : Vec3) :
    Covered (s.receiveNetPlayerMovement networkId position acceleration) := by
  have hsent := h.spoke (spoke_passedOn s networkId
    (motionMessage idPlayerMovement networkId position acceleration) .unreliableSequenced)
  refine hsent.congr rfl rfl ?_
  rw [networkIds_eq, networkIds_eq]
  simp only [Session.receiveNetPlayerMovement]
  rw [map_updateNetPlayer NetPlayer.networkId (by intro netPlayer; rfl)]
  exact List.Subset.refl _

theorem receiveNetPlayerRotation (h : Covered s) (networkId : Int32) (up forward : Vec3) :
    Covered (s.receiveNetPlayerRotation networkId up forward) := by
  have hsent := h.spoke (spoke_passedOn s networkId
    (motionMessage idPlayerRotation networkId up forward) .unreliableSequenced)
  refine hsent.congr rfl rfl ?_
  rw [networkIds_eq, networkIds_eq]
  simp only [Session.receiveNetPlayerRotation]
  rw [map_updateNetPlayer NetPlayer.networkId (by intro netPlayer; rfl)]
  exact List.Subset.refl _

theorem handleLoss (h : Covered s) {rounds : Nat} {packet : Packet}
    (hok : s.handleLoss E rounds packet = .ok s') (hopen : s'.network.active = true) :
    Covered s' := by
  rcases handleLoss_cases hok with ⟨t, hremoved, ⟨_, hdisconnect⟩ | ⟨_, rfl⟩⟩
  · -- The host is lost: the session is not open any more.
    rw [inactive_of_disconnect hdisconnect] at hopen
    cases hopen
  · rcases removeConnection_cases hremoved with ⟨s₁, hdestroyed, rfl⟩
    exact (h.destroyNetPlayer hdestroyed).congr rfl rfl (List.Subset.refl _)

/-- Closures stay with the session's players as long as the local player keeps its id. -/
theorem step (h : Covered s) {event : SessionEvent σ} (hkeep : ¬ Renames s event)
    (hok : s.step E event = .ok s') (hopen : s'.network.active = true) : Covered s' := by
  cases event with
  | packet packet rounds =>
    simp only [Session.step, update] at hok
    split at hok
    · cases hok
      exact h
    · cases hkind : packet.kind with
      | connectionRequestAccepted =>
        simp only [hkind] at hok
        cases hok
        exact h.spoke (spoke_peerSend _ _ _ _ _)
      | connectionNotification =>
        simp only [hkind] at hok
        refine Covered.spoke ?_ (spoke_handleConnectionNotification hok)
        exact h.congr rfl rfl (List.Subset.refl _)
      | createLocalNetPlayer =>
        simp only [hkind] at hok
        cases hok
        -- The one step that the side condition is about.
        refine Covered.createLocalNetPlayer ?_ _ ?_
        · exact h.congr rfl rfl (List.Subset.refl _)
        · intro localNetPlayer hlocal
          by_contra hne
          exact hkeep ⟨hkind, localNetPlayer, hlocal, hne⟩
      | createNetPlayer =>
        simp only [hkind] at hok
        exact h.createNetPlayer hok
      | createNetPlayers =>
        simp only [hkind] at hok
        exact h.createNetPlayersLoop hok
      | playerMovement =>
        simp only [hkind] at hok
        cases hok
        exact h.receiveNetPlayerMovement _ _ _
      | playerRotation =>
        simp only [hkind] at hok
        cases hok
        exact h.receiveNetPlayerRotation _ _ _
      | disconnectionNotification =>
        simp only [hkind] at hok
        exact h.handleLoss hok hopen
      | connectionLost =>
        simp only [hkind] at hok
        exact h.handleLoss hok hopen
      | destroyNetPlayer =>
        simp only [hkind] at hok
        exact h.destroyNetPlayer hok
      | connectionAttemptFailed =>
        simp only [hkind, handleConnectionAttemptFailed] at hok
        split at hok
        · rw [inactive_of_disconnect hok] at hopen
          cases hopen
        · cases hok
          exact h
      | _ =>
        simp only [hkind] at hok
        cases hok
        exact h
  | updateRegionLoad =>
    cases hok
    exact h.updateRegionLoad
  | resolveMovementAcceleration =>
    exact runAll moves_runMovementCallback h hok
  | resolveFacingDirection =>
    exact runAll moves_runFacingCallback h hok
  | game engine =>
    cases hok
    exact h.congr rfl rfl (List.Subset.refl _)
  | disconnect rounds =>
    rw [inactive_of_disconnect hok] at hopen
    cases hopen

theorem opened (E : Engine σ) (engine : σ) (boundAddress : SystemAddress) (opening : Opening) :
    Covered (opened E { engine := engine, boundAddress := boundAddress } opening) := by
  -- A fresh process has no closures, so there is nothing to cover.
  have hempty : ∀ s₀ : Session σ, s₀.resolveMovementAccelerationCallbacks = [] →
      s₀.resolveFacingDirectionCallbacks = [] → Covered s₀ := by
    intro s₀ hmovement hfacing
    refine ⟨?_, ?_⟩
    · rw [hmovement]
      simp
    · rw [hfacing]
      simp
  cases opening with
  | host port startup =>
    simp only [Session.opened, host]
    split
    · exact hempty _ rfl rfl
    · split
      · exact hempty _ rfl rfl
      · refine (hempty _ rfl rfl).createLocalNetPlayer _ ?_
        intro localNetPlayer hlocal
        cases hlocal
  | connect ip port startup connected =>
    simp only [Session.opened, connect]
    split
    · exact hempty _ rfl rfl
    · split <;> exact hempty _ rfl rfl

theorem released_or_local (hs : Placed s) {k : Int32} (hk : k ∈ s.networkIds) :
    k ∈ released E s ∨
      ∃ localNetPlayer, s.localNetPlayer = some localNetPlayer ∧ k = localNetPlayer.networkId := by
  rw [networkIds_eq] at hk
  rcases List.mem_append.1 hk with hself | hother
  · rcases List.mem_map.1 hself with ⟨localNetPlayer, hlocal, rfl⟩
    exact Or.inr ⟨localNetPlayer, by simpa using hlocal, rfl⟩
  · cases hlocal : s.localNetPlayer with
    | none =>
      simp [hs.netPlayers_nil hlocal] at hother
    | some localNetPlayer =>
      refine Or.inl ?_
      simp only [released, hlocal]
      exact List.mem_append_left _ hother

/-- A map whose entries are the players' holds only released ones when it holds none of a local
player's that is not released. -/
theorem released_iff {α : Type} {callbacks : CallbackMap α} {key : Int32 → String}
    (hkey : Function.Injective key) (hs : Placed s)
    (h : ∀ entry ∈ callbacks, entry.1 ∈ s.networkIds.map key) :
    (∀ entry ∈ callbacks, entry.1 ∈ (released E s).map key) ↔
      ∀ localNetPlayer, s.localNetPlayer = some localNetPlayer →
        localNetPlayer.networkId ∉ released E s →
          ∀ entry ∈ callbacks, entry.1 ≠ key localNetPlayer.networkId := by
  constructor
  · intro hreleased localNetPlayer _ hnot entry hentry heq
    rcases List.mem_map.1 (hreleased entry hentry) with ⟨k, hk, hsame⟩
    exact hnot (hkey (hsame.trans heq) ▸ hk)
  · intro hself entry hentry
    rcases List.mem_map.1 (h entry hentry) with ⟨k, hk, heq⟩
    by_contra hleft
    have hnot : k ∉ released E s := fun hout => hleft (heq ▸ List.mem_map_of_mem hout)
    -- Every net player is released, so the entry can only be the local player's.
    rcases released_or_local hs hk with hout | ⟨localNetPlayer, hlocal, rfl⟩
    · exact hnot hout
    · exact hself localNetPlayer hlocal hnot entry hentry heq.symm

/-- With the closures covered, all that can stay behind is the region-load closure and, when the
game has lost the local player's creature, the local player's two. -/
theorem clean_iff (h : Covered s) (hs : Placed s) :
    Clean E s ↔ s.updateRegionLoadCallbacks = [] ∧ ∀ localNetPlayer,
      s.localNetPlayer = some localNetPlayer → localNetPlayer.networkId ∉ released E s →
        (∀ entry ∈ s.resolveMovementAccelerationCallbacks,
          entry.1 ≠ movementKey localNetPlayer.networkId) ∧
        ∀ entry ∈ s.resolveFacingDirectionCallbacks,
          entry.1 ≠ facingKey localNetPlayer.networkId := by
  have hmovement := released_iff (E := E) movementKey_injective hs h.movement
  have hfacing := released_iff (E := E) facingKey_injective hs h.facing
  constructor
  · intro hclean
    refine ⟨hclean.regionLoad, fun localNetPlayer hlocal hnot => ⟨?_, ?_⟩⟩
    · exact hmovement.1 hclean.movement localNetPlayer hlocal hnot
    · exact hfacing.1 hclean.facing localNetPlayer hlocal hnot
  · rintro ⟨hregion, hself⟩
    refine ⟨hregion, hmovement.2 ?_, hfacing.2 ?_⟩
    · intro localNetPlayer hlocal hnot
      exact (hself localNetPlayer hlocal hnot).1
    · intro localNetPlayer hlocal hnot
      exact (hself localNetPlayer hlocal hnot).2

end Covered

/-- In a run in which no message gives the local player another id, every motion closure of the
open session is covered. -/
theorem covered_of_unrenamed (E : Engine σ) (engine : σ) (boundAddress : SystemAddress)
    (opening : Opening) (events : List (SessionEvent σ)) (s : Session σ)
    (hkeep : Fallible.StepsSatisfy (step E) (fun s event => ¬ Renames s event)
      (opened E { engine := engine, boundAddress := boundAddress } opening) events)
    (hrun : run E (opened E { engine := engine, boundAddress := boundAddress } opening) events =
      .ok s) (hopen : s.network.active = true) : Covered s := by
  refine Fallible.run_invariant_of (I := fun s => s.network.active = true → Covered s)
    (fun _ => Covered.opened E engine boundAddress opening) ?_ events s hkeep hrun hopen
  intro s event s' hs hsame hstep hopen'
  cases hactive : s.network.active with
  | true => exact (hs hactive).step hsame hstep hopen'
  | false =>
    rw [(inactive_step E hactive event).2 s' hstep] at hopen'
    cases hopen'

end Session
end Mod
end Crossover
