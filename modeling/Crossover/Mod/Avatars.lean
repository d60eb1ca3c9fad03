import Crossover.Mod.Effects
import Mathlib

/-!
# Avatars — one player for each network id

The manager looks its players up by network id and keys the hooks' closures with it.  This is
sound as long as no two players share an id, which the roster path checks and the two paths of a
single creation do not.
-/

namespace Crossover
namespace Mod

open Wire

namespace Session

variable {σ : Type}

/-! ## The property -/

/-- The players with their ids, the local one first. -/
def players (s : Session σ) : List (Int32 × Int) :=
  s.localNetPlayer.toList.map (fun local_ => (local_.networkId, local_.localId)) ++
    s.netPlayers.map NetPlayer.ids

def networkIds (s : Session σ) : List Int32 :=
  s.players.map Prod.fst

/-- One avatar per network id, with what the lookups and the callback keys get from it. -/
structure OneAvatarPerId (s : Session σ) : Prop where
  distinct : (s.netPlayers.map NetPlayer.networkId).Nodup
  notLocal : ∀ localNetPlayer, s.localNetPlayer = some localNetPlayer →
    localNetPlayer.networkId ∉ s.netPlayers.map NetPlayer.networkId
  lookup : ∀ player ∈ s.players, s.getLocalIdFromNetworkId player.1 = player.2
  movementKeys : (s.networkIds.map movementKey).Nodup
  facingKeys : (s.networkIds.map facingKey).Nodup

/-! ### It is distinctness of the network ids -/

theorem movementKey_injective : Function.Injective movementKey := by
  intro i j h
  have hdigits : toString i.toInt = toString j.toInt := (String.append_right_inj _).1 h
  exact Int32.toInt_inj.1 (Int.repr_injective hdigits)

theorem facingKey_injective : Function.Injective facingKey := by
  intro i j h
  have hdigits : toString i.toInt = toString j.toInt := (String.append_right_inj _).1 h
  exact Int32.toInt_inj.1 (Int.repr_injective hdigits)

theorem networkIds_eq (s : Session σ) :
    s.networkIds = s.localNetPlayer.toList.map LocalNetPlayer.networkId ++
      s.netPlayers.map NetPlayer.networkId := by
  simp [networkIds, players, Function.comp_def, NetPlayer.ids]

theorem localIds_eq (s : Session σ) : s.localIds = s.players.map Prod.snd := by
  simp [localIds, players, Function.comp_def, NetPlayer.ids]

/-- The search over the vector finds the only entry with its id. -/
theorem find_of_nodup {netPlayers : List NetPlayer}
    (h : (netPlayers.map NetPlayer.networkId).Nodup) {netPlayer : NetPlayer}
    (hmem : netPlayer ∈ netPlayers) :
    netPlayers.find? (fun p => p.networkId == netPlayer.networkId) = some netPlayer := by
  induction netPlayers with
  | nil => cases hmem
  | cons first rest ih =>
    rw [List.map_cons, List.nodup_cons] at h
    rcases List.mem_cons.1 hmem with hfirst | hrest
    · simp [hfirst]
    · have hne : first.networkId ≠ netPlayer.networkId := by
        intro heq
        exact h.1 (heq ▸ List.mem_map_of_mem hrest)
      simpa [List.find?_cons, hne] using ih h.2 hrest

theorem oneAvatarPerId_iff (s : Session σ) : OneAvatarPerId s ↔ s.networkIds.Nodup := by
  constructor
  · intro h
    cases hlocal : s.localNetPlayer with
    | none => simpa [networkIds_eq, hlocal] using h.distinct
    | some localNetPlayer =>
      have hnot := h.notLocal localNetPlayer hlocal
      rw [networkIds_eq, hlocal]
      exact List.nodup_cons.2 ⟨hnot, h.distinct⟩
  · intro h
    have hboth := h
    rw [networkIds_eq, List.nodup_append] at hboth
    refine ⟨hboth.2.1, ?_, ?_, h.map movementKey_injective, h.map facingKey_injective⟩
    · intro localNetPlayer hlocal hmem
      exact hboth.2.2 _ (by simp [hlocal]) _ hmem rfl
    · intro player hplayer
      -- The lookup asks the local player first, then the vector from the front.
      rcases List.mem_append.1 hplayer with hmem | hmem
      · cases hlocal : s.localNetPlayer with
        | none => simp [hlocal] at hmem
        | some localNetPlayer =>
          have heq : player = (localNetPlayer.networkId, localNetPlayer.localId) := by
            simpa [hlocal] using hmem
          simp [getLocalIdFromNetworkId, hlocal, heq]
      · rcases List.mem_map.1 hmem with ⟨netPlayer, hnet, heq⟩
        have hfind := find_of_nodup hboth.2.1 hnet
        cases hlocal : s.localNetPlayer with
        | none => simp [getLocalIdFromNetworkId, hlocal, ← heq, NetPlayer.ids, hfind]
        | some localNetPlayer =>
          have hne : localNetPlayer.networkId ≠ netPlayer.networkId :=
            hboth.2.2 _ (by simp [hlocal]) _ (List.mem_map_of_mem hnet)
          simp [getLocalIdFromNetworkId, hlocal, ← heq, NetPlayer.ids, hfind, hne]

/-! ## What holds without it -/

/-- Local ids in use are not negative, so `-1` says that there is no player; net players come
after the local one. -/
structure Placed (s : Session σ) : Prop where
  nonneg : ∀ player ∈ s.players, 0 ≤ player.2
  started : s.netPlayers ≠ [] → s.localNetPlayer.isSome = true

/-- Without a local player there is nobody else either. -/
theorem Placed.netPlayers_nil {s : Session σ} (hs : Placed s)
    (hnone : s.localNetPlayer = none) : s.netPlayers = [] := by
  by_contra hne
  have hsome := hs.started hne
  rw [hnone] at hsome
  cases hsome

/-- The players of `s'` are among those of `s`; the local one only goes with the others and with
the session. -/
structure Fewer (s s' : Session σ) : Prop where
  active : s'.network.active = true → s.network.active = true
  localNetPlayer : s'.localNetPlayer = s.localNetPlayer ∨
    s'.localNetPlayer = none ∧ s'.netPlayers = [] ∧ s'.network.active = false
  netPlayers : (s'.netPlayers.map NetPlayer.ids).Sublist (s.netPlayers.map NetPlayer.ids)

namespace Fewer

variable {s s' s'' : Session σ}

theorem of_same (hlocal : s'.localNetPlayer = s.localNetPlayer)
    (hnet : s'.netPlayers.map NetPlayer.ids = s.netPlayers.map NetPlayer.ids)
    (hactive : s'.network.active = s.network.active) : Fewer s s' :=
  ⟨fun h => hactive ▸ h, Or.inl hlocal, hnet ▸ List.Sublist.refl _⟩

theorem trans (h : Fewer s s') (h' : Fewer s' s'') : Fewer s s'' := by
  refine ⟨fun hactive => h.active (h'.active hactive), ?_, h'.netPlayers.trans h.netPlayers⟩
  rcases h'.localNetPlayer with hsame | hgone
  · rcases h.localNetPlayer with hfirst | ⟨hnone, hnil, hover⟩
    · exact Or.inl (hsame.trans hfirst)
    · have hsub := h'.netPlayers
      rw [hnil] at hsub
      have hstill : s''.network.active = false := by
        rw [Bool.eq_false_iff]
        intro hactive
        rw [h'.active hactive] at hover
        cases hover
      exact Or.inr ⟨hsame.trans hnone, List.map_eq_nil_iff.1 (List.sublist_nil.1 hsub), hstill⟩
  · exact Or.inr hgone

theorem players (h : Fewer s s') : s'.players.Sublist s.players := by
  rcases h.localNetPlayer with hlocal | ⟨hnone, hnil, _⟩
  · rw [Session.players, Session.players, hlocal]
    exact (List.Sublist.refl _).append h.netPlayers
  · simp [Session.players, hnone, hnil]

theorem placed (h : Fewer s s') (hs : Placed s) : Placed s' := by
  refine ⟨fun player hmem => hs.nonneg player (h.players.subset hmem), ?_⟩
  intro hne
  rcases h.localNetPlayer with hlocal | ⟨_, hnil, _⟩
  · rw [hlocal]
    apply hs.started
    intro hnil
    have hsub := h.netPlayers
    rw [hnil] at hsub
    exact hne (List.map_eq_nil_iff.1 (List.sublist_nil.1 hsub))
  · exact absurd hnil hne

theorem nodup (h : Fewer s s') (hs : s.networkIds.Nodup) : s'.networkIds.Nodup :=
  hs.sublist (h.players.map Prod.fst)

end Fewer

theorem SameManager.fewer {s s' : Session σ} (h : SameManager s s') : Fewer s s' :=
  Fewer.of_same h.localNetPlayer (by rw [h.netPlayers]) (by rw [h.network])

theorem Quiet.fewer {s s' : Session σ} (h : Quiet s s') : Fewer s s' :=
  h.toSameManager.fewer

section Effects

variable {E : Engine σ} {s s' : Session σ}

theorem fewer_destroyNetPlayer {networkId : Int32}
    (h : s.destroyNetPlayer E networkId = .ok s') : Fewer s s' := by
  rcases destroyNetPlayer_cases h with ⟨_, hsame⟩ | ⟨_, _, hlocal, hnetwork, herased, _⟩
  · rw [hsame]
    exact Fewer.of_same rfl rfl rfl
  · refine ⟨fun hactive => hnetwork ▸ hactive, Or.inl hlocal, ?_⟩
    rw [herased]
    exact List.eraseP_sublist.map NetPlayer.ids

theorem fewer_disconnect {rounds : Nat} (h : s.disconnect E rounds = .ok s') : Fewer s s' := by
  have hover := inactive_of_disconnect h
  rcases disconnect_cases h with ⟨_, rfl⟩ | ⟨_, cleared, rfl, hcleared⟩
  · exact Fewer.of_same rfl rfl rfl
  · -- The vector is empty by the time the local player goes.
    have hempty := destroyNetPlayers_cases hcleared
    have hself := disconnected_effect E cleared
    have hnil := hself.2.1.trans hempty.2.2
    refine ⟨?_, ?_, ?_⟩
    · intro hactive
      have hfalse := hover.symm.trans hactive
      cases hfalse
    · rcases hself.1 with hkept | hgone
      · exact Or.inl (hkept.trans hempty.1)
      · exact Or.inr ⟨hgone, hnil, hover⟩
    · rw [hnil]
      exact List.nil_sublist _

theorem fewer_removeConnection {networkId : Int32}
    (h : s.removeConnection E networkId = .ok s') : Fewer s s' := by
  rcases removeConnection_cases h with ⟨t, hdestroyed, rfl⟩
  exact (fewer_destroyNetPlayer hdestroyed).trans (Fewer.of_same rfl rfl rfl)

theorem fewer_handleLoss {rounds : Nat} {packet : Packet}
    (h : s.handleLoss E rounds packet = .ok s') : Fewer s s' := by
  rcases handleLoss_cases h with ⟨t, hremoved, ⟨_, hdisconnect⟩ | ⟨_, rfl⟩⟩
  · exact (fewer_removeConnection hremoved).trans (fewer_disconnect hdisconnect)
  · exact fewer_removeConnection hremoved

theorem fewer_handleConnectionNotification {address : SystemAddress}
    (h : s.handleConnectionNotification E address = .ok s') : Fewer s s' := by
  refine Fewer.trans ?_ (spoke_handleConnectionNotification h).quiet.fewer
  exact Fewer.of_same rfl rfl rfl

/-! ## What a step does to the players -/

/-- The packet's record as the `CreateNetPlayer` callback reads it. -/
def createdEntry (E : Engine σ) (s : Session σ) (packet : Packet) : Int32 × Int32 × Vec3 :=
  (readCreateNetPlayer (E.indeterminate s.engine) (payload packet)).1

/-- A step that returns takes players away, or it is one of the three messages that create. -/
inductive Change (E : Engine σ) (s : Session σ) : SessionEvent σ → Session σ → Prop
  | fewer {event : SessionEvent σ} {s' : Session σ} : Fewer s s' → Change E s event s'
  | createNetPlayer {packet : Packet} {rounds : Nat} {s' : Session σ} :
      s.network.active = true → packet.kind = .createNetPlayer →
      s.createNetPlayer E (createdEntry E s packet).1 (createdEntry E s packet).2.2
        (createdEntry E s packet).2.1 = .ok s' →
      Change E s (.packet packet rounds) s'
  | createNetPlayers {packet : Packet} {rounds count : Nat} {bs : BitStream} {s' : Session σ} :
      createNetPlayersLoop E count bs s = .ok s' → Change E s (.packet packet rounds) s'
  | createLocalNetPlayer {packet : Packet} {rounds : Nat} {s₀ : Session σ} :
      s.network.active = true → packet.kind = .createLocalNetPlayer →
      s₀.engine = s.engine → s₀.localNetPlayer = s.localNetPlayer →
      s₀.netPlayers = s.netPlayers →
      Change E s (.packet packet rounds)
        (s₀.createLocalNetPlayer E (readCreateLocalNetPlayer (payload packet)).1
          (readCreateLocalNetPlayer (payload packet)).2)

theorem step_createNetPlayer (E : Engine σ) (rounds : Nat) {packet : Packet}
    (hactive : s.network.active = true) (hkind : packet.kind = .createNetPlayer) :
    s.step E (.packet packet rounds) =
      s.createNetPlayer E (createdEntry E s packet).1 (createdEntry E s packet).2.2
        (createdEntry E s packet).2.1 := by
  simp [step, update, hactive, hkind, handleCreateNetPlayer, createdEntry]

theorem step_change {event : SessionEvent σ} (h : s.step E event = .ok s') :
    Change E s event s' := by
  cases event with
  | packet packet rounds =>
    simp only [step, update] at h
    split at h
    · cases h
      exact .fewer (Fewer.of_same rfl rfl rfl)
    · rename_i hinactive
      have hactive : s.network.active = true := by simpa using hinactive
      cases hkind : packet.kind with
      | connectionRequestAccepted =>
        simp only [hkind] at h
        cases h
        exact .fewer (quiet_peerSend _ _ _ _ _).fewer
      | connectionNotification =>
        simp only [hkind] at h
        exact .fewer (fewer_handleConnectionNotification h)
      -- Three messages add players; every other event leaves as many or fewer.
      | createLocalNetPlayer =>
        simp only [hkind] at h
        cases h
        exact .createLocalNetPlayer hactive hkind rfl rfl rfl
      | createNetPlayer =>
        simp only [hkind] at h
        exact .createNetPlayer hactive hkind h
      | createNetPlayers =>
        simp only [hkind] at h
        exact .createNetPlayers h
      | playerMovement =>
        simp only [hkind] at h
        cases h
        have hmoved := receiveNetPlayerMovement_ids s (readMotion (payload packet)).1
          (readMotion (payload packet)).2.1 (readMotion (payload packet)).2.2
        exact .fewer (Fewer.of_same hmoved.1 hmoved.2.2.2 (congrArg Network.active hmoved.2.1))
      | playerRotation =>
        simp only [hkind] at h
        cases h
        have hturned := receiveNetPlayerRotation_ids s (readMotion (payload packet)).1
          (readMotion (payload packet)).2.1 (readMotion (payload packet)).2.2
        exact .fewer (Fewer.of_same hturned.1 hturned.2.2.2 (congrArg Network.active hturned.2.1))
      | disconnectionNotification =>
        simp only [hkind] at h
        exact .fewer (fewer_handleLoss h)
      | connectionLost =>
        simp only [hkind] at h
        exact .fewer (fewer_handleLoss h)
      | destroyNetPlayer =>
        simp only [hkind] at h
        exact .fewer (fewer_destroyNetPlayer h)
      | connectionAttemptFailed =>
        simp only [hkind, handleConnectionAttemptFailed] at h
        split at h
        · exact .fewer (fewer_disconnect h)
        · cases h
          exact .fewer (Fewer.of_same rfl rfl rfl)
      | _ =>
        simp only [hkind] at h
        cases h
        exact .fewer (Fewer.of_same rfl rfl rfl)
  | updateRegionLoad =>
    cases h
    exact .fewer (quiet_updateRegionLoad E s).fewer
  | resolveMovementAcceleration =>
    exact .fewer (sameManager_runAll moves_runMovementCallback h).fewer
  | resolveFacingDirection =>
    exact .fewer (sameManager_runAll moves_runFacingCallback h).fewer
  | game engine =>
    cases h
    exact .fewer (Fewer.of_same rfl rfl rfl)
  | disconnect rounds => exact .fewer (fewer_disconnect h)

end Effects

/-! ## Created players -/

section Created

variable {E : Engine σ} {s s' : Session σ}

theorem players_createNetPlayer {networkId defGlobalIndex : Int32} {position : Vec3}
    (h : s.createNetPlayer E networkId position defGlobalIndex = .ok s') :
    s'.localNetPlayer = s.localNetPlayer ∧
      ((newPlayer E s = none ∧ s'.players = s.players) ∨
        ((newPlayer E s).isSome = true ∧ s.localNetPlayer.isSome = true ∧
          s'.players = s.players ++ [(networkId, s.getFreeLocalId)])) := by
  have hcases := createNetPlayer_cases h
  refine ⟨hcases.1, ?_⟩
  rcases hcases.2.2 with ⟨hnone, hsame⟩ | ⟨player, hplayer, _, hlocal, hadded⟩
  · exact Or.inl ⟨hnone, by simp [players, hcases.1, hsame]⟩
  · exact Or.inr ⟨by simp [hplayer], hlocal, by simp [players, hcases.1, hadded, NetPlayer.ids]⟩

theorem Placed.createNetPlayer (hs : Placed s) {networkId defGlobalIndex : Int32}
    {position : Vec3} (h : s.createNetPlayer E networkId position defGlobalIndex = .ok s') :
    Placed s' := by
  rcases players_createNetPlayer h with ⟨hlocal, ⟨_, hsame⟩ | ⟨_, hsome, hadded⟩⟩
  · refine ⟨hsame ▸ hs.nonneg, ?_⟩
    intro hne
    rw [hlocal]
    apply hs.started
    intro hnil
    have hplayers : s'.netPlayers.map NetPlayer.ids = s.netPlayers.map NetPlayer.ids := by
      simpa [players, hlocal] using hsame
    rw [hnil] at hplayers
    exact hne (List.map_eq_nil_iff.1 hplayers)
  · refine ⟨?_, fun _ => hlocal ▸ hsome⟩
    intro player hmem
    rw [hadded] at hmem
    rcases List.mem_append.1 hmem with hold | hnew
    · exact hs.nonneg player hold
    · rw [List.mem_singleton.1 hnew]
      exact s.getFreeLocalId_nonneg

/-- The test of the roster path: an id without a player. -/
theorem not_mem_networkIds (hs : Placed s) {localNetPlayer : LocalNetPlayer}
    (hlocal : s.localNetPlayer = some localNetPlayer) {networkId : Int32}
    (hne : networkId ≠ localNetPlayer.networkId)
    (hfree : s.getLocalIdFromNetworkId networkId = -1) : networkId ∉ s.networkIds := by
  intro hmem
  rw [networkIds_eq, hlocal] at hmem
  rcases List.mem_cons.1 hmem with heq | hnet
  · exact hne heq
  · rcases List.mem_map.1 hnet with ⟨held, hheld, hid⟩
    cases hfind : s.netPlayers.find? fun netPlayer => netPlayer.networkId == networkId with
    | none =>
      have hno := List.find?_eq_none.1 hfind held hheld
      simp [hid] at hno
    | some found =>
      -- The player found has a local id of its own, which is not `-1`.
      have hfound := List.mem_of_find?_eq_some hfind
      have hnonneg := hs.nonneg found.ids
        (List.mem_append_right _ (List.mem_map_of_mem hfound))
      have hlookup : s.getLocalIdFromNetworkId networkId = found.localId := by
        simp [getLocalIdFromNetworkId, hlocal, Ne.symm hne, hfind]
      have hneg : found.localId = -1 := hlookup.symm.trans hfree
      simp [NetPlayer.ids, hneg] at hnonneg

theorem createNetPlayers_keeps (hs : Placed s) {networkId defGlobalIndex : Int32}
    {position : Vec3} (h : s.createNetPlayers E networkId position defGlobalIndex = .ok s') :
    Placed s' ∧ (s.networkIds.Nodup → s'.networkIds.Nodup) := by
  rcases createNetPlayers_spec h with ⟨localNetPlayer, hlocal, ⟨hne, hunknown, hcreated⟩ | ⟨_, rfl⟩⟩
  · refine ⟨hs.createNetPlayer hcreated, ?_⟩
    intro hnodup
    have hfree := not_mem_networkIds hs hlocal hne hunknown
    rcases players_createNetPlayer hcreated with ⟨_, ⟨_, hsame⟩ | ⟨_, _, hadded⟩⟩
    · simpa [networkIds, hsame] using hnodup
    · have hids : s'.networkIds = s.networkIds ++ [networkId] := by
        simp [networkIds, hadded]
      rw [hids]
      simpa using List.Nodup.concat hfree hnodup
  · exact ⟨hs, id⟩

theorem createNetPlayersLoop_keeps {count : Nat} {bs : BitStream} (hs : Placed s)
    (h : createNetPlayersLoop E count bs s = .ok s') :
    Placed s' ∧ (s.networkIds.Nodup → s'.networkIds.Nodup) := by
  have hkeeps := createNetPlayersLoop_rel
    (R := fun s s' => Placed s → Placed s' ∧ (s.networkIds.Nodup → s'.networkIds.Nodup))
    (fun _ hs => ⟨hs, id⟩)
    (fun h h' hs => ⟨(h' (h hs).1).1, fun hnodup => (h' (h hs).1).2 ((h hs).2 hnodup)⟩)
    (fun hcreated hs => createNetPlayers_keeps hs hcreated) h
  exact hkeeps hs

theorem Placed.createLocalNetPlayer (hs : Placed s) (networkId : Int32) (position : Vec3) :
    Placed (s.createLocalNetPlayer E networkId position) := by
  rcases createLocalNetPlayer_cases E s networkId position with ⟨_, hsame⟩ | ⟨_, hset, _⟩
  · rw [hsame]
    exact hs
  · have hlocal := hset.localNetPlayer
    have hnet := hset.netPlayers
    refine ⟨?_, fun _ => by rw [hlocal]; rfl⟩
    intro player hmem
    rw [players, hlocal, hnet] at hmem
    rcases List.mem_cons.1 hmem with hself | hothers
    · rw [hself]
      exact s.getFreeLocalId_nonneg
    · exact hs.nonneg player (List.mem_append_right _ hothers)

end Created

/-! ## When the property holds -/

/-- The event creates a player under an id that a player other than itself already has: an
`ID_CREATE_NET_PLAYER` for which the game supplies a player, or an `ID_CREATE_LOCAL_NET_PLAYER`
for which it has a creature. -/
def Collides (E : Engine σ) (s : Session σ) : SessionEvent σ → Prop
  | .packet packet _ =>
      s.network.active = true ∧
        ((packet.kind = .createNetPlayer ∧ (createdEntry E s packet).1 ∈ s.networkIds ∧
            (newPlayer E s).isSome = true) ∨
          (packet.kind = .createLocalNetPlayer ∧
            (readCreateLocalNetPlayer (payload packet)).1 ∈
              s.netPlayers.map NetPlayer.networkId ∧
            (s.getCreatureFromLocalId E s.getFreeLocalId).isSome = true))
  | _ => False

section Runs

variable {E : Engine σ} {s s' : Session σ}

theorem Placed.congr {s₀ : Session σ} (hs : Placed s)
    (hlocal : s₀.localNetPlayer = s.localNetPlayer) (hnet : s₀.netPlayers = s.netPlayers) :
    Placed s₀ := by
  refine ⟨?_, ?_⟩
  · rw [players, hlocal, hnet]
    exact hs.nonneg
  · rw [hlocal, hnet]
    exact hs.started

theorem Placed.step {event : SessionEvent σ} (hs : Placed s) (h : s.step E event = .ok s') :
    Placed s' := by
  cases step_change h with
  | fewer hfewer => exact hfewer.placed hs
  | createNetPlayer _ _ hcreated => exact hs.createNetPlayer hcreated
  | createNetPlayers hloop => exact (createNetPlayersLoop_keeps hs hloop).1
  | createLocalNetPlayer _ _ _ hlocal hnet =>
    exact (hs.congr hlocal hnet).createLocalNetPlayer _ _

/-- A step that does not collide keeps the ids apart. -/
theorem nodup_step {event : SessionEvent σ} (hs : Placed s) (hnodup : s.networkIds.Nodup)
    (hfree : ¬ Collides E s event) (h : s.step E event = .ok s') : s'.networkIds.Nodup := by
  cases step_change h with
  | fewer hfewer => exact hfewer.nodup hnodup
  | createNetPlayer hactive hkind hcreated =>
    rcases players_createNetPlayer hcreated with ⟨_, ⟨_, hsame⟩ | ⟨hplayer, _, hadded⟩⟩
    · simpa [networkIds, hsame] using hnodup
    · have hnew := fun hmem => hfree ⟨hactive, Or.inl ⟨hkind, hmem, hplayer⟩⟩
      simpa [networkIds, hadded] using List.Nodup.concat hnew hnodup
  | createNetPlayers hloop => exact (createNetPlayersLoop_keeps hs hloop).2 hnodup
  | @createLocalNetPlayer packet _ s₀ hactive hkind hengine hlocal hnet =>
    -- `s₀` differs from `s` in `self` only, so the free local id is the same.
    have hstart : s₀.networkIds = s.networkIds := by
      rw [networkIds_eq, networkIds_eq, hlocal, hnet]
    rcases createLocalNetPlayer_cases E s₀ (readCreateLocalNetPlayer (payload packet)).1
      (readCreateLocalNetPlayer (payload packet)).2 with ⟨_, hsame⟩ | ⟨hcreature, hset, _⟩
    · rw [hsame, hstart]
      exact hnodup
    · have hids : s₀.localIds = s.localIds := by simp only [localIds, hlocal, hnet]
      have hsame : s₀.getFreeLocalId = s.getFreeLocalId := by
        unfold getFreeLocalId
        rw [hids]
      have hnew : (readCreateLocalNetPlayer (payload packet)).1 ∉
          s.netPlayers.map NetPlayer.networkId := by
        intro hmem
        refine hfree ⟨hactive, Or.inr ⟨hkind, hmem, ?_⟩⟩
        rw [← hsame]
        simpa only [getCreatureFromLocalId, hengine] using hcreature
      rw [networkIds_eq, hset.localNetPlayer, hset.netPlayers, hnet]
      rw [networkIds_eq, List.nodup_append] at hnodup
      exact List.nodup_cons.2 ⟨hnew, hnodup.2.1⟩

/-- A step that collides returns, and two players share an id from then on. -/
theorem collides_step {event : SessionEvent σ} (hs : Placed s) (h : Collides E s event) :
    ∃ s', s.step E event = .ok s' ∧ ¬ s'.networkIds.Nodup := by
  cases event with
  | packet packet rounds =>
    rcases h with ⟨hactive, ⟨hkind, hmem, hplayer⟩ | ⟨hkind, hmem, hcreature⟩⟩
    · -- Some player has the id, so there is a local player and the creation returns.
      have hlocal : s.localNetPlayer.isSome = true := by
        cases hcase : s.localNetPlayer with
        | some localNetPlayer => rfl
        | none =>
          have hne : s.netPlayers ≠ [] := by
            intro hnil
            simp [networkIds, players, hcase, hnil] at hmem
          simpa [hcase] using hs.started hne
      rcases createNetPlayer_ok E hlocal (createdEntry E s packet).1
        (createdEntry E s packet).2.2 (createdEntry E s packet).2.1 with ⟨s', hcreated⟩
      refine ⟨s', ?_, ?_⟩
      · exact (step_createNetPlayer E rounds hactive hkind).trans hcreated
      · rcases players_createNetPlayer hcreated with ⟨_, ⟨hnone, _⟩ | ⟨_, _, hadded⟩⟩
        · simp [hnone] at hplayer
        · intro hnodup
          have hids : s'.networkIds = s.networkIds ++ [(createdEntry E s packet).1] := by
            simp [networkIds, hadded]
          rw [hids, List.nodup_append] at hnodup
          exact hnodup.2.2 _ hmem _ (List.mem_singleton_self _) rfl
    · -- The local player takes the id of a net player.
      refine ⟨s.handleCreateLocalNetPlayer E packet, ?_, ?_⟩
      · simp [step, update, hactive, hkind]
      · simp only [handleCreateLocalNetPlayer]
        generalize hstart : (Session.mk _ _ _ _ _ _ _ _ : Session σ) = s₀
        have hsame : s₀.getFreeLocalId = s.getFreeLocalId := by
          rw [← hstart]
          rfl
        have hnet : s₀.netPlayers = s.netPlayers := by
          rw [← hstart]
        have hengine : s₀.engine = s.engine := by
          rw [← hstart]
        rcases createLocalNetPlayer_cases E s₀ (readCreateLocalNetPlayer (payload packet)).1
          (readCreateLocalNetPlayer (payload packet)).2 with ⟨hnone, _⟩ | ⟨_, hset, _⟩
        · rw [hsame] at hnone
          simp only [getCreatureFromLocalId, hengine] at hnone hcreature
          rw [hnone] at hcreature
          cases hcreature
        · intro hnodup
          rw [networkIds_eq, hset.localNetPlayer, hset.netPlayers, hnet] at hnodup
          exact (List.nodup_cons.1 hnodup).1 hmem
  | _ => exact h.elim

/-- A session has at most its own player when it opens. -/
theorem opened_players (E : Engine σ) (process : Process σ) (opening : Opening) :
    Placed (opened E process opening) ∧ (opened E process opening).netPlayers = [] := by
  -- What `made` returns, and what a start that fails leaves of it.
  have hempty : ∀ s₀ : Session σ, s₀.localNetPlayer = none → s₀.netPlayers = [] →
      Placed s₀ ∧ s₀.netPlayers = [] := by
    intro s₀ hlocal hnet
    refine ⟨⟨?_, fun hne => absurd hnet hne⟩, hnet⟩
    intro player hmem
    simp [players, hlocal, hnet] at hmem
  cases opening with
  | host port startup =>
    simp only [opened, host]
    split
    · exact hempty _ rfl rfl
    · split
      · exact hempty _ rfl rfl
      · generalize hstart : (Session.mk _ _ _ _ _ _ _ _ : Session σ) = s₀
        have hs₀ : Placed s₀ ∧ s₀.netPlayers = [] := by
          rw [← hstart]
          exact hempty _ rfl rfl
        refine ⟨hs₀.1.createLocalNetPlayer _ _, ?_⟩
        generalize readCreateLocalNetPlayer _ = fields
        rcases createLocalNetPlayer_cases E s₀ fields.1 fields.2 with ⟨_, hsame⟩ | ⟨_, hset, _⟩
        · rw [hsame]
          exact hs₀.2
        · exact hset.netPlayers.trans hs₀.2
  | connect ip port startup connected =>
    simp only [opened, connect]
    split
    · exact hempty _ rfl rfl
    · split <;> exact hempty _ rfl rfl

theorem nodup_opened (E : Engine σ) (process : Process σ) (opening : Opening) :
    (opened E process opening).networkIds.Nodup := by
  rw [networkIds_eq, (opened_players E process opening).2]
  cases (opened E process opening).localNetPlayer <;> simp

/-- In a session of the mod, as host or as client, no two players ever share a network id exactly
when no message creates a player under an id that another one has. -/
theorem one_avatar_per_id_iff (E : Engine σ) (process : Process σ) (opening : Opening)
    (events : List (SessionEvent σ)) :
    Fallible.StatesSatisfy (step E) OneAvatarPerId (opened E process opening) events ↔
      Fallible.StepsSatisfy (step E) (fun s event => ¬ Collides E s event)
        (opened E process opening) events := by
  have hplaced := (opened_players E process opening).1
  have hstart := (oneAvatarPerId_iff _).2 (nodup_opened E process opening)
  refine Fallible.statesSatisfy_iff hstart hplaced ?_ ?_ ?_
  · intro s event s' hs hstep
    exact hs.step hstep
  · intro s event s' hs havatars hfree hstep
    rw [oneAvatarPerId_iff] at havatars ⊢
    exact nodup_step hs havatars hfree hstep
  · intro s event hs _ hcollides
    rcases collides_step hs (not_not.1 hcollides) with ⟨s', hstep, hshared⟩
    exact ⟨s', hstep, fun havatars => hshared ((oneAvatarPerId_iff s').1 havatars)⟩

end Runs

/-! ### A host that is told twice -/

/-- The address `SystemAddress(ip, port)` of the examples. -/
def exampleAddress (_ip : String) (port : UInt16) : SystemAddress :=
  { ip := 0x0100007F, port := port }

/-- The announcement of player 1, from its client. -/
def repeatedPacket : Packet where
  systemAddress := exampleAddress "" 50001
  guid := 1
  data := (createNetPlayerMessage 1 2000 {}).data
  nonempty := by decide

/-- A packet from the client at a port. -/
def clientPacket (port : UInt16) (id : UInt8) (fields : List UInt8) : Packet where
  systemAddress := exampleAddress "" port
  guid := 1
  data := id :: fields
  nonempty := List.cons_ne_nil id fields

/-- Two clients join a host and announce their players. -/
def arrivals : List (SessionEvent σ) :=
  [.packet (clientPacket 50001 idConnectionNotification []) 0,
    .packet (clientPacket 50001 idCreateNetPlayer
      (encode (1 : Int32) ++ encode (2000 : Int32) ++ encode ({} : Vec3))) 0,
    .packet (clientPacket 50002 idConnectionNotification []) 0,
    .packet (clientPacket 50002 idCreateNetPlayer
      (encode (2 : Int32) ++ encode (2001 : Int32) ++ encode ({} : Vec3))) 0]

/-- The connection of the first one is lost. -/
def departure : SessionEvent σ :=
  .packet (clientPacket 50001 22 []) 0

/-- A game in which only the host's own hero exists. -/
def hostProcess : Process Engine.Table where
  engine := [(0, 1000)]
  boundAddress := exampleAddress "" 60000

/-- A host processes the same announcement twice: the second one adds a second avatar for
player 1. -/
theorem repeated_announcement_doubles :
    ¬ ∀ (E : Engine Engine.Table) (process : Process Engine.Table) (opening : Opening)
        (events : List (SessionEvent Engine.Table)),
        Fallible.StatesSatisfy (step E) OneAvatarPerId (opened E process opening) events := by
  intro hall
  let E := Engine.table exampleAddress
  let s₀ := opened E hostProcess (.host 60000 true)
  let again : SessionEvent Engine.Table := .packet repeatedPacket 0
  have hstates := hall E hostProcess (.host 60000 true) [again, again]
  have hentry : ∀ s, createdEntry E s repeatedPacket = (1, 2000, {}) := fun _ => rfl
  have hplayer : ∀ s, (newPlayer E s).isSome = true := by
    intro s
    simp [newPlayer, E, Engine.table, s.getFreeLocalId_nonneg]
  have hlocal : s₀.localNetPlayer.isSome = true := rfl
  rcases createNetPlayer_ok E hlocal 1 {} 2000 with ⟨s₁, hcreated⟩
  have hkind : repeatedPacket.kind = .createNetPlayer := by decide
  have hactive₀ : s₀.network.active = true := rfl
  have hfirst : step E s₀ again = .ok s₁ := by
    have hstep := step_createNetPlayer E 0 hactive₀ hkind
    rw [hentry] at hstep
    exact hstep.trans hcreated
  -- The first announcement is player 1's; the id is taken when the second one arrives.
  have hplaced : Placed s₁ := (opened_players E hostProcess (.host 60000 true)).1.step hfirst
  have hactive : s₁.network.active = true := by
    rw [(createNetPlayer_cases hcreated).2.1]
    exact hactive₀
  have htaken : 1 ∈ s₁.networkIds := by
    rcases players_createNetPlayer hcreated with ⟨_, ⟨hnone, _⟩ | ⟨_, _, hadded⟩⟩
    · have hplayer := hplayer s₀
      simp [hnone] at hplayer
    · simp [networkIds, hadded]
  have hcollides : Collides E s₁ again := by
    refine ⟨hactive, Or.inl ⟨hkind, ?_, hplayer s₁⟩⟩
    rw [hentry]
    exact htaken
  rcases collides_step hplaced hcollides with ⟨s₂, hsecond, hshared⟩
  have hrun : run E s₀ [again, again] = .ok s₂ := by
    rw [run, Fallible.run_cons_of_ok _ hfirst, Fallible.run_cons_of_ok _ hsecond]
    rfl
  exact hshared ((oneAvatarPerId_iff s₂).1 (hstates [again, again] [] rfl s₂ hrun))

end Session
end Mod
end Crossover
