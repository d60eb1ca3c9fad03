import Crossover.Mod.Avatars

/-!
# Emptying — when the loop of `DestroyNetPlayers` ends

The loop destroys the front of the vector until the vector is empty.  A round that finds no player
or no creature returns early and changes nothing, so that the next round does the same.  `emptied`
plays the loop on the game alone: it is the game after the last round, or `none` when a round finds
nothing to destroy.
-/

namespace Crossover
namespace Mod

open Wire

/-- The player of a local id, if the game has a creature for it. -/
def playerWithCreature {σ : Type} (E : Engine σ) (engine : σ) (localId : Int) :
    Option PlayerPtr :=
  match E.getPlayer engine localId with
  | none => none
  | some player =>
      match E.getPControlledCreature engine player with
      | none => none
      | some _ => some player

/-- The local id that `DestroyNetPlayer` finds for the front of the vector: the local player's when
it has the same network id. -/
def frontLocalId (localNetPlayer : LocalNetPlayer) (front : NetPlayer) : Int :=
  if localNetPlayer.networkId = front.networkId then localNetPlayer.localId else front.localId

/-- The game after its players have been destroyed in order, if each of them is there in its
turn. -/
def emptied {σ : Type} (E : Engine σ) (localNetPlayer : LocalNetPlayer) :
    List NetPlayer → σ → Option σ
  | [], engine => some engine
  | front :: rest, engine =>
      match playerWithCreature E engine (frontLocalId localNetPlayer front) with
      | none => none
      | some player =>
          emptied E localNetPlayer rest (E.uninitialise (E.uninitCharacter engine player) player)

/-- The map without the entries under any of the keys. -/
def CallbackMap.eraseAll {α : Type} (keys : List String) (callbacks : CallbackMap α) :
    CallbackMap α :=
  keys.foldl (fun callbacks key => callbacks.erase key) callbacks

namespace Session

variable {σ : Type}

/-- Each net player has a player with a creature when its turn comes. -/
def EachStands (E : Engine σ) (s : Session σ) : Prop :=
  ∀ localNetPlayer, s.localNetPlayer = some localNetPlayer →
    (emptied E localNetPlayer s.netPlayers s.engine).isSome = true

/-- The loop of `DestroyNetPlayers` ends, with no net player left. -/
def Empties (E : Engine σ) (s : Session σ) : Prop :=
  ∃ rounds s', destroyNetPlayers E rounds s = .ok s' ∧ s'.netPlayers = []

/-! ## One call of `DestroyNetPlayer` -/

section Call

variable {E : Engine σ} {s : Session σ}

theorem playerWithCreature_isSome (E : Engine σ) (s : Session σ) (localId : Int) :
    (playerWithCreature E s.engine localId).isSome =
      (s.getCreatureFromLocalId E localId).isSome := by
  unfold playerWithCreature getCreatureFromLocalId
  cases E.getPlayer s.engine localId with
  | none => rfl
  | some player => cases hcreature : E.getPControlledCreature s.engine player <;> simp [hcreature]

theorem getPlayer_of_playerWithCreature {localId : Int} {player : PlayerPtr}
    (h : playerWithCreature E s.engine localId = some player) :
    E.getPlayer s.engine localId = some player := by
  unfold playerWithCreature at h
  cases hplayer : E.getPlayer s.engine localId with
  | none => simp [hplayer] at h
  | some found =>
    cases hcreature : E.getPControlledCreature s.engine found with
    | none => simp [hplayer, hcreature] at h
    | some creature => simpa [hplayer, hcreature] using h

/-- The early returns. -/
theorem destroyNetPlayer_absent {networkId : Int32}
    (h : playerWithCreature E s.engine (s.getLocalIdFromNetworkId networkId) = none) :
    s.destroyNetPlayer E networkId = .ok s := by
  unfold playerWithCreature at h
  unfold destroyNetPlayer
  cases hplayer : E.getPlayer s.engine (s.getLocalIdFromNetworkId networkId) with
  | none => rfl
  | some player =>
    cases hcreature : E.getPControlledCreature s.engine player with
    | none => simp [hcreature]
    | some creature => simp [hplayer, hcreature] at h

/-- The session behind a removal, before the host tells anybody. -/
def withoutPlayer (E : Engine σ) (s : Session σ) (networkId : Int32) (player : PlayerPtr) :
    Session σ :=
  { s.removeCallbacks networkId with
    engine := engineWithout E s player
    netPlayers := eraseNetPlayer networkId s.netPlayers }

/-- The removal itself. -/
theorem destroyNetPlayer_present {networkId : Int32} {player : PlayerPtr}
    (hlocal : s.localNetPlayer.isSome = true)
    (h : playerWithCreature E s.engine (s.getLocalIdFromNetworkId networkId) = some player) :
    ∃ s', s.destroyNetPlayer E networkId = .ok s' ∧
      Spoke (withoutPlayer E s networkId player) s' := by
  rcases Option.isSome_iff_exists.1 hlocal with ⟨localNetPlayer, hsome⟩
  unfold playerWithCreature at h
  cases hplayer : E.getPlayer s.engine (s.getLocalIdFromNetworkId networkId) with
  | none => simp [hplayer] at h
  | some found =>
    cases hcreature : E.getPControlledCreature s.engine found with
    | none => simp [hplayer, hcreature] at h
    | some creature =>
      have heq : found = player := by simpa [hplayer, hcreature] using h
      subst heq
      -- The test for the host comes behind the removal.
      have hlocal' : (withoutPlayer E s networkId found).localNetPlayer = some localNetPlayer :=
        hsome
      have hcall : s.destroyNetPlayer E networkId =
          if localNetPlayer.networkId = 0 then
            .ok ((withoutPlayer E s networkId found).broadcastDestroyNetPlayer networkId)
          else .ok (withoutPlayer E s networkId found) := by
        unfold destroyNetPlayer
        simp only [hplayer, hcreature]
        split
        · rename_i hnone
          cases hlocal'.symm.trans hnone
        · rename_i l hl
          cases hlocal'.symm.trans hl
          rfl
      rw [hcall]
      split
      · exact ⟨_, rfl, spoke_sendToAllClientsExcept _ _ _ _⟩
      · exact ⟨_, rfl, Spoke.refl _⟩

/-- Without a local player the removal follows a null pointer. -/
theorem destroyNetPlayer_null {networkId : Int32} {player : PlayerPtr}
    (hlocal : s.localNetPlayer = none)
    (h : playerWithCreature E s.engine (s.getLocalIdFromNetworkId networkId) = some player) :
    s.destroyNetPlayer E networkId = .error .nullLocalNetPlayer := by
  unfold playerWithCreature at h
  unfold destroyNetPlayer
  cases hplayer : E.getPlayer s.engine (s.getLocalIdFromNetworkId networkId) with
  | none => simp [hplayer] at h
  | some found =>
    cases hcreature : E.getPControlledCreature s.engine found with
    | none => simp [hplayer, hcreature] at h
    | some creature => simp [hcreature, removeCallbacks, hlocal]

/-- A `DestroyNetPlayer` that returns has done nothing or all of it. -/
theorem destroyNetPlayer_shape {s' : Session σ} {networkId : Int32}
    (h : s.destroyNetPlayer E networkId = .ok s') :
    playerWithCreature E s.engine (s.getLocalIdFromNetworkId networkId) = none ∧ s = s' ∨
      ∃ player,
        playerWithCreature E s.engine (s.getLocalIdFromNetworkId networkId) = some player ∧
          Spoke (withoutPlayer E s networkId player) s' := by
  cases hfound : playerWithCreature E s.engine (s.getLocalIdFromNetworkId networkId) with
  | none =>
    rw [destroyNetPlayer_absent hfound] at h
    exact Or.inl ⟨rfl, Except.ok.inj h⟩
  | some player =>
    cases hlocal : s.localNetPlayer with
    -- A removal that returns had a local player to look at.
    | none =>
      have hfault := destroyNetPlayer_null hlocal hfound
      rw [hfault] at h
      cases h
    | some localNetPlayer =>
      rcases destroyNetPlayer_present (by simp [hlocal]) hfound with ⟨s'', hcall, hspoke⟩
      obtain rfl := Except.ok.inj (hcall.symm.trans h)
      exact Or.inr ⟨player, rfl, hspoke⟩

end Call

/-! ## The loop -/

section Loop

variable {E : Engine σ} {s : Session σ} {localNetPlayer : LocalNetPlayer}

/-- The front is the first entry with its own id. -/
theorem getLocalIdFromNetworkId_front {front : NetPlayer} {rest : List NetPlayer}
    (hlocal : s.localNetPlayer = some localNetPlayer) (hlist : s.netPlayers = front :: rest) :
    s.getLocalIdFromNetworkId front.networkId = frontLocalId localNetPlayer front := by
  simp [getLocalIdFromNetworkId, frontLocalId, hlocal, hlist]

theorem eraseNetPlayer_front (front : NetPlayer) (rest : List NetPlayer) :
    eraseNetPlayer front.networkId (front :: rest) = rest := by
  simp [eraseNetPlayer]

/-- The session after the loop, but for what the host has told the others: the closures of the net
players are gone and so is the game's part of them. -/
def emptiedTo (s : Session σ) (engine : σ) : Session σ :=
  { s with
    engine := engine
    netPlayers := []
    resolveMovementAccelerationCallbacks :=
      s.resolveMovementAccelerationCallbacks.eraseAll
        (s.netPlayers.map fun netPlayer => movementKey netPlayer.networkId)
    resolveFacingDirectionCallbacks :=
      s.resolveFacingDirectionCallbacks.eraseAll
        (s.netPlayers.map fun netPlayer => facingKey netPlayer.networkId) }

/-- With every player in place the loop ends. -/
theorem destroyNetPlayers_of_emptied {engine : σ} {rounds : Nat}
    (hlocal : s.localNetPlayer = some localNetPlayer) (hrounds : s.netPlayers.length ≤ rounds)
    (h : emptied E localNetPlayer s.netPlayers s.engine = some engine) :
    ∃ s', destroyNetPlayers E rounds s = .ok s' ∧
      Spoke (s.emptiedTo engine) s' := by
  generalize hlist : s.netPlayers = netPlayers at h hrounds
  -- Each round takes the front away, so the induction is on the vector.
  induction netPlayers generalizing s rounds with
  | nil =>
    have hsame : s.engine = engine := by simpa [emptied] using h
    refine ⟨s, destroyNetPlayers_nil E hlist rounds, [], ?_⟩
    rcases s with ⟨⟩
    cases hlist
    cases hsame
    simp [emptiedTo, CallbackMap.eraseAll]
  | cons front rest ih =>
    cases rounds with
    | zero => simp at hrounds
    | succ rounds =>
      have hfront := getLocalIdFromNetworkId_front hlocal hlist
      cases hplayer : playerWithCreature E s.engine (frontLocalId localNetPlayer front) with
      | none => simp [emptied, hplayer] at h
      | some player =>
        rcases destroyNetPlayer_present (by simp [hlocal]) (hfront ▸ hplayer) with
          ⟨s₁, hcall, sent, hs₁⟩
        have hrest : emptied E localNetPlayer rest s₁.engine = some engine := by
          rw [hs₁]
          simpa [emptied, hplayer, withoutPlayer, engineWithout] using h
        have hlocal₁ : s₁.localNetPlayer = some localNetPlayer := by
          rw [hs₁]
          exact hlocal
        have hlist₁ : s₁.netPlayers = rest := by
          rw [hs₁]
          simp [withoutPlayer, hlist, eraseNetPlayer_front]
        -- The rest of the vector is emptied in the game that this round leaves.
        rcases ih hlocal₁ hlist₁ hrest (Nat.le_of_succ_le_succ hrounds) with
          ⟨s', hloop, more, hs'⟩
        refine ⟨s', ?_, sent ++ more, ?_⟩
        · rw [destroyNetPlayers_succ E hlist, hcall]
          exact hloop
        · -- What the calls of the two parts take out of the maps adds up.
          rw [hs', hs₁]
          simp [emptiedTo, withoutPlayer, removeCallbacks, CallbackMap.eraseAll, hlist,
            eraseNetPlayer_front]

/-- A loop that has ended does not depend on the bound. -/
theorem destroyNetPlayers_mono {s' : Session σ} {rounds rounds' : Nat}
    (h : destroyNetPlayers E rounds s = .ok s') (hle : rounds ≤ rounds') :
    destroyNetPlayers E rounds' s = .ok s' := by
  induction rounds generalizing s rounds' with
  | zero =>
    cases hlist : s.netPlayers with
    | nil =>
      rw [destroyNetPlayers_nil E hlist] at h ⊢
      exact h
    | cons front rest =>
      rw [destroyNetPlayers_zero E hlist] at h
      cases h
  | succ rounds ih =>
    cases rounds' with
    | zero => simp at hle
    | succ rounds' =>
      cases hlist : s.netPlayers with
      | nil =>
        rw [destroyNetPlayers_nil E hlist] at h ⊢
        exact h
      | cons front rest =>
        rw [destroyNetPlayers_succ E hlist] at h ⊢
        cases hcall : s.destroyNetPlayer E front.networkId with
        | error fault => simp [hcall] at h
        | ok s₁ =>
          simp only [hcall] at h ⊢
          exact ih h (Nat.le_of_succ_le_succ hle)

/-- A round that finds nothing to destroy is repeated for ever. -/
theorem destroyNetPlayers_of_stuck (hlocal : s.localNetPlayer = some localNetPlayer)
    (h : emptied E localNetPlayer s.netPlayers s.engine = none) (rounds : Nat) :
    destroyNetPlayers E rounds s = .error .unfinished := by
  induction rounds generalizing s with
  | zero =>
    cases hlist : s.netPlayers with
    | nil => simp [hlist, emptied] at h
    | cons front rest => exact destroyNetPlayers_zero E hlist
  | succ rounds ih =>
    cases hlist : s.netPlayers with
    | nil => simp [hlist, emptied] at h
    | cons front rest =>
      have hfront := getLocalIdFromNetworkId_front hlocal hlist
      have hround : ∃ s₁, s.destroyNetPlayer E front.networkId = .ok s₁ ∧
          s₁.localNetPlayer = some localNetPlayer ∧
          emptied E localNetPlayer s₁.netPlayers s₁.engine = none := by
        cases hplayer : playerWithCreature E s.engine (frontLocalId localNetPlayer front) with
        | none =>
          -- The early return: the next round starts where this one has started.
          exact ⟨s, destroyNetPlayer_absent (hfront ▸ hplayer), hlocal, h⟩
        | some player =>
          -- This round makes progress; a later one is stuck.
          rcases destroyNetPlayer_present (by simp [hlocal]) (hfront ▸ hplayer) with
            ⟨s₁, hcall, sent, hs₁⟩
          refine ⟨s₁, hcall, ?_, ?_⟩
          · rw [hs₁]
            exact hlocal
          · rw [hs₁]
            simpa [emptied, hplayer, hlist, withoutPlayer, engineWithout, eraseNetPlayer_front]
              using h
      rcases hround with ⟨s₁, hcall, hlocal₁, hstuck⟩
      rw [destroyNetPlayers_succ E hlist, hcall]
      exact ih hlocal₁ hstuck

/-- What a loop that has ended leaves. -/
theorem emptied_of_ok {s' : Session σ} {rounds : Nat}
    (hlocal : s.localNetPlayer = some localNetPlayer)
    (h : destroyNetPlayers E rounds s = .ok s') :
    ∃ engine, emptied E localNetPlayer s.netPlayers s.engine = some engine ∧
      Spoke (s.emptiedTo engine) s' := by
  cases hemptied : emptied E localNetPlayer s.netPlayers s.engine with
  | none =>
    rw [destroyNetPlayers_of_stuck hlocal hemptied rounds] at h
    cases h
  | some engine =>
    -- Both loops get rounds enough for either.
    have hmore := destroyNetPlayers_mono h (Nat.le_max_left rounds s.netPlayers.length)
    rcases destroyNetPlayers_of_emptied hlocal (Nat.le_max_right rounds s.netPlayers.length)
      hemptied with ⟨s'', hloop, hspoke⟩
    cases hloop.symm.trans hmore
    exact ⟨engine, rfl, hspoke⟩

/-- Each round takes at most one player away. -/
theorem length_le_of_ok {s' : Session σ} {rounds : Nat}
    (h : destroyNetPlayers E rounds s = .ok s') : s.netPlayers.length ≤ rounds := by
  induction rounds generalizing s with
  | zero =>
    cases hlist : s.netPlayers with
    | nil => simp
    | cons front rest =>
      rw [destroyNetPlayers_zero E hlist] at h
      cases h
  | succ rounds ih =>
    cases hlist : s.netPlayers with
    | nil => simp
    | cons front rest =>
      rw [destroyNetPlayers_succ E hlist] at h
      cases hcall : s.destroyNetPlayer E front.networkId with
      | error fault => simp [hcall] at h
      | ok s₁ =>
        simp only [hcall] at h
        have hrest := ih h
        -- A round that has done nothing has used up a round as well.
        rcases destroyNetPlayer_cases hcall with ⟨_, hsame⟩ | ⟨_, _, _, _, herased, _⟩
        · rw [hsame, hlist] at hrest
          exact Nat.le_succ_of_le hrest
        · rw [herased, hlist, eraseNetPlayer_front] at hrest
          exact Nat.succ_le_succ hrest

/-- `DestroyNetPlayers` ends, with the vector empty, exactly when in each round the front of the
vector still has a player with a creature. -/
theorem empties_iff_eachStands (E : Engine σ) (process : Process σ) (opening : Opening)
    (events : List (SessionEvent σ)) (s : Session σ)
    (hrun : run E (opened E process opening) events = .ok s) (engine : σ) :
    Empties E { s with engine := engine } ↔ EachStands E { s with engine := engine } := by
  have hplaced : Placed s :=
    Fallible.run_invariant (opened_players E process opening).1
      (fun _ _ _ hs hstep => hs.step hstep) hrun
  generalize hat : { s with engine := engine } = at_
  have hplaced' : Placed at_ := by
    rw [← hat]
    exact hplaced.congr rfl rfl
  cases hlocal : at_.localNetPlayer with
  | none =>
    -- Without a local player there is no net player either.
    have hnil := hplaced'.netPlayers_nil hlocal
    refine ⟨fun _ => ?_, fun _ => ⟨0, at_, destroyNetPlayers_nil E hnil 0, hnil⟩⟩
    intro localNetPlayer hsome
    cases hlocal.symm.trans hsome
  | some localNetPlayer =>
    -- With a local player the loop depends on the game alone.
    constructor
    · rintro ⟨rounds, s', hloop, _⟩ l hl
      cases hlocal.symm.trans hl
      cases hemptied : emptied E localNetPlayer at_.netPlayers at_.engine with
      | none =>
        rw [destroyNetPlayers_of_stuck hlocal hemptied] at hloop
        cases hloop
      | some engine => rfl
    · intro hstands
      rcases Option.isSome_iff_exists.1 (hstands localNetPlayer hlocal) with ⟨last, hlast⟩
      rcases destroyNetPlayers_of_emptied hlocal (Nat.le_refl _) hlast with ⟨s', hloop, sent, hs'⟩
      refine ⟨_, s', hloop, ?_⟩
      rw [hs']
      rfl

end Loop

/-! ### A creature that has gone -/

/-- The host of the examples. -/
def exampleHost : Session Engine.Table :=
  opened (Engine.table exampleAddress) hostProcess (.host 60000 true)

/-- The host after player 1 has announced itself. -/
def joinedHost : Session Engine.Table where
  engine := [(1, 2000), (0, 1000)]
  resolveMovementAccelerationCallbacks :=
    [(movementKey 0, .broadcast 0 0), (movementKey 1, .apply 1 1)]
  resolveFacingDirectionCallbacks :=
    [(facingKey 0, .broadcast 0 0), (facingKey 1, .apply 1 1)]
  network := exampleHost.network
  localNetPlayer := some { networkId := 0, localId := 0 }
  netPlayers := [{ networkId := 1, localId := 1 }]

theorem run_joinedHost :
    run (Engine.table exampleAddress) exampleHost [.packet repeatedPacket 0] = .ok joinedHost :=
  rfl

theorem empties_iff_eachStands_joined :
    Empties (Engine.table exampleAddress) joinedHost ↔
      EachStands (Engine.table exampleAddress) joinedHost :=
  empties_iff_eachStands (Engine.table exampleAddress) hostProcess (.host 60000 true)
    [.packet repeatedPacket 0] joinedHost run_joinedHost joinedHost.engine

/-- The game has lost player 1's creature when the host tears the session down: the loop never
ends. -/
theorem missing_creature_never_empties :
    ¬ ∀ (E : Engine Engine.Table) (process : Process Engine.Table) (opening : Opening)
        (events : List (SessionEvent Engine.Table)) (s : Session Engine.Table),
        run E (opened E process opening) events = .ok s →
          ∀ engine, Empties E { s with engine := engine } := by
  intro hall
  rcases hall (Engine.table exampleAddress) hostProcess (.host 60000 true)
    [.packet repeatedPacket 0] joinedHost run_joinedHost [(0, 1000)] with ⟨rounds, s', hloop, _⟩
  have hlocal : joinedHost.localNetPlayer = some { networkId := 0, localId := 0 } := rfl
  have hstuck := destroyNetPlayers_of_stuck (E := Engine.table exampleAddress)
    (s := { joinedHost with engine := [(0, 1000)] }) hlocal rfl rounds
  cases hstuck.symm.trans hloop

end Session
end Mod
end Crossover
