import Crossover.Mod.Effects
import Mathlib.Order.Bounds.Defs

/-!
# LocalIds — slots of players are not shared

The manager alone, called in any order with the game in whatever state it likes to be in at each
call.  A local id is in use while the local player or an entry of the vector has it.
-/

namespace Crossover
namespace Mod

open Wire

/-- The game with another `CPlayerManager::CreatePlayer` for the local ids `used`.  Where the choice
of `other` makes no difference, the function has not been called with one of them. -/
def Engine.recreating {σ : Type} (E : Engine σ) (used : List Int) (other : σ → Int → σ) :
    Engine σ :=
  { E with
    createPlayer := fun e localId => if localId ∈ used then other e localId
      else E.createPlayer e localId }

/-- A method of the manager with its arguments.  `DestroyNetPlayers` has the state that the game is
in at each round of the loop; a list that ends early leaves the call in the middle of its loop. -/
inductive ManagerMethod (σ : Type)
  | createLocalNetPlayer (networkId : Int32) (position : Vec3)
  | createNetPlayer (networkId : Int32) (position : Vec3) (defGlobalIndex : Int32)
  | createNetPlayers (networkId : Int32) (position : Vec3) (defGlobalIndex : Int32)
  | destroyNetPlayer (networkId : Int32)
  | destroyNetPlayers (rounds : List σ)
  | destroyLocalNetPlayer

/-- A call, with the state of the game at it. -/
structure ManagerCall (σ : Type) where
  engine : σ
  method : ManagerMethod σ

namespace Session

variable {σ : Type}

/-- The loop of `DestroyNetPlayers`, with the game in any state at each round. -/
def destroyRounds (E : Engine σ) : List σ → Session σ → Except Fault (Session σ)
  | [], s => .ok s
  | engine :: rounds, s =>
      match s.netPlayers with
      | [] => .ok s
      | front :: _ =>
          match { s with engine := engine }.destroyNetPlayer E front.networkId with
          | .error fault => .error fault
          | .ok s => destroyRounds E rounds s

def call (E : Engine σ) (s : Session σ) (call : ManagerCall σ) : Except Fault (Session σ) :=
  let s := { s with engine := call.engine }
  match call.method with
  | .createLocalNetPlayer networkId position =>
      .ok (s.createLocalNetPlayer E networkId position)
  | .createNetPlayer networkId position defGlobalIndex =>
      s.createNetPlayer E networkId position defGlobalIndex
  | .createNetPlayers networkId position defGlobalIndex =>
      s.createNetPlayers E networkId position defGlobalIndex
  | .destroyNetPlayer networkId => s.destroyNetPlayer E networkId
  | .destroyNetPlayers rounds => destroyRounds E rounds s
  | .destroyLocalNetPlayer => .ok (s.destroyLocalNetPlayer E)

/-- A new manager, whatever there is around it. -/
def newManager (around : Session σ) : Session σ :=
  { around with localNetPlayer := none, netPlayers := [] }

/-- Nobody shares a slot, `GetFreeLocalId` returns the least free one, and the next call, if it
creates a player at all, does so in a slot that is free. -/
structure SlotsUnshared (E : Engine σ) (s : Session σ) : Prop where
  distinct : s.localIds.Nodup
  returns : FirstFree.Finds (· ∈ s.localIds) (· + 1) 0 s.getFreeLocalId
  least : IsLeast {localId : Int | 0 ≤ localId ∧ localId ∉ s.localIds} s.getFreeLocalId
  bounded : s.getFreeLocalId ≤ s.localIds.length
  created : ∀ other next, s.call (E.recreating s.localIds other) next = s.call E next

/-! ## The free slot -/

section Free

variable (s : Session σ)

/-- Among as many slots as there are players, and one more, the first free one is returned. -/
theorem getFreeLocalId_spec :
    ∃ n ≤ s.localIds.length, s.getFreeLocalId = (n : Int) ∧ ∀ k < n, (k : Int) ∈ s.localIds := by
  rcases s.getFreeLocalId_returns.exists_iterate_le (localId_injective _) with
    ⟨n, hle, heq, hbelow⟩
  refine ⟨n, hle, ?_, ?_⟩
  · rw [heq, iterate_localId]
  · intro k hk
    have hused := hbelow k hk
    rwa [iterate_localId] at hused

theorem isLeast_getFreeLocalId :
    IsLeast {localId : Int | 0 ≤ localId ∧ localId ∉ s.localIds} s.getFreeLocalId := by
  refine ⟨⟨s.getFreeLocalId_nonneg, s.getFreeLocalId_not_mem⟩, ?_⟩
  rintro localId ⟨hnonneg, hfree⟩
  rcases s.getFreeLocalId_spec with ⟨n, _, heq, hbelow⟩
  by_contra hlt
  -- An id below the one that is returned has been tried.
  have hnat : ((localId.toNat : Nat) : Int) = localId := Int.toNat_of_nonneg hnonneg
  have hused := hbelow localId.toNat (by omega)
  rw [hnat] at hused
  exact hfree hused

theorem getFreeLocalId_le_length : s.getFreeLocalId ≤ s.localIds.length := by
  rcases s.getFreeLocalId_spec with ⟨n, hle, heq, _⟩
  rw [heq]
  exact Int.ofNat_le.2 hle

end Free

/-! ## `CreatePlayer` -/

section Creating

variable (E : Engine σ) (other : σ → Int → σ) (s : Session σ)

theorem createNetPlayer_recreating (networkId : Int32) (position : Vec3)
    (defGlobalIndex : Int32) :
    s.createNetPlayer (E.recreating s.localIds other) networkId position defGlobalIndex =
      s.createNetPlayer E networkId position defGlobalIndex := by
  -- The id that is passed on comes from `GetFreeLocalId`.
  have hfree : (E.recreating s.localIds other).createPlayer s.engine s.getFreeLocalId =
      E.createPlayer s.engine s.getFreeLocalId := if_neg s.getFreeLocalId_not_mem
  simp only [createNetPlayer, hfree]
  rfl

/-- The rounds of `DestroyNetPlayers` create nobody. -/
theorem destroyRounds_recreating (used : List Int) (rounds : List σ) :
    destroyRounds (E.recreating used other) rounds s = destroyRounds E rounds s := by
  induction rounds generalizing s with
  | nil => rfl
  | cons engine rounds ih =>
    -- `DestroyNetPlayer` does not call `CreatePlayer`.
    have hround : ∀ (t : Session σ) networkId,
        t.destroyNetPlayer (E.recreating used other) networkId =
          t.destroyNetPlayer E networkId := fun _ _ => rfl
    simp only [destroyRounds, hround, ih]

theorem call_recreating (next : ManagerCall σ) :
    s.call (E.recreating s.localIds other) next = s.call E next := by
  rcases next with ⟨engine, method⟩
  have hcreate := createNetPlayer_recreating E other { s with engine := engine }
  cases method with
  | createLocalNetPlayer networkId position => rfl
  | createNetPlayer networkId position defGlobalIndex =>
    exact hcreate networkId position defGlobalIndex
  | createNetPlayers networkId position defGlobalIndex =>
    have hcreated := hcreate networkId position defGlobalIndex
    simp only [call, createNetPlayers]
    split
    · rfl
    · split
      · exact hcreated
      · rfl
  | destroyNetPlayer networkId => rfl
  | destroyNetPlayers rounds =>
    exact destroyRounds_recreating E other { s with engine := engine } s.localIds rounds
  | destroyLocalNetPlayer => rfl

end Creating

/-! ## What a call does to the slots -/

theorem destroyRounds_cons (E : Engine σ) {s : Session σ} {front : NetPlayer}
    {rest : List NetPlayer} (h : s.netPlayers = front :: rest) (engine : σ) (rounds : List σ) :
    destroyRounds E (engine :: rounds) s =
      match { s with engine := engine }.destroyNetPlayer E front.networkId with
      | .error fault => .error fault
      | .ok s => destroyRounds E rounds s := by
  simp only [destroyRounds]
  split
  · rename_i hnil
    rw [h] at hnil
    cases hnil
  · rename_i hcons
    rw [h] at hcons
    cases hcons
    rfl

section Calls

variable {E : Engine σ} {s s' : Session σ}

/-- A round that returns erases an entry or does nothing. -/
theorem sublist_destroyNetPlayer {networkId : Int32}
    (h : s.destroyNetPlayer E networkId = .ok s') : s'.localIds.Sublist s.localIds := by
  rcases destroyNetPlayer_cases h with ⟨_, hsame⟩ | ⟨_, _, hlocal, _, herased, _⟩
  · rw [hsame]
  · rw [localIds, localIds, hlocal, herased]
    exact (List.Sublist.refl _).append (List.eraseP_sublist.map NetPlayer.localId)

theorem sublist_destroyRounds {rounds : List σ} (h : destroyRounds E rounds s = .ok s') :
    s'.localIds.Sublist s.localIds := by
  induction rounds generalizing s with
  | nil =>
    cases h
    exact List.Sublist.refl _
  | cons engine rounds ih =>
    simp only [destroyRounds] at h
    split at h
    · cases h
      exact List.Sublist.refl _
    · split at h
      · cases h
      · rename_i hround
        have hsub := sublist_destroyNetPlayer (s := { s with engine := engine }) hround
        exact (ih h).trans hsub

theorem nodup_createNetPlayer {networkId defGlobalIndex : Int32} {position : Vec3}
    (hs : s.localIds.Nodup) (h : s.createNetPlayer E networkId position defGlobalIndex = .ok s') :
    s'.localIds.Nodup := by
  rcases createNetPlayer_cases h with ⟨hlocal, _, ⟨_, hsame⟩ | ⟨_, _, _, _, hadded⟩⟩
  · rw [localIds, hlocal, hsame]
    exact hs
  · -- The new entry is behind all others, with an id that none of them has.
    have happended : s'.localIds = s.localIds ++ [s.getFreeLocalId] := by
      simp [localIds, hlocal, hadded]
    rw [happended]
    simpa using List.Nodup.concat s.getFreeLocalId_not_mem hs

/-- A repeated `CreateLocalNetPlayer` moves the local player to a free slot. -/
theorem nodup_createLocalNetPlayer (E : Engine σ) (hs : s.localIds.Nodup) (networkId : Int32)
    (position : Vec3) : (s.createLocalNetPlayer E networkId position).localIds.Nodup := by
  rcases createLocalNetPlayer_cases E s networkId position with ⟨_, hsame⟩ | ⟨_, hset, _⟩
  · rw [hsame]
    exact hs
  · have hmoved : (s.createLocalNetPlayer E networkId position).localIds =
        s.getFreeLocalId :: s.netPlayers.map NetPlayer.localId := by
      simp [localIds, hset.localNetPlayer, hset.netPlayers]
    rw [hmoved, List.nodup_cons]
    -- The old slot of the local player is free from now on.
    have hparts := List.nodup_append.1 hs
    refine ⟨?_, hparts.2.1⟩
    intro hmem
    exact s.getFreeLocalId_not_mem (List.mem_append_right _ hmem)

theorem sublist_destroyLocalNetPlayer (E : Engine σ) (s : Session σ) :
    (s.destroyLocalNetPlayer E).localIds.Sublist s.localIds := by
  rcases destroyLocalNetPlayer_cases E s with ⟨hkept | hgone, hsame, _⟩
  · rw [localIds, hkept, hsame]
    exact List.Sublist.refl _
  · rw [localIds, hgone, hsame]
    exact List.sublist_append_right _ _

theorem nodup_call {next : ManagerCall σ} (hs : s.localIds.Nodup) (h : s.call E next = .ok s') :
    s'.localIds.Nodup := by
  rcases next with ⟨engine, method⟩
  have hs' : { s with engine := engine }.localIds.Nodup := hs
  cases method with
  | createLocalNetPlayer networkId position =>
    cases h
    exact nodup_createLocalNetPlayer E hs' networkId position
  | createNetPlayer networkId position defGlobalIndex => exact nodup_createNetPlayer hs' h
  | createNetPlayers networkId position defGlobalIndex =>
    rcases createNetPlayers_cases h with hsame | hcreated
    · rw [hsame]
      exact hs'
    · exact nodup_createNetPlayer hs' hcreated
  | destroyNetPlayer networkId => exact hs'.sublist (sublist_destroyNetPlayer h)
  | destroyNetPlayers rounds => exact hs'.sublist (sublist_destroyRounds h)
  | destroyLocalNetPlayer =>
    cases h
    exact hs'.sublist (sublist_destroyLocalNetPlayer E _)

end Calls

/-- A call of `DestroyNetPlayers` that returns is one in which the game has stood still between the
rounds. -/
theorem destroyRounds_of_destroyNetPlayers {E : Engine σ} {rounds : Nat} {s s' : Session σ}
    (h : destroyNetPlayers E rounds s = .ok s') :
    ∃ engines, destroyRounds E engines s = .ok s' := by
  induction rounds generalizing s with
  | zero =>
    cases hlist : s.netPlayers with
    | nil =>
      rw [destroyNetPlayers_nil E hlist] at h
      exact ⟨[], h⟩
    | cons front rest =>
      rw [destroyNetPlayers_zero E hlist] at h
      cases h
  | succ rounds ih =>
    cases hlist : s.netPlayers with
    | nil =>
      rw [destroyNetPlayers_nil E hlist] at h
      exact ⟨[], h⟩
    | cons front rest =>
      rw [destroyNetPlayers_succ E hlist] at h
      cases hround : s.destroyNetPlayer E front.networkId with
      | error fault =>
        rw [hround] at h
        cases h
      | ok middle =>
        rw [hround] at h
        rcases ih h with ⟨engines, hrest⟩
        -- The game is in the same state again at this round.
        refine ⟨s.engine :: engines, ?_⟩
        rw [destroyRounds_cons E hlist]
        have hsame : { s with engine := s.engine }.destroyNetPlayer E front.networkId =
            .ok middle := hround
        rw [hsame]
        exact hrest

/-- In whatever order the methods are called, with whatever ids and answers of the game: no two
players have one local id, and no player is created with one that is in use. -/
theorem local_slots_never_shared (E : Engine σ) (around : Session σ)
    (calls : List (ManagerCall σ)) :
    Fallible.StatesSatisfy (call E) (SlotsUnshared E) (newManager around) calls := by
  intro before after _ s hrun
  have hdistinct : s.localIds.Nodup := by
    refine Fallible.run_invariant (I := fun s => s.localIds.Nodup) ?_ ?_ hrun
    · exact List.nodup_nil
    · intro s next s' hs hstep
      exact nodup_call hs hstep
  exact ⟨hdistinct, s.getFreeLocalId_returns, s.isLeast_getFreeLocalId, s.getFreeLocalId_le_length,
    fun other next => call_recreating E other s next⟩

end Session
end Mod
end Crossover
