import Crossover.Wire.Peer

/-!
# Engine — the game as the mod sees it

The game's own functions are compiled code outside the repository, so they are a parameter: every
answer they may give is covered.  `Engine.Lawful` states what a session that works relies on, that
a local player id in use has a player with a creature of the definition it was created with.

The string-keyed `std::map`s of the hooks are sorted association lists.
-/

namespace Crossover
namespace Mod

open Wire

/-- A `CPlayer*` that is not null. -/
abbrev PlayerPtr := Nat

/-- A `CThingPlayerCreature*` that is not null. -/
abbrev CreaturePtr := Nat

/-- `CWorld::ERegionLoadStatus`, as far as the mod tells the values apart. -/
inductive RegionLoadStatus
  | notLoadingRegion
  | loading
  deriving DecidableEq, Repr

/-- The calls the mod makes into the game and into SLikeNet's address type.  `σ` is the state of
the game; local ids are `int`s that stay far below the end of their range. -/
structure Engine (σ : Type) where
  /-- `CPlayerManager`. -/
  createPlayer : σ → Int → σ
  getPlayer : σ → Int → Option PlayerPtr
  /-- `CPlayer`. -/
  getPControlledCreature : σ → PlayerPtr → Option CreaturePtr
  setControlledCreature : σ → PlayerPtr → Option CreaturePtr → σ
  uninitCharacter : σ → PlayerPtr → σ
  uninitialise : σ → PlayerPtr → σ
  /-- `CThingPlayerCreature::Create(defGlobalIndex, position, localId, init)`. -/
  create : σ → Int32 → Vec3 → Int → σ × Option CreaturePtr
  /-- A creature's position, movement, orientation and definition index. -/
  getPos : σ → CreaturePtr → Vec3
  movementAcceleration : σ → CreaturePtr → Vec3
  rhUp : σ → CreaturePtr → Vec3
  rhForward : σ → CreaturePtr → Vec3
  defGlobalIndex : σ → CreaturePtr → Int32
  facingAngleXY : σ → CreaturePtr → UInt32
  setMovementAcceleration : σ → CreaturePtr → Vec3 → σ
  setPosition : σ → CreaturePtr → Vec3 → σ
  setRHSet : σ → CreaturePtr → Vec3 → Vec3 → σ
  /-- `CWorld`. -/
  setAsLoadingRegion : σ → Vec3 → UInt32 → σ
  regionLoadStatus : σ → RegionLoadStatus
  /-- The value of an `int` nobody has assigned. -/
  indeterminate : σ → Int32
  /-- `SLNet::SystemAddress(ip, port)`. -/
  systemAddress : String → UInt16 → SystemAddress

namespace Engine

variable {σ : Type}

/-- What the code relies on.  `Holds e i d` says that local id `i` is in use in `e`, by a player
whose creature was created from definition `d`. -/
structure Lawful (E : Engine σ) (Holds : σ → Int → Int32 → Prop) : Prop where
  getPlayer_neg : ∀ e, E.getPlayer e (-1) = none
  lookup : ∀ e i d, Holds e i d → ∃ player creature, E.getPlayer e i = some player ∧
    E.getPControlledCreature e player = some creature ∧ E.defGlobalIndex e creature = d
  created : ∀ e i, 0 ≤ i → ∃ player, E.getPlayer (E.createPlayer e i) i = some player
  spawned : ∀ e i d position player, E.getPlayer (E.createPlayer e i) i = some player →
    let made := E.create (E.createPlayer e i) d position i
    Holds (E.setControlledCreature made.1 player made.2) i d
  spawned_other : ∀ e i d position player, E.getPlayer (E.createPlayer e i) i = some player →
    let made := E.create (E.createPlayer e i) d position i
    ∀ j d', j ≠ i → Holds e j d' → Holds (E.setControlledCreature made.1 player made.2) j d'
  removed_other : ∀ e i d player, Holds e i d → E.getPlayer e i = some player →
    ∀ j d', j ≠ i → Holds e j d' → Holds (E.uninitialise (E.uninitCharacter e player) player) j d'
  loading : ∀ e position angle j d, Holds e j d →
    Holds (E.setAsLoadingRegion e position angle) j d

/-! ## A game that keeps these laws -/

/-- Local ids in use with the definition their creature was created from. -/
abbrev Table := List (Int × Int32)

/-- A game with a player for every local id and nothing but the creatures' definitions: creatures
do not move, and pointers are local ids. -/
def table (systemAddress : String → UInt16 → SystemAddress) : Engine Table where
  createPlayer e _ := e
  getPlayer _ i := if 0 ≤ i then some i.toNat else none
  getPControlledCreature e player := if (e.lookup (player : Int)).isSome then some player else none
  setControlledCreature e _ _ := e
  uninitCharacter e player := e.filter fun entry => entry.1 != (player : Int)
  uninitialise e _ := e
  create e d _ i := ((i, d) :: e, some i.toNat)
  getPos _ _ := {}
  movementAcceleration _ _ := {}
  rhUp _ _ := {}
  rhForward _ _ := {}
  defGlobalIndex e creature := (e.lookup (creature : Int)).getD 0
  facingAngleXY _ _ := 0
  setMovementAcceleration e _ _ := e
  setPosition e _ _ := e
  setRHSet e _ _ _ := e
  setAsLoadingRegion e _ _ := e
  regionLoadStatus _ := .notLoadingRegion
  indeterminate _ := 0
  systemAddress := systemAddress

/-- A local id that is in use in a `Table`. -/
def Table.Holds (e : Table) (i : Int) (d : Int32) : Prop :=
  0 ≤ i ∧ e.lookup i = some d

theorem lookup_filter_ne {e : Table} {i j : Int} (hne : j ≠ i) :
    (e.filter fun entry => entry.1 != i).lookup j = e.lookup j := by
  induction e with
  | nil => rfl
  | cons entry rest ih =>
    rcases entry with ⟨k, d⟩
    by_cases hk : k = i
    · have hj : (j == i) = false := by simpa using hne
      simp [hk, List.lookup_cons, hj, ih]
    · cases hj : j == k <;> simp [hk, List.lookup_cons, hj, ih]

theorem table_lawful (systemAddress : String → UInt16 → SystemAddress) :
    (table systemAddress).Lawful Table.Holds where
  getPlayer_neg := by
    intro e
    rfl
  lookup := by
    intro e i d hheld
    have hnat : ((i.toNat : Nat) : Int) = i := Int.toNat_of_nonneg hheld.1
    have hsome : (e.lookup i).isSome = true := Option.isSome_iff_exists.2 ⟨d, hheld.2⟩
    refine ⟨i.toNat, i.toNat, ?_, ?_, ?_⟩
    · simp only [table, if_pos hheld.1]
    · simp only [table, hnat, if_pos hsome]
    · simp only [table, hnat, hheld.2, Option.getD_some]
  created := by
    intro e i hi
    exact ⟨i.toNat, by simp [table, hi]⟩
  spawned := by
    intro e i d position player hplayer
    have hi : 0 ≤ i := by
      by_contra hneg
      simp [table, hneg] at hplayer
    exact ⟨hi, by simp [table]⟩
  spawned_other := by
    intro e i d position player _ made j d' hne hheld
    have hbeq : (j == i) = false := by simpa using hne
    exact ⟨hheld.1, by simpa [made, table, List.lookup_cons, hbeq] using hheld.2⟩
  removed_other := by
    intro e i d player hheld hplayer j d' hne hother
    have hplayer' : player = i.toNat := by
      simpa [table, hheld.1] using hplayer.symm
    have hnat : ((player : Nat) : Int) = i := by
      rw [hplayer', Int.toNat_of_nonneg hheld.1]
    refine ⟨hother.1, ?_⟩
    have hkeep := lookup_filter_ne (e := e) hne
    simpa [table, hnat, hkeep] using hother.2
  loading := by
    intro e position angle j d hheld
    exact hheld

end Engine

/-! ## Callback maps -/

/-- A `std::map<std::string, T>`, in key order. -/
abbrev CallbackMap (α : Type) := List (String × α)

namespace CallbackMap

variable {α : Type}

/-- `callbacks[key] = value`. -/
def assign (key : String) (value : α) : CallbackMap α → CallbackMap α
  | [] => [(key, value)]
  | entry :: rest =>
      if key = entry.1 then (key, value) :: rest
      else if key < entry.1 then (key, value) :: entry :: rest
      else entry :: assign key value rest

/-- `callbacks.erase(key)`. -/
def erase (key : String) (callbacks : CallbackMap α) : CallbackMap α :=
  callbacks.filter fun entry => entry.1 != key

theorem mem_assign {key : String} {value : α} {callbacks : CallbackMap α} {entry : String × α}
    (h : entry ∈ assign key value callbacks) : entry = (key, value) ∨ entry ∈ callbacks := by
  induction callbacks with
  | nil => exact Or.inl (List.mem_singleton.1 h)
  | cons first rest ih =>
    simp only [assign] at h
    split at h
    · rcases List.mem_cons.1 h with h | h
      · exact Or.inl h
      · exact Or.inr (List.mem_cons_of_mem _ h)
    · split at h
      · exact List.mem_cons.1 h
      · rcases List.mem_cons.1 h with h | h
        · exact Or.inr (h ▸ List.mem_cons_self)
        · rcases ih h with h | h
          · exact Or.inl h
          · exact Or.inr (List.mem_cons_of_mem _ h)

theorem mem_erase {key : String} {callbacks : CallbackMap α} {entry : String × α}
    (h : entry ∈ erase key callbacks) : entry ∈ callbacks :=
  (List.mem_filter.1 h).1

end CallbackMap

end Mod
end Crossover
