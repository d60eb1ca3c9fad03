import Crossover.Mod.Engine

/-!
# Recording — a game that keeps the calls made into it

`E.recorded` is the game `E` with a list of the calls that change a player or a creature.  Results
about what the mod does to the game are about sessions over `E.recorded`.
-/

namespace Crossover
namespace Mod

open Wire

/-- A call that changes a player or a creature. -/
inductive GameCall
  | uninitCharacter (player : PlayerPtr)
  | uninitialise (player : PlayerPtr)
  | setMovementAcceleration (creature : CreaturePtr) (movementAcceleration : Vec3)
  | setPosition (creature : CreaturePtr) (position : Vec3)
  | setRHSet (creature : CreaturePtr) (up forward : Vec3)
  deriving DecidableEq, Repr

namespace Engine

variable {σ : Type}

/-- `E`, with the calls made so far behind its state. -/
def recorded (E : Engine σ) : Engine (σ × List GameCall) where
  createPlayer e localId := (E.createPlayer e.1 localId, e.2)
  getPlayer e localId := E.getPlayer e.1 localId
  getPControlledCreature e player := E.getPControlledCreature e.1 player
  setControlledCreature e player creature := (E.setControlledCreature e.1 player creature, e.2)
  uninitCharacter e player := (E.uninitCharacter e.1 player, e.2 ++ [.uninitCharacter player])
  uninitialise e player := (E.uninitialise e.1 player, e.2 ++ [.uninitialise player])
  create e defGlobalIndex position localId :=
    let made := E.create e.1 defGlobalIndex position localId
    ((made.1, e.2), made.2)
  getPos e creature := E.getPos e.1 creature
  movementAcceleration e creature := E.movementAcceleration e.1 creature
  rhUp e creature := E.rhUp e.1 creature
  rhForward e creature := E.rhForward e.1 creature
  defGlobalIndex e creature := E.defGlobalIndex e.1 creature
  facingAngleXY e creature := E.facingAngleXY e.1 creature
  setMovementAcceleration e creature movementAcceleration :=
    (E.setMovementAcceleration e.1 creature movementAcceleration,
      e.2 ++ [.setMovementAcceleration creature movementAcceleration])
  setPosition e creature position :=
    (E.setPosition e.1 creature position, e.2 ++ [.setPosition creature position])
  setRHSet e creature up forward :=
    (E.setRHSet e.1 creature up forward, e.2 ++ [.setRHSet creature up forward])
  setAsLoadingRegion e position angle := (E.setAsLoadingRegion e.1 position angle, e.2)
  regionLoadStatus e := E.regionLoadStatus e.1
  indeterminate e := E.indeterminate e.1
  systemAddress := E.systemAddress

end Engine
end Mod
end Crossover
