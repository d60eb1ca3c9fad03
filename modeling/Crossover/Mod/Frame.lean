import Crossover.Mod.Avatars
import Crossover.Mod.Recording

/-!
# Frame — what the hooks do while the game resolves every player once

The hooks run for one creature at a time, but the maps of closures belong to the class: each run
goes through the closures of all players.  `Meter` counts the messages a session sends about its own
player and the corrections of one remote creature, and `Populated` is a session in which every
player has its closures.
-/

namespace Crossover
namespace Mod

open Wire

/-- The game resolves the movement or the facing direction of one creature: its own part of the
hooked function, then the closures. -/
inductive Resolve (σ : Type)
  | movementAcceleration (play : σ → σ)
  | facingDirection (play : σ → σ)

namespace Resolve

variable {σ : Type}

def isMovement : Resolve σ → Bool
  | .movementAcceleration _ => true
  | .facingDirection _ => false

/-- The events of a resolve in a session. -/
def events (s : Session (σ × List GameCall)) :
    Resolve σ → List (SessionEvent (σ × List GameCall))
  | .movementAcceleration play =>
      [.game (play s.engine.1, s.engine.2), .resolveMovementAcceleration]
  | .facingDirection play => [.game (play s.engine.1, s.engine.2), .resolveFacingDirection]

end Resolve

/-- A frame with this many creatures: each of the two functions is resolved once for each of them,
in any order. -/
structure IsFrame {σ : Type} (creatures : Nat) (resolves : List (Resolve σ)) : Prop where
  movement : resolves.countP (fun r => r.isMovement) = creatures
  facing : resolves.countP (fun r => !r.isMovement) = creatures

namespace Session

variable {σ : Type}

/-- A resolve, as a part of a session over the recorded game. -/
def resolve (E : Engine σ) (s : Session (σ × List GameCall)) (r : Resolve σ) :
    Except Fault (Session (σ × List GameCall)) :=
  run E.recorded s (r.events s)

/-! ## What is counted -/

/-- The message id and the network id in front of a motion message. -/
def motionHeader (messageId : UInt8) (networkId : Int32) : List UInt8 :=
  ((BitStream.write {} messageId).write networkId).data

/-- The call sends a motion message of this player to this address. -/
def sendsMotion (messageId : UInt8) (networkId : Int32) (address : SystemAddress) :
    PeerCall → Bool
  | .send send =>
      send.address == address && (motionHeader messageId networkId).isPrefixOf send.data
  | _ => false

/-- The call gives the creature its player's movement. -/
def corrects (creature : CreaturePtr) : GameCall → Bool
  | .setMovementAcceleration corrected _ => corrected == creature
  | _ => false

/-- The call gives the creature its player's orientation. -/
def turns (creature : CreaturePtr) : GameCall → Bool
  | .setRHSet turned _ _ => turned == creature
  | _ => false

/-- Messages about one's own player to one address, corrections of one creature. -/
inductive Meter
  | movement
  | rotation
  | correction
  | turn
  deriving DecidableEq

def reading (networkId : Int32) (address : SystemAddress) (creature : CreaturePtr)
    (s : Session (σ × List GameCall)) : Meter → Nat
  | .movement => s.calls.countP (sendsMotion idPlayerMovement networkId address)
  | .rotation => s.calls.countP (sendsMotion idPlayerRotation networkId address)
  | .correction => s.engine.2.countP (corrects creature)
  | .turn => s.engine.2.countP (turns creature)

/-- Where the local player's motion goes. -/
def destinations (E : Engine σ) (s : Session (σ × List GameCall)) (networkId : Int32) :
    List SystemAddress :=
  if networkId = 0 then (clientsExcept s.network.connections networkId).map Connection.address
  else [E.systemAddress s.network.settings.ip s.network.settings.port]

/-- The session is open, and every player has its closure in each of the two maps: the local
player's sends, those of the others correct creatures of their own. -/
structure Populated (s : Session (σ × List GameCall)) (networkId : Int32) (own : CreaturePtr)
    (creatureOf : NetPlayer → CreaturePtr) : Prop where
  active : s.network.active = true
  localNetPlayer : s.localNetPlayer.map LocalNetPlayer.networkId = some networkId
  movement : (s.resolveMovementAccelerationCallbacks.map Prod.snd).Perm
    (.broadcast networkId own ::
      s.netPlayers.map fun netPlayer => .apply netPlayer.networkId (creatureOf netPlayer))
  facing : (s.resolveFacingDirectionCallbacks.map Prod.snd).Perm
    (.broadcast networkId own ::
      s.netPlayers.map fun netPlayer => .apply netPlayer.networkId (creatureOf netPlayer))
  creatures : (s.netPlayers.map creatureOf).Nodup

/-- Between the two sessions the local player has sent its movement and its rotation once to every
destination, and every remote creature has been corrected and turned once. -/
def OnePerPlayer (E : Engine σ) (networkId : Int32) (creatureOf : NetPlayer → CreaturePtr)
    (s s' : Session (σ × List GameCall)) : Prop :=
  (∀ address creature,
    reading networkId address creature s' .movement =
        reading networkId address creature s .movement +
          (destinations E s networkId).count address ∧
      reading networkId address creature s' .rotation =
        reading networkId address creature s .rotation +
          (destinations E s networkId).count address) ∧
    ∀ address, ∀ netPlayer ∈ s.netPlayers,
      reading networkId address (creatureOf netPlayer) s' .correction =
          reading networkId address (creatureOf netPlayer) s .correction + 1 ∧
        reading networkId address (creatureOf netPlayer) s' .turn =
          reading networkId address (creatureOf netPlayer) s .turn + 1

/-! ## One closure -/

/-- What a resolve leaves alone. -/
structure SameRegistry (s s' : Session (σ × List GameCall)) : Prop extends SameManager s s' where
  movement : s'.resolveMovementAccelerationCallbacks = s.resolveMovementAccelerationCallbacks
  facing : s'.resolveFacingDirectionCallbacks = s.resolveFacingDirectionCallbacks

theorem SameRegistry.refl (s : Session (σ × List GameCall)) : SameRegistry s s :=
  ⟨SameManager.refl s, rfl, rfl⟩

theorem SameRegistry.trans {s s' s'' : Session (σ × List GameCall)} (h : SameRegistry s s')
    (h' : SameRegistry s' s'') : SameRegistry s s'' :=
  ⟨h.toSameManager.trans h'.toSameManager, h'.movement.trans h.movement,
    h'.facing.trans h.facing⟩

theorem Populated.congr {s s' : Session (σ × List GameCall)} {networkId : Int32}
    {own : CreaturePtr} {creatureOf : NetPlayer → CreaturePtr}
    (h : Populated s networkId own creatureOf) (hsame : SameRegistry s s') :
    Populated s' networkId own creatureOf := by
  refine ⟨?_, ?_, ?_, ?_, ?_⟩
  · rw [hsame.network]
    exact h.active
  · rw [hsame.localNetPlayer]
    exact h.localNetPlayer
  · rw [hsame.movement, hsame.netPlayers]
    exact h.movement
  · rw [hsame.facing, hsame.netPlayers]
    exact h.facing
  · rw [hsame.netPlayers]
    exact h.creatures

/-- What one closure of the movement hook adds to a meter, for an address that is `sent` times a
destination. -/
def movementWeight (sent : Nat) (creature : CreaturePtr) : MotionCallback → Meter → Nat
  | .broadcast _ _, .movement => sent
  | .apply _ corrected, .correction => if corrected = creature then 1 else 0
  | _, _ => 0

/-- What one closure of the facing hook adds. -/
def facingWeight (sent : Nat) (creature : CreaturePtr) : MotionCallback → Meter → Nat
  | .broadcast _ _, .rotation => sent
  | .apply _ turned, .turn => if turned = creature then 1 else 0
  | _, _ => 0

section Closures

variable {E : Engine σ} {s : Session (σ × List GameCall)} {networkId : Int32}

/-- The sends of a broadcast closure. -/
def motionSends (E : Engine σ) (s : Session (σ × List GameCall)) (networkId : Int32)
    (bs : BitStream) : List PeerCall :=
  (destinations E s networkId).map fun address =>
    .send { data := bs.data, priority := .high, reliability := .unreliableSequenced,
            address := address }

theorem sendMotion_eq (hactive : s.network.active = true)
    (hlocal : s.localNetPlayer.map LocalNetPlayer.networkId = some networkId) (bs : BitStream) :
    s.sendMotion E.recorded networkId bs =
      .ok { s with calls := s.calls ++ motionSends E s networkId bs } := by
  rcases Option.map_eq_some_iff.1 hlocal with ⟨localNetPlayer, hsome, hid⟩
  simp only [sendMotion, hsome, hid, motionSends, destinations]
  split
  · rw [sendToAllClientsExcept_eq s hactive]
    simp [hsome, Function.comp_def]
  · simp [sendToHost, peerSend, hactive, Engine.recorded, hsome]

theorem countP_motionSends (messageId : UInt8) (address : SystemAddress) (bs : BitStream) :
    (motionSends E s networkId bs).countP (sendsMotion messageId networkId address) =
      if (motionHeader messageId networkId).isPrefixOf bs.data then
        (destinations E s networkId).count address
      else 0 := by
  unfold motionSends
  rw [List.countP_map]
  split
  · rename_i hprefix
    simp [sendsMotion, Function.comp_def, hprefix, List.count]
  · rename_i hprefix
    simp [sendsMotion, Function.comp_def, hprefix]

theorem header_isPrefixOf (messageId : UInt8) (networkId : Int32) (first second : Vec3) :
    (motionHeader messageId networkId).isPrefixOf
      (motionMessage messageId networkId first second).data = true := by
  rw [List.isPrefixOf_iff_prefix]
  exact ⟨encode first ++ encode second, by simp [motionHeader, motionMessage]⟩

theorem header_not_isPrefixOf {messageId other : UInt8} (hne : other ≠ messageId)
    (networkId : Int32) (first second : Vec3) :
    (motionHeader other networkId).isPrefixOf
      (motionMessage messageId networkId first second).data = false := by
  simp [motionHeader, motionMessage, List.isPrefixOf, hne]

/-- A broadcast closure counts for its own message only. -/
theorem reading_of_sends {messageId : UInt8} {first second : Vec3}
    (address : SystemAddress) (creature : CreaturePtr) (meter : Meter) :
    reading networkId address creature
        { s with calls := s.calls ++
            motionSends E s networkId (motionMessage messageId networkId first second) } meter =
      reading networkId address creature s meter +
        match meter with
        | .movement =>
            if messageId = idPlayerMovement then (destinations E s networkId).count address else 0
        | .rotation =>
            if messageId = idPlayerRotation then (destinations E s networkId).count address else 0
        | _ => 0 := by
  cases meter with
  | movement =>
    simp only [reading, List.countP_append, countP_motionSends]
    by_cases hid : messageId = idPlayerMovement
    · subst hid
      simp [header_isPrefixOf]
    · simp [header_not_isPrefixOf (Ne.symm hid), hid]
  | rotation =>
    simp only [reading, List.countP_append, countP_motionSends]
    by_cases hid : messageId = idPlayerRotation
    · subst hid
      simp [header_isPrefixOf]
    · simp [header_not_isPrefixOf (Ne.symm hid), hid]
  | correction => rfl
  | turn => rfl

/-- A closure of the movement hook runs, and counts as its weight says. -/
theorem runMovementCallback_reading {own : CreaturePtr} {creatureOf : NetPlayer → CreaturePtr}
    (h : Populated s networkId own creatureOf) {callback : MotionCallback}
    (hmem : callback ∈ MotionCallback.broadcast networkId own ::
      s.netPlayers.map fun netPlayer => .apply netPlayer.networkId (creatureOf netPlayer)) :
    ∃ s', s.runMovementCallback E.recorded callback = .ok s' ∧ SameRegistry s s' ∧
      ∀ address creature meter, reading networkId address creature s' meter =
        reading networkId address creature s meter +
          movementWeight ((destinations E s networkId).count address) creature callback meter := by
  rcases List.mem_cons.1 hmem with rfl | hother
  · -- The local player's closure sends, once to each destination.
    refine ⟨_, sendMotion_eq h.active h.localNetPlayer _, ⟨⟨rfl, rfl, rfl⟩, rfl, rfl⟩, ?_⟩
    intro address creature meter
    rw [reading_of_sends]
    cases meter <;> rfl
  · -- A net player's closure corrects its creature, and perhaps moves it as well.
    rcases List.mem_map.1 hother with ⟨netPlayer, hnet, rfl⟩
    cases hfind : s.netPlayers.find? fun other => other.networkId == netPlayer.networkId with
    | none =>
      have hno := List.find?_eq_none.1 hfind netPlayer hnet
      simp at hno
    | some found =>
      simp only [runMovementCallback, hfind]
      split
      all_goals
        refine ⟨_, rfl, ⟨⟨rfl, rfl, rfl⟩, rfl, rfl⟩, ?_⟩
        intro address creature meter
        cases meter with
        | correction =>
          simp [reading, Engine.recorded, corrects, movementWeight, List.countP_append,
            List.countP_cons]
        | turn => simp [reading, Engine.recorded, turns, movementWeight]
        | _ => rfl

/-- A closure of the facing hook. -/
theorem runFacingCallback_reading {own : CreaturePtr} {creatureOf : NetPlayer → CreaturePtr}
    (h : Populated s networkId own creatureOf) {callback : MotionCallback}
    (hmem : callback ∈ MotionCallback.broadcast networkId own ::
      s.netPlayers.map fun netPlayer => .apply netPlayer.networkId (creatureOf netPlayer)) :
    ∃ s', s.runFacingCallback E.recorded callback = .ok s' ∧ SameRegistry s s' ∧
      ∀ address creature meter, reading networkId address creature s' meter =
        reading networkId address creature s meter +
          facingWeight ((destinations E s networkId).count address) creature callback meter := by
  rcases List.mem_cons.1 hmem with rfl | hother
  · refine ⟨_, sendMotion_eq h.active h.localNetPlayer _, ⟨⟨rfl, rfl, rfl⟩, rfl, rfl⟩, ?_⟩
    intro address creature meter
    rw [reading_of_sends]
    cases meter <;> rfl
  · -- A net player's closure turns its creature.
    rcases List.mem_map.1 hother with ⟨netPlayer, hnet, rfl⟩
    cases hfind : s.netPlayers.find? fun other => other.networkId == netPlayer.networkId with
    | none =>
      have hno := List.find?_eq_none.1 hfind netPlayer hnet
      simp at hno
    | some found =>
      simp only [runFacingCallback, hfind]
      refine ⟨_, rfl, ⟨⟨rfl, rfl, rfl⟩, rfl, rfl⟩, ?_⟩
      intro address creature meter
      cases meter with
      | turn =>
        simp [reading, Engine.recorded, turns, facingWeight, List.countP_append, List.countP_cons]
      | correction => simp [reading, Engine.recorded, corrects, facingWeight]
      | _ => rfl

end Closures

/-! ## One hook -/

section Hooks

variable {E : Engine σ} {s : Session (σ × List GameCall)} {networkId : Int32}

/-- Closures that each count as their weight says count as their weights say together. -/
theorem runAll_reading {address : SystemAddress} {creature : CreaturePtr}
    {run : Session (σ × List GameCall) → MotionCallback →
      Except Fault (Session (σ × List GameCall))}
    {weight : MotionCallback → Meter → Nat} {callbacks : CallbackMap MotionCallback}
    (hrun : ∀ s₁, SameRegistry s s₁ → ∀ entry ∈ callbacks, ∃ s', run s₁ entry.2 = .ok s' ∧
      SameRegistry s₁ s' ∧ ∀ meter, reading networkId address creature s' meter =
        reading networkId address creature s₁ meter + weight entry.2 meter)
    {s₁ : Session (σ × List GameCall)} (hsame : SameRegistry s s₁) :
    ∃ s', runAll run callbacks s₁ = .ok s' ∧ SameRegistry s₁ s' ∧
      ∀ meter, reading networkId address creature s' meter =
        reading networkId address creature s₁ meter +
          ((callbacks.map Prod.snd).map fun callback => weight callback meter).sum := by
  induction callbacks generalizing s₁ with
  | nil => exact ⟨s₁, rfl, SameRegistry.refl s₁, fun _ => rfl⟩
  | cons entry rest ih =>
    -- No closure changes the map, so the rest runs in a session like the first.
    rcases hrun s₁ hsame entry List.mem_cons_self with ⟨s₂, hfirst, hsame₂, hcount₂⟩
    have hrest : ∀ s₁, SameRegistry s s₁ → ∀ entry ∈ rest, ∃ s', run s₁ entry.2 = .ok s' ∧
        SameRegistry s₁ s' ∧ ∀ meter, reading networkId address creature s' meter =
          reading networkId address creature s₁ meter + weight entry.2 meter :=
      fun s₁ hs₁ other hother => hrun s₁ hs₁ other (List.mem_cons_of_mem _ hother)
    rcases ih hrest (hsame.trans hsame₂) with ⟨s', hloop, hsame', hcount'⟩
    refine ⟨s', by simp [runAll, hfirst, hloop], hsame₂.trans hsame', ?_⟩
    intro meter
    rw [hcount' meter, hcount₂ meter]
    simp [Nat.add_assoc]

/-- What one run of the movement hook adds, with every player in the map once. -/
def movementTotal (sent corrected : Nat) : Meter → Nat
  | .movement => sent
  | .correction => corrected
  | _ => 0

/-- What one run of the facing hook adds. -/
def facingTotal (sent turned : Nat) : Meter → Nat
  | .rotation => sent
  | .turn => turned
  | _ => 0

theorem sum_corrections (creatureOf : NetPlayer → CreaturePtr) (creature : CreaturePtr)
    (netPlayers : List NetPlayer) :
    (netPlayers.map fun netPlayer => if creatureOf netPlayer = creature then 1 else 0).sum =
      (netPlayers.map creatureOf).count creature := by
  induction netPlayers with
  | nil => rfl
  | cons netPlayer rest ih =>
    by_cases heq : creatureOf netPlayer = creature
    · simp [ih, heq, Nat.add_comm]
    · simp [ih, heq]

theorem sum_movementWeight (sent : Nat) (creature own : CreaturePtr)
    (creatureOf : NetPlayer → CreaturePtr) (netPlayers : List NetPlayer) (meter : Meter) :
    ((MotionCallback.broadcast networkId own ::
        netPlayers.map fun netPlayer => .apply netPlayer.networkId (creatureOf netPlayer)).map
          fun callback => movementWeight sent creature callback meter).sum =
      movementTotal sent ((netPlayers.map creatureOf).count creature) meter := by
  rw [← sum_corrections]
  cases meter <;> simp [movementWeight, movementTotal, Function.comp_def]

theorem sum_facingWeight (sent : Nat) (creature own : CreaturePtr)
    (creatureOf : NetPlayer → CreaturePtr) (netPlayers : List NetPlayer) (meter : Meter) :
    ((MotionCallback.broadcast networkId own ::
        netPlayers.map fun netPlayer => .apply netPlayer.networkId (creatureOf netPlayer)).map
          fun callback => facingWeight sent creature callback meter).sum =
      facingTotal sent ((netPlayers.map creatureOf).count creature) meter := by
  rw [← sum_corrections]
  cases meter <;> simp [facingWeight, facingTotal, Function.comp_def]

variable {own : CreaturePtr} {creatureOf : NetPlayer → CreaturePtr}

theorem destinations_congr {s' : Session (σ × List GameCall)} (hsame : SameRegistry s s') :
    destinations E s' networkId = destinations E s networkId := by
  simp only [destinations, hsame.network]

/-- A hook whose map holds every player's closure once adds up their weights. -/
theorem hook_reading
    (run : Session (σ × List GameCall) → MotionCallback →
      Except Fault (Session (σ × List GameCall)))
    (weight : Nat → CreaturePtr → MotionCallback → Meter → Nat)
    {callbacks : CallbackMap MotionCallback} (h : Populated s networkId own creatureOf)
    (hmap : (callbacks.map Prod.snd).Perm (MotionCallback.broadcast networkId own ::
      s.netPlayers.map fun netPlayer => .apply netPlayer.networkId (creatureOf netPlayer)))
    (hrun : ∀ {s₁ : Session (σ × List GameCall)} {callback : MotionCallback},
      Populated s₁ networkId own creatureOf →
      callback ∈ MotionCallback.broadcast networkId own ::
        s₁.netPlayers.map (fun netPlayer => .apply netPlayer.networkId (creatureOf netPlayer)) →
      ∃ s', run s₁ callback = .ok s' ∧ SameRegistry s₁ s' ∧
        ∀ address creature meter, reading networkId address creature s' meter =
          reading networkId address creature s₁ meter +
            weight ((destinations E s₁ networkId).count address) creature callback meter)
    (address : SystemAddress) (creature : CreaturePtr) :
    ∃ s', runAll run callbacks s = .ok s' ∧ SameRegistry s s' ∧
      ∀ meter, reading networkId address creature s' meter =
        reading networkId address creature s meter +
          ((MotionCallback.broadcast networkId own :: s.netPlayers.map
            fun netPlayer => .apply netPlayer.networkId (creatureOf netPlayer)).map
            fun callback =>
              weight ((destinations E s networkId).count address) creature callback meter).sum := by
  -- Each entry of the map is one of the closures that count.
  have hentries : ∀ s₁, SameRegistry s s₁ → ∀ entry ∈ callbacks,
      ∃ s', run s₁ entry.2 = .ok s' ∧ SameRegistry s₁ s' ∧
        ∀ meter, reading networkId address creature s' meter =
          reading networkId address creature s₁ meter +
            weight ((destinations E s networkId).count address) creature entry.2 meter := by
    intro s₁ hsame entry hentry
    have hmem := hmap.mem_iff.1 (List.mem_map_of_mem hentry)
    rw [← hsame.netPlayers] at hmem
    rcases hrun (h.congr hsame) hmem with ⟨s', hok, hkept, hcount⟩
    refine ⟨s', hok, hkept, fun meter => ?_⟩
    rw [hcount, destinations_congr hsame]
  rcases runAll_reading hentries (SameRegistry.refl s) with ⟨s', hok, hsame, hcount⟩
  refine ⟨s', hok, hsame, fun meter => ?_⟩
  -- The order of the map does not matter for the sum.
  rw [hcount meter, (hmap.map _).sum_eq]

/-- The movement hook of any creature goes through the closures of all players. -/
theorem resolveMovementAcceleration_reading (h : Populated s networkId own creatureOf)
    (address : SystemAddress) (creature : CreaturePtr) :
    ∃ s', s.resolveMovementAcceleration E.recorded = .ok s' ∧ SameRegistry s s' ∧
      ∀ meter, reading networkId address creature s' meter =
        reading networkId address creature s meter +
          movementTotal ((destinations E s networkId).count address)
            ((s.netPlayers.map creatureOf).count creature) meter := by
  rcases hook_reading (runMovementCallback E.recorded) movementWeight h h.movement
    (fun hs₁ hmem => runMovementCallback_reading hs₁ hmem) address creature with
    ⟨s', hok, hsame, hcount⟩
  refine ⟨s', hok, hsame, fun meter => ?_⟩
  rw [hcount meter, sum_movementWeight]

/-- So does the facing hook. -/
theorem resolveFacingDirection_reading (h : Populated s networkId own creatureOf)
    (address : SystemAddress) (creature : CreaturePtr) :
    ∃ s', s.resolveFacingDirection E.recorded = .ok s' ∧ SameRegistry s s' ∧
      ∀ meter, reading networkId address creature s' meter =
        reading networkId address creature s meter +
          facingTotal ((destinations E s networkId).count address)
            ((s.netPlayers.map creatureOf).count creature) meter := by
  rcases hook_reading (runFacingCallback E.recorded) facingWeight h h.facing
    (fun hs₁ hmem => runFacingCallback_reading hs₁ hmem) address creature with
    ⟨s', hok, hsame, hcount⟩
  refine ⟨s', hok, hsame, fun meter => ?_⟩
  rw [hcount meter, sum_facingWeight]

end Hooks

/-! ## One frame -/

section Frames

variable {E : Engine σ} {s : Session (σ × List GameCall)} {networkId : Int32}
  {own : CreaturePtr} {creatureOf : NetPlayer → CreaturePtr}

/-- What one resolve adds. -/
def resolveTotal (sent corrected : Nat) : Resolve σ → Meter → Nat
  | .movementAcceleration _ => movementTotal sent corrected
  | .facingDirection _ => facingTotal sent corrected

theorem resolve_reading (h : Populated s networkId own creatureOf) (r : Resolve σ) :
    ∃ s', resolve E s r = .ok s' ∧ SameRegistry s s' ∧ ∀ address creature meter,
      reading networkId address creature s' meter =
        reading networkId address creature s meter +
          resolveTotal ((destinations E s networkId).count address)
            ((s.netPlayers.map creatureOf).count creature) r meter := by
  -- The game's own part of the hook does not touch the meters.
  have hone : ∀ address creature, ∃ s', resolve E s r = .ok s' ∧ SameRegistry s s' ∧
      ∀ meter, reading networkId address creature s' meter =
        reading networkId address creature s meter +
          resolveTotal ((destinations E s networkId).count address)
            ((s.netPlayers.map creatureOf).count creature) r meter := by
    intro address creature
    cases r with
    | movementAcceleration play =>
      have hsame : SameRegistry s { s with engine := (play s.engine.1, s.engine.2) } :=
        ⟨⟨rfl, rfl, rfl⟩, rfl, rfl⟩
      rcases resolveMovementAcceleration_reading (E := E) (h.congr hsame) address creature with
        ⟨s', hok, hkept, hcount⟩
      refine ⟨s', ?_, hsame.trans hkept, ?_⟩
      · simp [resolve, Resolve.events, Fallible.run, step, hok]
      · intro meter
        rw [hcount meter]
        cases meter <;> rfl
    | facingDirection play =>
      have hsame : SameRegistry s { s with engine := (play s.engine.1, s.engine.2) } :=
        ⟨⟨rfl, rfl, rfl⟩, rfl, rfl⟩
      rcases resolveFacingDirection_reading (E := E) (h.congr hsame) address creature with
        ⟨s', hok, hkept, hcount⟩
      refine ⟨s', ?_, hsame.trans hkept, ?_⟩
      · simp [resolve, Resolve.events, Fallible.run, step, hok]
      · intro meter
        rw [hcount meter]
        cases meter <;> rfl
  rcases hone unassignedSystemAddress 0 with ⟨s', hok, hsame, _⟩
  refine ⟨s', hok, hsame, ?_⟩
  intro address creature
  rcases hone address creature with ⟨s'', hok', _, hcount⟩
  obtain rfl := Except.ok.inj (hok.symm.trans hok')
  exact hcount

/-- Any number of resolves: every run of a hook adds the same. -/
theorem frame_reading (h : Populated s networkId own creatureOf) (resolves : List (Resolve σ)) :
    ∃ s', Fallible.run (resolve E) s resolves = .ok s' ∧ SameRegistry s s' ∧
      ∀ address creature meter, reading networkId address creature s' meter =
        reading networkId address creature s meter +
          (resolves.countP fun r => r.isMovement) *
            movementTotal ((destinations E s networkId).count address)
              ((s.netPlayers.map creatureOf).count creature) meter +
          (resolves.countP fun r => !r.isMovement) *
            facingTotal ((destinations E s networkId).count address)
              ((s.netPlayers.map creatureOf).count creature) meter := by
  induction resolves generalizing s with
  | nil => exact ⟨s, rfl, SameRegistry.refl s, fun _ _ _ => by simp⟩
  | cons r rest ih =>
    rcases resolve_reading (E := E) h r with ⟨s₁, hfirst, hsame₁, hcount₁⟩
    rcases ih (h.congr hsame₁) with ⟨s', hrun, hsame', hcount'⟩
    refine ⟨s', by simp [Fallible.run, hfirst, hrun], hsame₁.trans hsame', ?_⟩
    intro address creature meter
    rw [hcount' address creature meter, hcount₁ address creature meter,
      destinations_congr hsame₁, hsame₁.netPlayers]
    -- One more run of one of the two hooks.
    cases r with
    | movementAcceleration play =>
      simp only [resolveTotal, List.countP_cons, Resolve.isMovement, Bool.not_true,
        Bool.false_eq_true, if_true, if_false]
      ring
    | facingDirection play =>
      simp only [resolveTotal, List.countP_cons, Resolve.isMovement, Bool.not_false,
        Bool.false_eq_true, if_true, if_false]
      ring

/-- In a frame that resolves every player's creature once, each message goes out and each
correction is made exactly once when there is no remote player, and never otherwise: with `N` of
them the hooks make all closures run `N + 1` times. -/
theorem one_per_frame_iff (E : Engine σ) (s : Session (σ × List GameCall)) (networkId : Int32)
    (own : CreaturePtr) (creatureOf : NetPlayer → CreaturePtr) (resolves : List (Resolve σ))
    (h : Populated s networkId own creatureOf)
    (hframe : IsFrame (s.netPlayers.length + 1) resolves) :
    (∃ s', Fallible.run (resolve E) s resolves = .ok s' ∧
        OnePerPlayer E networkId creatureOf s s') ↔
      s.netPlayers = [] := by
  rcases frame_reading (E := E) h resolves with ⟨s', hrun, _, hcount⟩
  rw [hframe.movement, hframe.facing] at hcount
  constructor
  · rintro ⟨s'', hrun', hone⟩
    obtain rfl := Except.ok.inj (hrun.symm.trans hrun')
    cases hplayers : s.netPlayers with
    | nil => rfl
    | cons netPlayer rest =>
      -- The first remote player's creature is corrected `N + 1` times.
      have hmem : netPlayer ∈ s.netPlayers := by simp [hplayers]
      have hcorrected := (hone.2 unassignedSystemAddress netPlayer hmem).1
      have hcreature : (s.netPlayers.map creatureOf).count (creatureOf netPlayer) = 1 :=
        List.count_eq_one_of_mem h.creatures (List.mem_map_of_mem hmem)
      have htotal := hcount unassignedSystemAddress (creatureOf netPlayer) .correction
      simp only [movementTotal, facingTotal] at htotal
      rw [hcreature, hplayers, List.length_cons] at htotal
      omega
  · -- Alone, the local player's closures run once in each hook.
    intro hnil
    refine ⟨s', hrun, ?_, ?_⟩
    · intro address creature
      have hmovement := hcount address creature .movement
      have hrotation := hcount address creature .rotation
      simp only [movementTotal, facingTotal, hnil, List.length_nil] at hmovement hrotation
      exact ⟨by omega, by omega⟩
    · intro address netPlayer hmem
      rw [hnil] at hmem
      cases hmem

end Frames

/-! ### Two players -/

/-- A game in which only the host's own hero exists, with nothing recorded yet. -/
def quietProcess : Process (Engine.Table × List GameCall) where
  engine := ([(0, 1000)], [])
  boundAddress := exampleAddress "" 60000

theorem notification_nonempty : [idConnectionNotification] ≠ [] :=
  List.cons_ne_nil _ _

/-- A client joins and announces itself as player 1. -/
def joinEvents : List (SessionEvent (Engine.Table × List GameCall)) :=
  [.packet { repeatedPacket with
      data := [idConnectionNotification]
      nonempty := notification_nonempty } 0,
    .packet repeatedPacket 0]

/-- The host with that one client. -/
def crowdedHost : Session (Engine.Table × List GameCall) :=
  let E := (Engine.table exampleAddress).recorded
  let start := opened E quietProcess (.host 60000 true)
  (run E start joinEvents).toOption.getD start

theorem run_crowdedHost :
    run (Engine.table exampleAddress).recorded
      (opened (Engine.table exampleAddress).recorded quietProcess (.host 60000 true)) joinEvents =
        .ok crowdedHost :=
  rfl

theorem populated_crowdedHost : Populated crowdedHost 0 0 fun _ => 1 where
  active := rfl
  localNetPlayer := rfl
  movement := List.Perm.of_eq rfl
  facing := List.Perm.of_eq rfl
  creatures := List.nodup_singleton 1

/-- Both functions are resolved for both creatures. -/
def crowdedFrame : List (Resolve Engine.Table) :=
  [.movementAcceleration id, .facingDirection id, .movementAcceleration id, .facingDirection id]

theorem isFrame_crowdedFrame : IsFrame (crowdedHost.netPlayers.length + 1) crowdedFrame :=
  ⟨rfl, rfl⟩

theorem one_per_frame_iff_crowded :
    (∃ s', Fallible.run (resolve (Engine.table exampleAddress)) crowdedHost crowdedFrame =
        .ok s' ∧ OnePerPlayer (Engine.table exampleAddress) 0 (fun _ => 1) crowdedHost s') ↔
      crowdedHost.netPlayers = [] :=
  one_per_frame_iff (Engine.table exampleAddress) crowdedHost 0 0 (fun _ => 1) crowdedFrame
    populated_crowdedHost isFrame_crowdedFrame

/-- With one remote player everything is sent twice, and the remote creature corrected twice. -/
theorem remote_player_doubles_frame :
    ¬ ∀ (E : Engine Engine.Table) (process : Process (Engine.Table × List GameCall))
        (opening : Opening) (events : List (SessionEvent (Engine.Table × List GameCall)))
        (s : Session (Engine.Table × List GameCall)) (networkId : Int32) (own : CreaturePtr)
        (creatureOf : NetPlayer → CreaturePtr) (resolves : List (Resolve Engine.Table)),
        run E.recorded (opened E.recorded process opening) events = .ok s →
        Populated s networkId own creatureOf → IsFrame (s.netPlayers.length + 1) resolves →
          ∃ s', Fallible.run (resolve E) s resolves = .ok s' ∧
            OnePerPlayer E networkId creatureOf s s' := by
  intro hall
  rcases hall (Engine.table exampleAddress) quietProcess (.host 60000 true) joinEvents crowdedHost
    0 0 (fun _ => 1) crowdedFrame run_crowdedHost populated_crowdedHost isFrame_crowdedFrame with
    ⟨s', hrun, hone⟩
  rcases frame_reading (E := Engine.table exampleAddress) populated_crowdedHost crowdedFrame with
    ⟨s'', hrun', _, hcount⟩
  obtain rfl := Except.ok.inj (hrun'.symm.trans hrun)
  -- The one client gets the host's movement twice.
  have hsent := (hone.1 (exampleAddress "" 50001) 1).1
  rw [hcount] at hsent
  revert hsent
  decide

end Session
end Mod
end Crossover
