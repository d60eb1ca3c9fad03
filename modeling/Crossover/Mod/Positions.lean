import Crossover.Lib.Board
import Crossover.Mod.Hero
import Crossover.Mod.Waiting

/-!
# Positions — where the net players are said to be

A `NetPlayer` starts out at the origin: `CreateNetPlayer` gives the announced position to the game
and not to the entry.  The movement closure pulls the creature towards the entry's position.  The
vector is a `Board` of network ids and positions, and every event is a list of posts on it.
-/

namespace Crossover
namespace Mod

open Wire

/-- `C3DVector()`. -/
def origin : Vec3 := {}

namespace Session

variable {σ : Type}

/-- The vector as a board. -/
def positions (s : Session σ) : List (Int32 × Vec3) :=
  s.netPlayers.map fun netPlayer => (netPlayer.networkId, netPlayer.position)

/-! ## Events as posts -/

/-- `CreateNetPlayer` adds an entry and returns. -/
def adds (E : Engine σ) (s : Session σ) : Bool :=
  s.localNetPlayer.isSome && (newPlayer E s).isSome

/-- `CreateNetPlayers` calls `CreateNetPlayer` for this id. -/
def admits (s : Session σ) (networkId : Int32) : Bool :=
  match s.localNetPlayer with
  | none => false
  | some localNetPlayer =>
      networkId != localNetPlayer.networkId && s.getLocalIdFromNetworkId networkId == -1

/-- The records of a roster that add an entry. -/
def rosterEntries (E : Engine σ) : Nat → BitStream → Session σ → List (Int32 × Vec3)
  | 0, _, _ => []
  | count + 1, bs, s =>
      let entry := readCreateNetPlayer (E.indeterminate s.engine) bs
      let rest :=
        match s.createNetPlayers E entry.1.1 entry.1.2.2 entry.1.2.1 with
        | .error _ => []
        | .ok s => rosterEntries E count entry.2 s
      if s.admits entry.1.1 && s.adds E then (entry.1.1, entry.1.2.2) :: rest else rest

/-- An entry goes if the lookup finds a creature. -/
def removalPosts (E : Engine σ) (s : Session σ) (networkId : Int32) :
    List (Board.Post Int32 Vec3) :=
  if (s.getCreatureFromNetworkId E networkId).isSome then [.destroy networkId] else []

/-- The posts of a lost connection. -/
def lossPosts (E : Engine σ) (s : Session σ) (packet : Packet) : List (Board.Post Int32 Vec3) :=
  let networkId := s.getNetworkIdFromAddress E packet.systemAddress
  if s.network.quitCallbacks && networkId == 0 then [.clear] else s.removalPosts E networkId

/-- What an event posts: creations and movements with the position they carry, and removals. -/
def posts (E : Engine σ) (s : Session σ) : SessionEvent σ → List (Board.Post Int32 Vec3)
  | .packet packet _ =>
      if !s.network.active then []
      else
        match packet.kind with
        | .createNetPlayer =>
            let entry := createdEntry E s packet
            if s.adds E then [.create entry.1 entry.2.2] else []
        | .createNetPlayers =>
            let count := (payload packet).read (0 : Int32)
            (rosterEntries E count.1.toNatClampNeg count.2 s).map fun entry =>
              .create entry.1 entry.2
        | .playerMovement =>
            let fields := readMotion (payload packet)
            [.move fields.1 fields.2.1]
        | .destroyNetPlayer => s.removalPosts E ((payload packet).read (-1 : Int32)).1
        | .disconnectionNotification => s.lossPosts E packet
        | .connectionLost => s.lossPosts E packet
        | .connectionAttemptFailed => if s.network.quitCallbacks then [.clear] else []
        | _ => []
  | .disconnect _ => if s.network.active then [.clear] else []
  | _ => []

/-- A board after several posts; new entries are at the origin. -/
abbrev afterPosts (b : Board.State Int32 Vec3) (posts : List (Board.Post Int32 Vec3)) :
    Board.State Int32 Vec3 :=
  posts.foldl (Board.step origin) b

/-! ## The vector is the board -/

section Refinement

variable {E : Engine σ} {s s' : Session σ}

theorem positions_eraseNetPlayer (networkId : Int32) (netPlayers : List NetPlayer) :
    (eraseNetPlayer networkId netPlayers).map
        (fun netPlayer => (netPlayer.networkId, netPlayer.position)) =
      Board.erase networkId
        (netPlayers.map fun netPlayer => (netPlayer.networkId, netPlayer.position)) := by
  induction netPlayers with
  | nil => rfl
  | cons netPlayer rest ih =>
    by_cases hid : netPlayer.networkId = networkId
    · simp [eraseNetPlayer, Board.erase, hid]
    · simpa [eraseNetPlayer, Board.erase, hid] using ih

theorem positions_updateNetPlayer (networkId : Int32) (position acceleration : Vec3)
    (netPlayers : List NetPlayer) :
    (updateNetPlayer networkId
        (fun netPlayer => { netPlayer with
          movementAcceleration := acceleration, position := position })
        netPlayers).map (fun netPlayer => (netPlayer.networkId, netPlayer.position)) =
      Board.assign networkId position
        (netPlayers.map fun netPlayer => (netPlayer.networkId, netPlayer.position)) := by
  induction netPlayers with
  | nil => rfl
  | cons netPlayer rest ih =>
    by_cases hid : netPlayer.networkId = networkId <;>
      simp [updateNetPlayer, Board.assign, hid, ih]

theorem SameManager.positions (h : SameManager s s') : s'.positions = s.positions := by
  rw [Session.positions, Session.positions, h.netPlayers]

theorem positions_createNetPlayer {networkId defGlobalIndex : Int32} {position : Vec3}
    (h : s.createNetPlayer E networkId position defGlobalIndex = .ok s') :
    s'.positions = s.positions ++ if s.adds E then [(networkId, origin)] else [] := by
  -- The constructor of `NetPlayer` gets the two ids and no position.
  rcases createNetPlayer_cases h with ⟨_, _, ⟨hnone, hsame⟩ | ⟨player, hsome, _, hlocal, hadded⟩⟩
  · simp [positions, adds, hnone, hsame]
  · simp [positions, adds, hsome, hlocal, hadded, origin]

theorem positions_createNetPlayers {networkId defGlobalIndex : Int32} {position : Vec3}
    (h : s.createNetPlayers E networkId position defGlobalIndex = .ok s') :
    s'.positions =
      s.positions ++ if s.admits networkId && s.adds E then [(networkId, origin)] else [] := by
  rcases createNetPlayers_spec h with
    ⟨localNetPlayer, hlocal, ⟨hne, hunknown, hcreated⟩ | ⟨hskipped, rfl⟩⟩
  · rw [positions_createNetPlayer hcreated]
    simp [admits, hlocal, hne, hunknown]
  · have hno : s'.admits networkId = false := by
      simp only [admits, hlocal]
      rcases hskipped with hsame | hknown
      · simp [hsame]
      · simp [hknown]
    simp [hno]

theorem positions_rosterEntries {count : Nat} {bs : BitStream}
    (h : createNetPlayersLoop E count bs s = .ok s') :
    s'.positions =
      s.positions ++ (rosterEntries E count bs s).map fun entry => (entry.1, origin) := by
  induction count generalizing bs s with
  | zero =>
    cases h
    simp [rosterEntries]
  | succ count ih =>
    simp only [createNetPlayersLoop] at h
    split at h
    · cases h
    · rename_i s₁ hentry
      -- The rest of the roster is read in the session that the first record leaves.
      rw [ih h, positions_createNetPlayers hentry]
      simp only [rosterEntries, hentry]
      split <;> simp

theorem positions_destroyNetPlayer {networkId : Int32}
    (h : s.destroyNetPlayer E networkId = .ok s') :
    s'.positions =
      if (s.getCreatureFromNetworkId E networkId).isSome then Board.erase networkId s.positions
      else s.positions := by
  have hfound := playerWithCreature_isSome E s (s.getLocalIdFromNetworkId networkId)
  rw [← getCreatureFromNetworkId] at hfound
  rcases destroyNetPlayer_shape h with ⟨hnone, rfl⟩ | ⟨player, hsome, sent, rfl⟩
  · simp [← hfound, hnone]
  · rw [← hfound, hsome]
    exact positions_eraseNetPlayer networkId s.netPlayers

theorem positions_disconnect {rounds : Nat} (hactive : s.network.active = true)
    (h : s.disconnect E rounds = .ok s') : s'.positions = [] := by
  rcases disconnect_cases h with ⟨hclosed, _⟩ | ⟨_, cleared, rfl, hcleared⟩
  · rw [hactive] at hclosed
    cases hclosed
  · have hkept := (disconnected_effect E cleared).2.1
    exact List.map_eq_nil_iff.2 (hkept.trans (netPlayers_destroyNetPlayers hcleared))

theorem positions_receiveNetPlayerMovement (s : Session σ) (networkId : Int32)
    (position acceleration : Vec3) :
    (s.receiveNetPlayerMovement networkId position acceleration).positions =
      Board.assign networkId position s.positions := by
  simp only [positions, netPlayers_receiveNetPlayerMovement]
  exact positions_updateNetPlayer networkId position acceleration s.netPlayers

theorem positions_receiveNetPlayerRotation (s : Session σ) (networkId : Int32)
    (up forward : Vec3) :
    (s.receiveNetPlayerRotation networkId up forward).positions = s.positions := by
  simp only [positions, netPlayers_receiveNetPlayerRotation]
  exact map_updateNetPlayer (fun netPlayer => (netPlayer.networkId, netPlayer.position))
    (by intro netPlayer; rfl) networkId s.netPlayers

theorem positions_handleLoss {rounds : Nat} {packet : Packet}
    (hactive : s.network.active = true) (h : s.handleLoss E rounds packet = .ok s')
    (heard : List (Int32 × Vec3)) :
    (afterPosts { board := s.positions, heard := heard } (s.lossPosts E packet)).board =
      s'.positions := by
  rcases handleLoss_cases h with ⟨t, hremoved, hends⟩
  rcases removeConnection_cases hremoved with ⟨s₁, hdestroyed, rfl⟩
  have hkept := positions_destroyNetPlayer hdestroyed
  have hnetwork := (destroyNetPlayer_kept hdestroyed).2
  simp only [hnetwork] at hends
  simp only [lossPosts, removalPosts]
  rcases hends with ⟨hquit, hdisconnect⟩ | ⟨hstays, rfl⟩
  · -- The host has gone, and everybody goes with it.
    have hempty := positions_disconnect (by exact hactive) hdisconnect
    rw [if_pos hquit, hempty]
    rfl
  · rw [if_neg hstays]
    refine Eq.trans ?_ hkept.symm
    split <;> rfl

theorem positions_handleConnectionNotification {systemAddress : SystemAddress}
    (h : s.handleConnectionNotification E systemAddress = .ok s') :
    s'.positions = s.positions := by
  rw [(spoke_handleConnectionNotification h).quiet.toSameManager.positions]
  rfl

theorem positions_handleCreateLocalNetPlayer (E : Engine σ) (s : Session σ) (packet : Packet) :
    (s.handleCreateLocalNetPlayer E packet).positions = s.positions := by
  simp only [handleCreateLocalNetPlayer]
  generalize hstart : (Session.mk _ _ _ _ _ _ _ _ : Session σ) = s₀
  have hpositions : s₀.positions = s.positions := by
    rw [← hstart]
    rfl
  rcases createLocalNetPlayer_cases E s₀ (readCreateLocalNetPlayer (payload packet)).1
    (readCreateLocalNetPlayer (payload packet)).2 with ⟨_, hsame⟩ | ⟨_, hset, _⟩
  · rw [hsame, hpositions]
  · rw [hset.positions]
    exact hpositions

theorem positions_handleConnectionAttemptFailed {rounds : Nat}
    (hactive : s.network.active = true) (h : s.handleConnectionAttemptFailed E rounds = .ok s') :
    s'.positions = if s.network.quitCallbacks then [] else s.positions := by
  simp only [handleConnectionAttemptFailed] at h
  split at h
  · rename_i hquit
    rw [if_pos hquit]
    exact positions_disconnect hactive h
  · rename_i hstays
    rw [if_neg hstays]
    cases h
    rfl

/-- The posts of a packet take the board of the session before to the board of the session after. -/
theorem board_update {packet : Packet} {rounds : Nat}
    (h : s.step E (.packet packet rounds) = .ok s') (heard : List (Int32 × Vec3)) :
    (afterPosts { board := s.positions, heard := heard }
      (s.posts E (.packet packet rounds))).board = s'.positions := by
  simp only [step, update] at h
  split at h
  · rename_i hover
    cases h
    simp [posts, hover]
  · rename_i hopen
    have hactive : s.network.active = true := by simpa using hopen
    simp only [posts, if_neg hopen]
    cases hkind : packet.kind with
    | connectionRequestAccepted =>
      simp only [hkind] at h
      cases h
      exact (quiet_peerSend _ _ _ _ _).toSameManager.positions.symm
    | connectionNotification =>
      simp only [hkind] at h
      exact (positions_handleConnectionNotification h).symm
    | createLocalNetPlayer =>
      simp only [hkind] at h
      cases h
      exact (positions_handleCreateLocalNetPlayer E s packet).symm
    | createNetPlayer =>
      simp only [hkind] at h
      rw [positions_createNetPlayer h]
      simp only [createdEntry]
      split <;> simp [Board.step]
    -- All records of a roster are created at the origin, whatever they say.
    | createNetPlayers =>
      simp only [hkind] at h
      rw [positions_rosterEntries h]
      simp only [afterPosts, List.foldl_map]
      exact Board.createAll_board origin _ _
    | playerMovement =>
      simp only [hkind] at h
      cases h
      exact (positions_receiveNetPlayerMovement s _ _ _).symm
    | playerRotation =>
      simp only [hkind] at h
      cases h
      exact (positions_receiveNetPlayerRotation s _ _ _).symm
    | disconnectionNotification =>
      simp only [hkind] at h
      exact positions_handleLoss hactive h heard
    | connectionLost =>
      simp only [hkind] at h
      exact positions_handleLoss hactive h heard
    | destroyNetPlayer =>
      simp only [hkind] at h
      rw [positions_destroyNetPlayer h]
      simp only [removalPosts]
      split <;> rfl
    | connectionAttemptFailed =>
      simp only [hkind] at h
      rw [positions_handleConnectionAttemptFailed hactive h]
      by_cases hquit : s.network.quitCallbacks
      · simp only [hquit, if_true]
        rfl
      · simp [hquit]
    | _ =>
      simp only [hkind] at h
      cases h
      rfl

/-- The posts of an event take the board of the session before to the board of the session
after. -/
theorem board_step {event : SessionEvent σ} (h : s.step E event = .ok s')
    (heard : List (Int32 × Vec3)) :
    (afterPosts { board := s.positions, heard := heard } (s.posts E event)).board =
      s'.positions := by
  cases event with
  | packet packet rounds => exact board_update h heard
  | updateRegionLoad =>
    cases h
    exact (quiet_updateRegionLoad E s).toSameManager.positions.symm
  | resolveMovementAcceleration =>
    exact (sameManager_runAll moves_runMovementCallback h).positions.symm
  | resolveFacingDirection =>
    exact (sameManager_runAll moves_runFacingCallback h).positions.symm
  | game engine =>
    cases h
    rfl
  | disconnect rounds =>
    cases hactive : s.network.active with
    | false =>
      simp only [step, disconnect, hactive, Bool.not_false, if_true] at h
      cases h
      simp [posts, hactive]
    | true =>
      simp only [posts, hactive, if_true]
      exact (positions_disconnect hactive h).symm

end Refinement

/-! ## What is heard -/

/-- A session, and the positions heard about network ids in it, newest first. -/
structure Tracked (σ : Type) where
  session : Session σ
  heard : List (Int32 × Vec3) := []

/-- The board of a session with what has been heard. -/
def Tracked.board (t : Tracked σ) : Board.State Int32 Vec3 where
  board := t.session.positions
  heard := t.heard

def Tracked.step (E : Engine σ) (t : Tracked σ) (event : SessionEvent σ) :
    Except Fault (Tracked σ) :=
  match t.session.step E event with
  | .error fault => .error fault
  | .ok s =>
      .ok { session := s, heard := (afterPosts t.board (t.session.posts E event)).heard }

/-- A session as it opens, with nothing heard. -/
def trackedOpened (E : Engine σ) (process : Process σ) (opening : Opening) : Tracked σ where
  session := opened E process opening

/-- Every player that is new to the session is announced at the origin, and when one of two entries
of an id goes, the other one has the position last heard. -/
def AnnouncesOrigin (E : Engine σ) (t : Tracked σ) (event : SessionEvent σ) : Prop :=
  ∀ post ∈ t.session.posts E event, Board.Sound origin t.board post

section Tracking

variable {E : Engine σ} {s s' : Session σ} {t t' : Tracked σ} {event : SessionEvent σ}

theorem Tracked.step_ok (h : t.step E event = .ok t') :
    t.session.step E event = .ok t'.session ∧
      t'.board = afterPosts t.board (t.session.posts E event) := by
  unfold Tracked.step at h
  split at h
  · cases h
  · rename_i s hstep
    cases h
    refine ⟨hstep, ?_⟩
    have hboard := board_step hstep t.heard
    simp only [Tracked.board] at hboard ⊢
    rw [← hboard]

theorem entries_of_admits {networkId : Int32} (hs : Placed s) (h : s.admits networkId = true) :
    Board.entries networkId s.positions = [] := by
  rw [Board.entries_eq_nil]
  intro hmem
  unfold admits at h
  split at h
  · cases h
  · rename_i localNetPlayer hlocal
    -- The guard of `CreateNetPlayers` asks for an id that nobody has.
    rw [Bool.and_eq_true, bne_iff_ne, beq_iff_eq] at h
    refine not_mem_networkIds hs hlocal h.1 h.2 ?_
    rw [networkIds_eq]
    refine List.mem_append_right _ ?_
    simpa [positions, Function.comp_def] using hmem

theorem fresh_rosterEntries {count : Nat} {bs : BitStream} (hs : Placed s)
    (heard : List (Int32 × Vec3)) :
    Board.Fresh origin { board := s.positions, heard := heard } (rosterEntries E count bs s) := by
  induction count generalizing bs s heard with
  | zero => trivial
  | succ count ih =>
    simp only [rosterEntries]
    cases hentry : s.createNetPlayers E (readCreateNetPlayer (E.indeterminate s.engine) bs).1.1
        (readCreateNetPlayer (E.indeterminate s.engine) bs).1.2.2
        (readCreateNetPlayer (E.indeterminate s.engine) bs).1.2.1 with
    -- The roster ends here, and so does what it posts.
    | error fault =>
      split
      · rename_i hadmits
        rw [Bool.and_eq_true] at hadmits
        exact ⟨entries_of_admits hs hadmits.1, trivial⟩
      · trivial
    | ok s₁ =>
      -- The next record is checked against a vector that holds this one.
      have hplaced := (createNetPlayers_keeps hs hentry).1
      have hpositions := positions_createNetPlayers hentry
      split
      · rename_i hadmits
        rw [if_pos hadmits] at hpositions
        rw [Bool.and_eq_true] at hadmits
        refine ⟨entries_of_admits hs hadmits.1, ?_⟩
        simp only [Board.step]
        rw [← hpositions]
        exact ih hplaced _
      · rename_i hskips
        rw [if_neg hskips, List.append_nil] at hpositions
        rw [← hpositions]
        exact ih hplaced _

/-- An event posts at most once, unless it is a roster. -/
theorem posts_cases (hs : Placed s) (event : SessionEvent σ) (heard : List (Int32 × Vec3)) :
    s.posts E event = [] ∨ (∃ post, s.posts E event = [post]) ∨
      ∃ created, s.posts E event = created.map (fun entry => .create entry.1 entry.2) ∧
        Board.Fresh origin { board := s.positions, heard := heard } created := by
  -- Each event posts nothing or one post, except for a roster.
  have hremoval : ∀ networkId, s.removalPosts E networkId = [] ∨
      ∃ post, s.removalPosts E networkId = [post] := by
    intro networkId
    unfold removalPosts
    split
    · exact Or.inr ⟨_, rfl⟩
    · exact Or.inl rfl
  have hloss : ∀ packet, s.lossPosts E packet = [] ∨ ∃ post, s.lossPosts E packet = [post] := by
    intro packet
    simp only [lossPosts]
    split
    · exact Or.inr ⟨_, rfl⟩
    · exact hremoval _
  cases event with
  | packet packet rounds =>
    simp only [posts]
    split
    · exact Or.inl rfl
    · cases packet.kind with
      | createNetPlayer =>
        simp only
        split
        · exact Or.inr (Or.inl ⟨_, rfl⟩)
        · exact Or.inl rfl
      | createNetPlayers => exact Or.inr (Or.inr ⟨_, rfl, fresh_rosterEntries hs heard⟩)
      | playerMovement => exact Or.inr (Or.inl ⟨_, rfl⟩)
      | destroyNetPlayer => exact (hremoval _).imp_right Or.inl
      | disconnectionNotification => exact (hloss packet).imp_right Or.inl
      | connectionLost => exact (hloss packet).imp_right Or.inl
      | connectionAttemptFailed =>
        simp only
        split
        · exact Or.inr (Or.inl ⟨_, rfl⟩)
        · exact Or.inl rfl
      | _ => exact Or.inl rfl
  | disconnect rounds =>
    simp only [posts]
    split
    · exact Or.inr (Or.inl ⟨_, rfl⟩)
    · exact Or.inl rfl
  | _ => exact Or.inl rfl

/-- The board of a step agrees with what is heard exactly when the step's posts are sound. -/
theorem agrees_step (hs : Placed t.session) (hagrees : Board.Agrees t.board)
    (h : t.step E event = .ok t') :
    Board.Agrees t'.board ↔ AnnouncesOrigin E t event := by
  rw [(Tracked.step_ok h).2, AnnouncesOrigin]
  rcases posts_cases (E := E) hs event t.heard with hnone | ⟨post, hpost⟩ | ⟨created, hall, hfresh⟩
  · simpa [hnone, afterPosts] using hagrees
  · simpa [hpost, afterPosts] using Board.agrees_step_iff hagrees post
  · -- A roster's ids are new, so it is sound or not as a whole.
    have hiff := Board.agrees_createAll_iff_sound hagrees hfresh
    rw [hall, afterPosts, List.foldl_map, List.forall_mem_map]
    exact hiff

theorem rosterEntries_nil (hlocal : s.localNetPlayer = none) (count : Nat) (bs : BitStream) :
    rosterEntries E count bs s = [] := by
  cases count with
  | zero => rfl
  | succ count => simp [rosterEntries, createNetPlayers, admits, hlocal]

/-- Only a removal of the first of two entries is not sound. -/
theorem isSome_of_removal (hs : Placed t.session) {networkId : Int32}
    (h : ∃ post ∈ t.session.removalPosts E networkId, ¬ Board.Sound origin t.board post) :
    t.session.localNetPlayer.isSome = true := by
  rcases h with ⟨post, hpost, hunsound⟩
  apply hs.started
  intro hnil
  unfold removalPosts at hpost
  split at hpost
  · rw [List.mem_singleton] at hpost
    subst hpost
    refine hunsound ?_
    intro first last htwo
    simp [Tracked.board, positions, hnil, Board.entries] at htwo
  · cases hpost

/-- The loss of a connection returns if one of its posts is not sound. -/
theorem returns_of_unsound_loss (hs : Placed t.session) {packet : Packet} (rounds : Nat)
    {post : Board.Post Int32 Vec3} (hpost : post ∈ t.session.lossPosts E packet)
    (hunsound : ¬ Board.Sound origin t.board post) :
    ∃ s', t.session.handleLoss E rounds packet = .ok s' := by
  simp only [lossPosts] at hpost
  split at hpost
  · -- Everybody goes, which is always sound.
    rw [List.mem_singleton] at hpost
    subst hpost
    exact absurd trivial hunsound
  · -- An entry goes, so there is a local player and the removal returns.
    rename_i hstays
    have hlocal := isSome_of_removal hs ⟨post, hpost, hunsound⟩
    rcases destroyNetPlayer_ok E hlocal
      (t.session.getNetworkIdFromAddress E packet.systemAddress) with ⟨s₁, hdestroyed⟩
    have hnetwork := (destroyNetPlayer_kept hdestroyed).2
    simp only [handleLoss, removeConnection, hdestroyed, hnetwork, if_neg hstays]
    exact ⟨_, rfl⟩

/-- A step with a post that is not sound returns. -/
theorem returns_of_unsound (hs : Placed t.session) (h : ¬ AnnouncesOrigin E t event) :
    ∃ s', t.session.step E event = .ok s' := by
  simp only [AnnouncesOrigin, not_forall] at h
  rcases h with ⟨post, hpost, hunsound⟩
  cases event with
  | packet packet rounds =>
    simp only [posts] at hpost
    split at hpost
    · cases hpost
    · rename_i hopen
      simp only [step, update, if_neg hopen]
      cases hkind : packet.kind with
      | createNetPlayer =>
        simp only [hkind] at hpost
        split at hpost
        · rename_i hadds
          rw [adds, Bool.and_eq_true] at hadds
          exact createNetPlayer_ok E hadds.1 _ _ _
        · cases hpost
      | createNetPlayers =>
        simp only [hkind] at hpost
        cases hlocal : t.session.localNetPlayer with
        | none =>
          rw [rosterEntries_nil hlocal] at hpost
          cases hpost
        | some localNetPlayer =>
          have hsome : t.session.localNetPlayer.isSome = true := by simp [hlocal]
          rcases createNetPlayersLoop_ok E ((payload packet).read (0 : Int32)).1.toNatClampNeg
            ((payload packet).read (0 : Int32)).2 hsome with ⟨s', hloop, _⟩
          exact ⟨s', hloop⟩
      | playerMovement =>
        simp only [hkind, List.mem_singleton] at hpost
        subst hpost
        exact absurd trivial hunsound
      | destroyNetPlayer =>
        simp only [hkind] at hpost
        have hlocal := isSome_of_removal hs ⟨post, hpost, hunsound⟩
        exact destroyNetPlayer_ok E hlocal _
      | disconnectionNotification =>
        simp only [hkind] at hpost
        exact returns_of_unsound_loss hs rounds hpost hunsound
      | connectionLost =>
        simp only [hkind] at hpost
        exact returns_of_unsound_loss hs rounds hpost hunsound
      | connectionAttemptFailed =>
        simp only [hkind] at hpost
        split at hpost
        · rw [List.mem_singleton] at hpost
          subst hpost
          exact absurd trivial hunsound
        · cases hpost
      | _ =>
        simp only [hkind] at hpost
        cases hpost
  | disconnect rounds =>
    simp only [posts] at hpost
    split at hpost
    · rw [List.mem_singleton] at hpost
      subst hpost
      exact absurd trivial hunsound
    · cases hpost
  | _ => cases hpost

end Tracking

/-! ## The property -/

/-- The vector has one entry with the entry's id. -/
def Alone (s : Session σ) (netPlayer : NetPlayer) : Prop :=
  (s.netPlayers.filter fun other => other.networkId == netPlayer.networkId) = [netPlayer]

/-- A run of a player's movement closure calls `SetPosition` on its creature. -/
def Relocates (E : Engine σ) (s : Session (σ × List GameCall)) (networkId : Int32)
    (creature : CreaturePtr) : Prop :=
  ∃ s' position,
    s.runMovementCallback E.recorded (.apply networkId creature) = .ok s' ∧
      GameCall.setPosition creature position ∈ s'.engine.2.drop s.engine.2.length

/-- Remote players stand where they were last announced, and nothing moves one that does. -/
structure AsAnnounced (E : Engine σ) (t : Tracked (σ × List GameCall)) : Prop where
  position : ∀ netPlayer, Alone t.session netPlayer →
    t.heard.lookup netPlayer.networkId = some netPlayer.position
  undisturbed : ∀ netPlayer creature, Alone t.session netPlayer →
    t.heard.lookup netPlayer.networkId = some (E.getPos t.session.engine.1 creature) →
      ¬ Relocates E t.session netPlayer.networkId creature

section Property

variable {E : Engine σ}

theorem entries_positions (s : Session σ) (networkId : Int32) :
    Board.entries networkId s.positions =
      (s.netPlayers.filter fun netPlayer => netPlayer.networkId == networkId).map
        fun netPlayer => (netPlayer.networkId, netPlayer.position) := by
  unfold Board.entries positions
  rw [List.filter_map]
  rfl

theorem agrees_iff (t : Tracked σ) :
    Board.Agrees t.board ↔ ∀ netPlayer, Alone t.session netPlayer →
      t.heard.lookup netPlayer.networkId = some netPlayer.position := by
  constructor
  · intro h netPlayer halone
    refine h netPlayer.networkId netPlayer.position ?_
    simp only [Tracked.board, entries_positions]
    rw [halone]
    rfl
  · -- The board's single entry is the position of the vector's single entry.
    intro h networkId position hentries
    simp only [Tracked.board, entries_positions] at hentries
    rcases List.map_eq_singleton_iff.1 hentries with ⟨netPlayer, hfilter, heq⟩
    have hid : netPlayer.networkId = networkId := congrArg Prod.fst heq
    have hposition : netPlayer.position = position := congrArg Prod.snd heq
    have halone : Alone t.session netPlayer := by
      rw [Alone, hid]
      exact hfilter
    rw [← hid, ← hposition]
    exact h netPlayer halone

theorem Alone.find {s : Session σ} {netPlayer : NetPlayer} (h : Alone s netPlayer) :
    (s.netPlayers.find? fun other => other.networkId == netPlayer.networkId) =
      some netPlayer := by
  rw [← List.head?_filter, h]
  rfl

/-- There is no drift from a position to itself, not even from one that is no number. -/
theorem not_drifted (position : Vec3) : drifted position position = false := by
  have hx := (Binary32.vanishes_sub position.x).mul_self
  have hy := (Binary32.vanishes_sub position.y).mul_self
  have hz := (Binary32.vanishes_sub position.z).mul_self
  exact ((hx.add hy).add hz).not_one_lt

-- One unit is no drift yet; a unit and a quarter along any axis is, and one unit along two of them.
example :
    drifted { x := 0x3F800000 } {} = false ∧ drifted { x := 0x3FA00000 } {} = true ∧
      drifted {} { y := 0xBFA00000 } = true ∧ drifted { z := 0x3FA00000 } {} = true ∧
      drifted { x := 0x3F800000 } { y := 0x3F800000 } = true := by
  decide +kernel

/-- A creature at the entry's position is not moved by the entry's closure. -/
theorem not_relocates (hstill : ∀ e creature acceleration,
      E.getPos (E.setMovementAcceleration e creature acceleration) creature = E.getPos e creature)
    {s : Session (σ × List GameCall)} {netPlayer : NetPlayer} (halone : Alone s netPlayer)
    {creature : CreaturePtr} (hat : E.getPos s.engine.1 creature = netPlayer.position) :
    ¬ Relocates E s netPlayer.networkId creature := by
  rintro ⟨s', position, hrun, hmoved⟩
  have hpos := hstill s.engine.1 creature netPlayer.movementAcceleration
  -- The drift test runs behind the write of the acceleration.
  have hnear : drifted netPlayer.position
      (E.recorded.getPos (E.recorded.setMovementAcceleration s.engine creature
        netPlayer.movementAcceleration) creature) = false := by
    simp only [Engine.recorded]
    rw [hpos, hat]
    exact not_drifted _
  simp only [runMovementCallback, halone.find, hnear, Bool.false_eq_true, if_false] at hrun
  cases hrun
  simp [Engine.recorded] at hmoved

/-- One that has drifted away from it is moved there. -/
theorem relocates_of_drifted {s : Session (σ × List GameCall)} {netPlayer : NetPlayer}
    (halone : Alone s netPlayer) {creature : CreaturePtr}
    (haway : drifted netPlayer.position
      (E.getPos (E.setMovementAcceleration s.engine.1 creature netPlayer.movementAcceleration)
        creature) = true) :
    Relocates E s netPlayer.networkId creature := by
  let accelerated :=
    E.recorded.setMovementAcceleration s.engine creature netPlayer.movementAcceleration
  have hrun : s.runMovementCallback E.recorded (.apply netPlayer.networkId creature) =
      .ok { s with
        engine := E.recorded.setPosition accelerated creature netPlayer.position } := by
    simp only [runMovementCallback, halone.find]
    exact if_pos haway
  exact ⟨_, netPlayer.position, hrun, by simp [accelerated, Engine.recorded]⟩

theorem asAnnounced_iff (hstill : ∀ e creature acceleration,
      E.getPos (E.setMovementAcceleration e creature acceleration) creature = E.getPos e creature)
    (t : Tracked (σ × List GameCall)) : AsAnnounced E t ↔ Board.Agrees t.board := by
  rw [agrees_iff]
  constructor
  · intro h
    exact h.position
  · intro h
    refine ⟨h, ?_⟩
    intro netPlayer creature halone hat
    have hposition := Option.some.inj (hat.symm.trans (h netPlayer halone))
    exact not_relocates hstill halone hposition

/-- In a session of the mod, as host or as client, every net player with a single entry has the
position of the last message about it, and its closure does not move a creature that stands there,
exactly when all players are created at the origin. -/
theorem as_announced_iff (E : Engine σ) (hstill : ∀ e creature acceleration,
      E.getPos (E.setMovementAcceleration e creature acceleration) creature = E.getPos e creature)
    (process : Process (σ × List GameCall)) (opening : Opening)
    (events : List (SessionEvent (σ × List GameCall))) :
    Fallible.StatesSatisfy (Tracked.step E.recorded) (AsAnnounced E)
        (trackedOpened E.recorded process opening) events ↔
      Fallible.StepsSatisfy (Tracked.step E.recorded) (AnnouncesOrigin E.recorded)
        (trackedOpened E.recorded process opening) events := by
  have hopened := opened_players E.recorded process opening
  refine Fallible.statesSatisfy_iff (J := fun t => Placed t.session) ?_ hopened.1 ?_ ?_ ?_
  · -- A session opens without net players.
    rw [asAnnounced_iff hstill]
    intro networkId position hentries
    simp [Tracked.board, trackedOpened, positions, hopened.2, Board.entries] at hentries
  · intro t event t' hs hstep
    exact hs.step (Tracked.step_ok hstep).1
  · intro t event t' hs hannounced horigin hstep
    rw [asAnnounced_iff hstill] at hannounced ⊢
    exact (agrees_step hs hannounced hstep).2 horigin
  · -- A post that is not sound breaks the agreement, and its step does return.
    intro t event hs hannounced hnot
    rw [asAnnounced_iff hstill] at hannounced
    rcases returns_of_unsound hs hnot with ⟨s', hstep⟩
    have htracked : ∃ t', t.step E.recorded event = .ok t' := by
      simp only [Tracked.step, hstep]
      exact ⟨_, rfl⟩
    rcases htracked with ⟨t', htracked⟩
    refine ⟨t', htracked, ?_⟩
    rw [asAnnounced_iff hstill]
    exact fun hagrees => hnot ((agrees_step hs hannounced htracked).1 hagrees)

end Property

/-! ### A player announced away from the origin -/

/-- Two units along the first axis. -/
def announcedAt : Vec3 := { x := 0x40000000 }

/-- A game whose creatures stand there. -/
def standingEngine : Engine Engine.Table :=
  { Engine.table exampleAddress with getPos := fun _ _ => announcedAt }

/-- The announcement of player 1. -/
def announcedPacket : Packet where
  systemAddress := exampleAddress "" 50001
  guid := 1
  data := (createNetPlayerMessage 1 2000 announcedAt).data
  nonempty := by decide

theorem as_announced_iff_standing :
    Fallible.StatesSatisfy (Tracked.step standingEngine.recorded) (AsAnnounced standingEngine)
        (trackedOpened standingEngine.recorded recordedProcess (.host 60000 true))
        [.packet announcedPacket 0] ↔
      Fallible.StepsSatisfy (Tracked.step standingEngine.recorded)
        (AnnouncesOrigin standingEngine.recorded)
        (trackedOpened standingEngine.recorded recordedProcess (.host 60000 true))
        [.packet announcedPacket 0] :=
  as_announced_iff standingEngine (by intros; rfl) recordedProcess
    (.host 60000 true) [.packet announcedPacket 0]

/-- The host once player 1 has announced itself. -/
def announcedHost : Tracked (Engine.Table × List GameCall) where
  session :=
    { opened standingEngine.recorded recordedProcess (.host 60000 true) with
      engine := ([(1, 2000), (0, 1000)], [])
      resolveMovementAccelerationCallbacks :=
        [(movementKey 0, .broadcast 0 0), (movementKey 1, .apply 1 1)]
      resolveFacingDirectionCallbacks :=
        [(facingKey 0, .broadcast 0 0), (facingKey 1, .apply 1 1)]
      netPlayers := [{ networkId := 1, localId := 1 }] }
  heard := [(1, announcedAt)]

theorem run_announcedHost :
    Fallible.run (Tracked.step standingEngine.recorded)
      (trackedOpened standingEngine.recorded recordedProcess (.host 60000 true))
      [.packet announcedPacket 0] = .ok announcedHost :=
  rfl

theorem origin_drifted : drifted origin announcedAt = true := by
  decide +kernel

theorem announcedHost_relocates : Relocates standingEngine announcedHost.session 1 1 := by
  have halone : Alone announcedHost.session { networkId := 1, localId := 1 } := rfl
  exact relocates_of_drifted halone origin_drifted

/-- The host announces player 1 where it stands; the first run of its closure moves it to the
origin. -/
theorem announced_player_moves :
    ¬ ∀ (E : Engine Engine.Table),
        (∀ e creature acceleration,
          E.getPos (E.setMovementAcceleration e creature acceleration) creature =
            E.getPos e creature) →
        ∀ (process : Process (Engine.Table × List GameCall)) (opening : Opening)
          (events : List (SessionEvent (Engine.Table × List GameCall))),
          Fallible.StatesSatisfy (Tracked.step E.recorded) (AsAnnounced E)
            (trackedOpened E.recorded process opening) events := by
  intro hall
  have hstands := hall standingEngine (by intros; rfl) recordedProcess
    (.host 60000 true) [.packet announcedPacket 0] [.packet announcedPacket 0] [] rfl
    announcedHost run_announcedHost
  exact hstands.undisturbed { networkId := 1, localId := 1 } 1 rfl rfl announcedHost_relocates

end Session
end Mod
end Crossover
