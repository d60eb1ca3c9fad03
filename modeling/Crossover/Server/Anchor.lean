import Crossover.Lib.Listener
import Crossover.Server.Isolation

/-!
# Anchor — whose position a joining client is sent to

The anchor is meant to be the longest-standing player, and `AnchorPlayer` takes the spawned player
with the lowest id for it.  Ids are handed out again, so the two differ once somebody has joined on
an id that became free below the senior's.  `Chronicle` is what an observer notes down: who has a
record, in the order of joining, and the positions that have been reported.
-/

namespace Crossover
namespace Server

open Wire History

/-! ## The anchor by id -/

/-- What `AnchorPlayer` has found after a part of the vector. -/
def LowestOf (players : List Player) : Option Player → Prop
  | none => ∀ p ∈ players, p.spawned = false
  | some best => best ∈ players ∧ best.spawned = true ∧
      ∀ q ∈ players, q.spawned = true → best.networkId ≤ q.networkId

theorem anchorPlayer_snoc (players : List Player) (p : Player) :
    anchorPlayer (players ++ [p]) =
      if !p.spawned then anchorPlayer players
      else
        match anchorPlayer players with
        | none => some p
        | some b => if p.networkId < b.networkId then some p else anchorPlayer players := by
  rw [anchorPlayer, List.foldl_append]
  rfl

theorem lowestOf_anchorPlayer (players : List Player) :
    LowestOf players (anchorPlayer players) := by
  -- `AnchorPlayer` goes over the vector from the front, so the induction adds at the end.
  induction players using List.reverseRecOn with
  | nil =>
    intro p hp
    cases hp
  | append_singleton players p ih =>
    rw [anchorPlayer_snoc]
    cases hspawned : p.spawned with
    | false =>
      have hskip : ∀ q ∈ players ++ [p], q.spawned = true → q ∈ players := by
        intro q hq hqspawned
        rcases List.mem_append.1 hq with hq | hq
        · exact hq
        · rw [List.mem_singleton.1 hq, hspawned] at hqspawned
          cases hqspawned
      cases hbest : anchorPlayer players with
      | none =>
        rw [hbest] at ih
        intro q hq
        rw [Bool.eq_false_iff]
        intro hqspawned
        have hnot := ih q (hskip q hq hqspawned)
        rw [hqspawned] at hnot
        cases hnot
      | some best =>
        rw [hbest] at ih
        exact ⟨List.mem_append_left _ ih.1, ih.2.1,
          fun q hq hqspawned => ih.2.2 q (hskip q hq hqspawned) hqspawned⟩
    | true =>
      have hlast : p ∈ players ++ [p] := by simp
      have hcases : ∀ q ∈ players ++ [p], q ∈ players ∨ q = p := by
        intro q hq
        simpa using hq
      cases hbest : anchorPlayer players with
      | none =>
        rw [hbest] at ih
        refine ⟨hlast, hspawned, ?_⟩
        intro q hq hqspawned
        rcases hcases q hq with hq | rfl
        · rw [ih q hq] at hqspawned
          cases hqspawned
        · exact Int32.le_refl _
      | some best =>
        rw [hbest] at ih
        rcases ih with ⟨hmem, hbestSpawned, hleast⟩
        -- The loop's comparison is strict: on equal ids the earlier record stays.
        by_cases hlt : p.networkId < best.networkId
        · simp only [Bool.not_true, Bool.false_eq_true, if_false, if_pos hlt]
          refine ⟨hlast, hspawned, ?_⟩
          intro q hq hqspawned
          rcases hcases q hq with hq | rfl
          · exact Int32.le_trans (Int32.le_of_lt hlt) (hleast q hq hqspawned)
          · exact Int32.le_refl _
        · simp only [Bool.not_true, Bool.false_eq_true, if_false, if_neg hlt]
          refine ⟨List.mem_append_left _ hmem, hbestSpawned, ?_⟩
          intro q hq hqspawned
          rcases hcases q hq with hq | rfl
          · exact hleast q hq hqspawned
          · exact Int32.not_lt.1 hlt

/-! ## The chronicle -/

/-- The addresses that have a record, in the order in which they got it, and every report of a
position, in order. -/
structure Chronicle where
  standing : List SystemAddress := []
  reports : List (SystemAddress × Vec3) := []
  deriving DecidableEq, Repr

/-- The position in a packet of this player that the server takes note of. -/
def reportedPosition (self : Player) (packet : Packet) : Option Vec3 :=
  match packet.kind with
  | .createNetPlayer =>
      if packet.length < kSizeCreateNetPlayer then none else some (readCreateNetPlayer packet).2.2
  | .playerMovement =>
      if packet.length < kSizePlayerMovement ∨ self.spawned = false then none
      else some (readMotion packet).2.1
  | _ => none

/-- The report in an event: the flood guard lets it through and its sender has a record. -/
def report (s : RelayServer) : Event → Option (SystemAddress × Vec3)
  | .packet packet tickMs _ =>
      match findByAddress s.players packet.systemAddress with
      | none => none
      | some self =>
          if (RelayServer.account self tickMs).2 then
            (reportedPosition self packet).map fun position => (packet.systemAddress, position)
          else none
  | _ => none

namespace Chronicle

/-- Who has gone is crossed out, who is new is written at the end. -/
def attend (standing : List SystemAddress) (present : List SystemAddress) : List SystemAddress :=
  standing.filter (fun a => decide (a ∈ present)) ++
    present.filter fun a => !decide (a ∈ standing)

def observe (c : Chronicle) (s : RelayServer) (event : Event) : Chronicle where
  standing := attend c.standing ((step s event).1.players.map Player.address)
  reports := c.reports ++ (report s event).toList

/-- The last position that a client has reported. -/
def lastReport (c : Chronicle) (a : SystemAddress) : Option Vec3 :=
  (c.reports.reverse.find? fun r => r.1 == a).map Prod.snd

/-- The spawned player that has had its record for the longest time. -/
def longestStanding (c : Chronicle) (players : List Player) : Option Player :=
  c.standing.findSome? fun a => (findByAddress players a).filter Player.spawned

end Chronicle

/-- What an observer of the run has written. -/
def chronicle (s₀ : RelayServer) (events : List Event) : Chronicle :=
  (events.foldl (fun state event => ((step state.1 event).1, state.2.observe state.1 event))
    (s₀, ({} : Chronicle))).2

theorem chronicle_snoc (s₀ : RelayServer) (events : List Event) (event : Event) :
    chronicle s₀ (events ++ [event]) =
      (chronicle s₀ events).observe (server.state s₀ events) event := by
  have hstate : ∀ events : List Event,
      (events.foldl (fun state event => ((step state.1 event).1, state.2.observe state.1 event))
        (s₀, ({} : Chronicle))).1 = server.state s₀ events := by
    intro events
    induction events using List.reverseRecOn with
    | nil => rfl
    | append_singleton events event ih =>
      rw [List.foldl_append, Machine.state_snoc, ← ih]
      rfl
  rw [chronicle, List.foldl_append, ← hstate]
  rfl

/-! ## Reports -/

namespace Chronicle

variable {c : Chronicle} {s : RelayServer} {event : Event} {a : SystemAddress}

theorem lastReport_of_report {position : Vec3} (h : report s event = some (a, position)) :
    (c.observe s event).lastReport a = some position := by
  simp [lastReport, observe, h]

theorem lastReport_of_other (h : ∀ position, report s event ≠ some (a, position)) :
    (c.observe s event).lastReport a = c.lastReport a := by
  cases hreport : report s event with
  | none => simp [lastReport, observe, hreport]
  | some r =>
    have hne : ¬ r.1 = a := by
      intro heq
      exact h r.2 (by rw [hreport, ← heq])
    simp [lastReport, observe, hreport, hne]

end Chronicle

section Reports

variable {s : RelayServer} {packet : Packet} {self p : Player}

/-- An assignment through the pointer reaches the record the lookup finds, no other. -/
theorem eq_of_find_updateByAddress
    (hself : findByAddress s.players packet.systemAddress = some self) {f : Player → Player}
    (hf : ∀ q, (f q).address = q.address)
    (hafter : findByAddress (updateByAddress packet.systemAddress f s.players)
      packet.systemAddress = some p) : p = f self := by
  rw [findByAddress_updateByAddress f hf, hself, Option.map_some,
    if_pos (findByAddress_address hself)] at hafter
  exact (Option.some.inj hafter).symm

/-- A drop takes the sender's record away. -/
theorem not_mem_of_drop (h : TableInv s)
    (hself : findByAddress s.players packet.systemAddress = some self) {nowMs : Int}
    (hdrop : IsDrop packet) (haddr : p.address = packet.systemAddress) :
    p ∉ (s.dispatch packet nowMs).1.players := by
  intro hmem
  rw [dispatch_drop hdrop, handleDrop_eq hself] at hmem
  rcases List.mem_filter.1 hmem with ⟨hold, hid⟩
  have hsame := h.eq_of_address hold (findByAddress_mem hself)
    (haddr.trans (findByAddress_address hself).symm)
  simp [hsame] at hid

/-- The sender's record after its packet has been handled: it stands where the packet says, or where
it stood if the packet says nothing. -/
theorem position_dispatch (h : TableInv s)
    (hself : findByAddress s.players packet.systemAddress = some self)
    {nowMs : Int} (hp : p ∈ (s.dispatch packet nowMs).1.players)
    (haddr : p.address = packet.systemAddress) :
    reportedPosition self packet = some p.position ∨
      reportedPosition self packet = none ∧ p.spawned = self.spawned ∧
        p.position = self.position := by
  have hinv := (keepsTable_dispatch s packet nowMs).inv h
  have hfind := findByAddress_of_mem hinv.addrs hp
  rw [haddr] at hfind
  have hkept : (s.dispatch packet nowMs).1 = s → reportedPosition self packet = none →
      reportedPosition self packet = none ∧ p.spawned = self.spawned ∧
        p.position = self.position := by
    intro hsame hnone
    rw [hsame, hself] at hfind
    rw [← Option.some.inj hfind]
    exact ⟨hnone, rfl, rfl⟩
  cases hkind : packet.kind with
  | connectionNotification =>
    refine Or.inr (hkept ?_ (by simp only [reportedPosition, hkind]))
    simp only [RelayServer.dispatch, hkind, handleConnectionNotification_known hself]
  | createNetPlayer =>
    simp only [RelayServer.dispatch, hkind] at hfind
    by_cases hlen : packet.length < kSizeCreateNetPlayer
    · refine Or.inr (hkept ?_ (by simp only [reportedPosition, hkind, if_pos hlen]))
      simp only [RelayServer.dispatch, hkind, handleCreateNetPlayer_short hlen]
    · rw [handleCreateNetPlayer_eq (Nat.not_lt.1 hlen) hself] at hfind
      have hspawn := eq_of_find_updateByAddress hself (by intro q; rfl) hfind
      refine Or.inl ?_
      simp only [reportedPosition, hkind, if_neg hlen, hspawn, Player.spawnAs]
  | playerMovement =>
    -- The two tests of `HandlePlayerMovement`, in its order.
    by_cases hdropped : packet.length < kSizePlayerMovement ∨ self.spawned = false
    · refine Or.inr (hkept ?_ (by simp only [reportedPosition, hkind, if_pos hdropped]))
      have hrelayed : relayedLength packet.kind = some kSizePlayerMovement := by
        simp only [relayedLength, hkind]
      rw [dispatch_rejected hrelayed]
      refine hdropped.imp_right ?_
      intro hunspawned q hq
      rw [hself] at hq
      rw [← Option.some.inj hq]
      exact ⟨by rw [hkind]; decide, hunspawned⟩
    · rcases not_or.1 hdropped with ⟨hlen, hspawned⟩
      have hspawned' : self.spawned = true := by simpa using hspawned
      simp only [RelayServer.dispatch, hkind, RelayServer.handlePlayerMovement,
        RelayServer.handleMotion, if_neg hlen, hself, hspawned', Bool.not_true,
        Bool.false_eq_true, if_false] at hfind
      have hstored := eq_of_find_updateByAddress hself (by intro q; rfl) hfind
      refine Or.inl ?_
      simp only [reportedPosition, hkind, if_neg hdropped, hstored]
  | playerRotation =>
    -- A rotation stores two vectors, but not the position.
    have hnone : reportedPosition self packet = none := by simp only [reportedPosition, hkind]
    refine Or.inr ⟨hnone, ?_⟩
    simp only [RelayServer.dispatch, hkind, RelayServer.handlePlayerRotation,
      RelayServer.handleMotion, hself] at hfind
    split at hfind
    · rw [← Option.some.inj (hself.symm.trans hfind)]
      exact ⟨rfl, rfl⟩
    · split at hfind
      · rw [← Option.some.inj (hself.symm.trans hfind)]
        exact ⟨rfl, rfl⟩
      · rw [eq_of_find_updateByAddress hself (by intro q; rfl) hfind]
        exact ⟨rfl, rfl⟩
  -- There is nothing to say of a record that is taken away.
  | disconnectionNotification => exact absurd hp (not_mem_of_drop h hself (Or.inl hkind) haddr)
  | connectionLost => exact absurd hp (not_mem_of_drop h hself (Or.inr hkind) haddr)
  | _ =>
    refine Or.inr (hkept ?_ (by simp only [reportedPosition, hkind]))
    simp only [RelayServer.dispatch, hkind]

/-- Counting a packet changes neither whether its sender has spawned nor where it stands. -/
theorem account_stands (self : Player) (nowMs : Int) :
    (RelayServer.account self nowMs).1.spawned = self.spawned ∧
      (RelayServer.account self nowMs).1.position = self.position := by
  have hannounced := account_announced self nowMs
  simp only [Player.announced, Prod.mk.injEq] at hannounced
  exact ⟨hannounced.1, hannounced.2.2.1⟩

theorem reportedPosition_account (self : Player) (nowMs : Int) (packet : Packet) :
    reportedPosition (RelayServer.account self nowMs).1 packet = reportedPosition self packet := by
  simp only [reportedPosition, (account_stands self nowMs).1]

/-- Where a spawned player stands after the step: it has just reported its position, or it stood
there before and the report, if there is one, is somebody else's. -/
def Stands (s : RelayServer) (event : Event) (p : Player) : Prop :=
  report s event = some (p.address, p.position) ∨
    (∃ q ∈ s.players, q.address = p.address ∧ q.spawned = true ∧ q.position = p.position) ∧
      ∀ position, report s event ≠ some (p.address, position)

/-- The same of any record: one that is new has not spawned and stands at the origin. -/
def Placed (s : RelayServer) (event : Event) (p : Player) : Prop :=
  report s event = some (p.address, p.position) ∨
    ((∃ q ∈ s.players, q.address = p.address ∧ q.spawned = p.spawned ∧ q.position = p.position) ∨
      p.spawned = false ∧ p.position = {}) ∧
      ∀ position, report s event ≠ some (p.address, position)

theorem placed_of_sender (h : TableInv s)
    (hself : findByAddress s.players packet.systemAddress = some self) {tickMs handlerMs : Int}
    (hp : p ∈ (s.tickPacket packet tickMs handlerMs).1.players)
    (haddr : p.address = packet.systemAddress) : Placed s (.packet packet tickMs handlerMs) p := by
  have hbooked := find_bookkeep hself tickMs
  have hinv := (keepsTable_bookkeep s packet tickMs).inv h
  have haccepted : (s.bookkeep packet tickMs).2 = (RelayServer.account self tickMs).2 := by
    rw [bookkeep_of_find hself]
  have hstands := account_stands self tickMs
  have hold : self ∈ s.players ∧ self.address = p.address :=
    ⟨findByAddress_mem hself, (findByAddress_address hself).trans haddr.symm⟩
  cases haccept : (RelayServer.account self tickMs).2 with
  -- The flood guard turned the packet away: only the counters have changed.
  | false =>
    have hnone : report s (.packet packet tickMs handlerMs) = none := by
      simp only [report, hself, haccept, Bool.false_eq_true, if_false]
    simp only [RelayServer.tickPacket, haccepted, haccept, Bool.false_eq_true, if_false] at hp
    have hfind := findByAddress_of_mem hinv.addrs hp
    rw [haddr, hbooked] at hfind
    have hsame := Option.some.inj hfind
    refine Or.inr ⟨Or.inl ⟨self, hold.1, hold.2, ?_, ?_⟩, ?_⟩
    · rw [← hstands.1, hsame]
    · rw [← hstands.2, hsame]
    · rw [hnone]
      simp
  | true =>
    have hreport : report s (.packet packet tickMs handlerMs) =
        (reportedPosition self packet).map fun position => (packet.systemAddress, position) := by
      simp only [report, hself, haccept, if_true]
    simp only [RelayServer.tickPacket, haccepted, haccept, if_true] at hp
    have hposition := position_dispatch hinv hbooked hp haddr
    rw [reportedPosition_account, hstands.1, hstands.2] at hposition
    rcases hposition with htold | ⟨hnone, hkept, hstood⟩
    · refine Or.inl ?_
      rw [hreport, htold, haddr]
      rfl
    · refine Or.inr ⟨Or.inl ⟨self, hold.1, hold.2, hkept.symm, hstood.symm⟩, ?_⟩
      rw [hreport, hnone]
      simp

/-- A record that a packet from an unknown address creates is new. -/
theorem placed_of_stranger (hfind : findByAddress s.players packet.systemAddress = none)
    {tickMs handlerMs : Int} (hp : p ∈ (s.tickPacket packet tickMs handlerMs).1.players)
    (haddr : p.address = packet.systemAddress) : Placed s (.packet packet tickMs handlerMs) p := by
  have hbooked := bookkeep_of_stranger hfind tickMs
  have hnobody : p ∉ s.players := fun hmem => findByAddress_eq_none.1 hfind p hmem haddr
  have hnone : report s (.packet packet tickMs handlerMs) = none := by
    simp only [report, hfind]
  refine Or.inr ⟨Or.inr ?_, by simp [hnone]⟩
  simp only [RelayServer.tickPacket, hbooked, if_true] at hp
  -- Only a join request makes a record; nothing else from a stranger changes the table.
  by_cases hkind : packet.kind = .connectionNotification
  · simp only [RelayServer.dispatch, hkind] at hp
    by_cases hfull : Int32.ofNat s.players.length ≥ s.config.maxPlayers
    · rw [handleConnectionNotification_full hfind hfull] at hp
      exact absurd hp hnobody
    · rw [handleConnectionNotification_join hfind hfull] at hp
      rcases List.mem_append.1 hp with hp | hp
      · exact absurd hp hnobody
      · rw [List.mem_singleton.1 hp]
        exact ⟨rfl, rfl⟩
  · rw [dispatch_stranger hfind hkind] at hp
    exact absurd hp hnobody

theorem placed_step {config : Config} (h : ServerInv config s) {event : Event}
    (hp : p ∈ (step s event).1.players) : Placed s event p := by
  cases hpeer : s.peer with
  | false =>
    simp only [step, hpeer, Bool.not_false, if_true, h.stopped hpeer] at hp
    cases hp
  | true =>
    simp only [step, hpeer, Bool.not_true, Bool.false_eq_true, if_false] at hp
    cases event with
    | packet packet tickMs handlerMs =>
      by_cases haddr : p.address = packet.systemAddress
      · cases hself : findByAddress s.players packet.systemAddress with
        | none => exact placed_of_stranger hself hp haddr
        | some self => exact placed_of_sender h.table hself hp haddr
      · -- Somebody else's record is the one before the step.
        have hother : p ∈ othersOf packet.systemAddress s.players := by
          rw [← (isolates_tickPacket h.table packet tickMs handlerMs).others]
          exact List.mem_filter.2 ⟨hp, by simpa using haddr⟩
        refine Or.inr ⟨Or.inl ⟨p, (List.mem_filter.1 hother).1, rfl, rfl, rfl⟩, ?_⟩
        intro position hreport
        simp only [report] at hreport
        split at hreport
        · cases hreport
        · split at hreport
          · rcases Option.map_eq_some_iff.1 hreport with ⟨_, _, hpair⟩
            exact haddr (congrArg Prod.fst hpair).symm
          · cases hreport
    | tickEnd nowMs persistMs writable =>
      rw [tickEnd_players] at hp
      exact Or.inr ⟨Or.inl ⟨p, hp, rfl, rfl, rfl⟩, fun position => by simp [report]⟩
    | stop writable => cases hp

theorem stands_step {config : Config} (h : ServerInv config s) {event : Event}
    (hp : p ∈ (step s event).1.players) (hspawned : p.spawned = true) : Stands s event p := by
  rcases placed_step h hp with hreport | ⟨⟨q, hq, haddr, hsame, hstood⟩ | ⟨hnew, -⟩, hnone⟩
  · exact Or.inl hreport
  · exact Or.inr ⟨⟨q, hq, haddr, hsame.trans hspawned, hstood⟩, hnone⟩
  · rw [hnew] at hspawned
    cases hspawned

/-- A packet with a report in it leaves its sender's record in the table. -/
theorem exists_sender_dispatch {nowMs : Int} {position : Vec3}
    (hself : findByAddress s.players packet.systemAddress = some self)
    (h : reportedPosition self packet = some position) :
    ∃ p ∈ (s.dispatch packet nowMs).1.players, p.address = packet.systemAddress := by
  have hupdated : ∀ f : Player → Player, (∀ q, (f q).address = q.address) →
      ∃ p ∈ updateByAddress packet.systemAddress f s.players,
        p.address = packet.systemAddress := by
    intro f hf
    have hfind : findByAddress (updateByAddress packet.systemAddress f s.players)
        packet.systemAddress = some (f self) := by
      rw [findByAddress_updateByAddress f hf, hself, Option.map_some,
        if_pos (findByAddress_address hself)]
    exact ⟨_, findByAddress_mem hfind, findByAddress_address hfind⟩
  cases hkind : packet.kind with
  | createNetPlayer =>
    simp only [reportedPosition, hkind] at h
    split at h
    · cases h
    · rename_i hlen
      simp only [RelayServer.dispatch, hkind]
      rw [handleCreateNetPlayer_eq (Nat.not_lt.1 hlen) hself]
      exact hupdated _ fun q => rfl
  | playerMovement =>
    simp only [reportedPosition, hkind] at h
    split at h
    · cases h
    · rename_i hkept
      rcases not_or.1 hkept with ⟨hlen, hspawned⟩
      have hspawned' : self.spawned = true := by simpa using hspawned
      simp only [RelayServer.dispatch, hkind, RelayServer.handlePlayerMovement,
        RelayServer.handleMotion, if_neg hlen, hself, hspawned', Bool.not_true,
        Bool.false_eq_true, if_false]
      exact hupdated _ fun q => rfl
  | _ =>
    simp only [reportedPosition, hkind] at h
    cases h

/-- Who has reported a position stands there. -/
theorem exists_of_report {config : Config} (h : ServerInv config s) {event : Event}
    {r : SystemAddress × Vec3} (hreport : report s event = some r) :
    ∃ p ∈ (step s event).1.players, p.position = r.2 := by
  cases event with
  | packet packet tickMs handlerMs =>
    cases hself : findByAddress s.players packet.systemAddress with
    | none => simp [report, hself] at hreport
    | some self =>
      have hpeer : s.peer = true := by
        by_contra hstopped
        rw [h.stopped (by simpa using hstopped)] at hself
        cases hself
      cases haccept : (RelayServer.account self tickMs).2 with
      | false => simp [report, hself, haccept] at hreport
      | true =>
        have hstep : (step s (.packet packet tickMs handlerMs)).1 =
            ((s.bookkeep packet tickMs).1.dispatch packet handlerMs).1 := by
          simp [step, hpeer, RelayServer.tickPacket, bookkeep_of_find hself, haccept]
        have htold := hreport
        simp only [report, hself, haccept, if_true] at htold
        rcases Option.map_eq_some_iff.1 htold with ⟨position, hposition, rfl⟩
        rw [← reportedPosition_account self tickMs] at hposition
        rcases exists_sender_dispatch (find_bookkeep hself tickMs) hposition with ⟨p, hp, haddr⟩
        rw [← hstep] at hp
        refine ⟨p, hp, ?_⟩
        rcases placed_step h hp with hsaid | ⟨-, hsilent⟩
        · rw [hreport] at hsaid
          exact (congrArg Prod.snd (Option.some.inj hsaid)).symm
        · exact absurd (by rw [hreport, haddr]) (hsilent position)
  | tickEnd nowMs persistMs writable => cases hreport
  | stop writable => cases hreport

end Reports

/-! ## The chronicle is right -/

/-- What the chronicle says about a state. -/
structure Chronicles (c : Chronicle) (s : RelayServer) : Prop where
  standing : c.standing = s.players.map Player.address
  positions : ∀ p ∈ s.players, p.spawned = true → c.lastReport p.address = some p.position

theorem attend_self (l : List SystemAddress) : Chronicle.attend l l = l := by
  have hkept : l.filter (fun a => decide (a ∈ l)) = l :=
    List.filter_eq_self.2 fun a ha => decide_eq_true ha
  have hnobody : l.filter (fun a => !decide (a ∈ l)) = [] :=
    List.filter_eq_nil_iff.2 fun a ha => by simp [ha]
  rw [Chronicle.attend, hkept, hnobody, List.append_nil]

theorem attend_snoc {l : List SystemAddress} {a : SystemAddress} (ha : a ∉ l) :
    Chronicle.attend l (l ++ [a]) = l ++ [a] := by
  have hkept : l.filter (fun b => decide (b ∈ l ++ [a])) = l :=
    List.filter_eq_self.2 fun b hb => by simp [hb]
  have hnew : (l ++ [a]).filter (fun b => !decide (b ∈ l)) = [a] := by
    rw [List.filter_append, List.filter_eq_nil_iff.2 fun b hb => by simp [hb]]
    simp [ha]
  rw [Chronicle.attend, hkept, hnew]

/-- A step keeps the order of the addresses: it crosses some out or writes a new one at the end. -/
theorem attend_step {s : RelayServer} (h : TableInv s) (event : Event) :
    Chronicle.attend (s.players.map Player.address) ((step s event).1.players.map Player.address) =
      (step s event).1.players.map Player.address := by
  have haddrs : ∀ players : List Player,
      players.map Player.address = (members players).map Lobby.Member.addr := by
    intro players
    simp [members, Function.comp_def, Player.member]
  have hstep := (stepsLobby_step h event).step
  have hnodup := h.addrs
  rw [haddrs] at hnodup
  rw [haddrs, haddrs]
  generalize members s.players = T, members (step s event).1.players = T',
    act s event = what, notes (step s event).2 = out at hstep hnodup
  cases hstep with
  | idle => exact attend_self _
  | join _ a id info hfree _ =>
    have hnew : a ∉ T.map Lobby.Member.addr := by
      intro hmem
      rcases List.mem_map.1 hmem with ⟨m, hm, heq⟩
      exact hfree m hm heq
    rw [List.map_append]
    exact attend_snoc hnew
  | announce before after m info =>
    have hmap : (before ++ m.announce info :: after).map Lobby.Member.addr =
        (before ++ m :: after).map Lobby.Member.addr := by simp [Lobby.Member.announce]
    rw [hmap]
    exact attend_self _
  | relay => exact attend_self _
  | leave _ m _ =>
    -- Whoever is still there has another id, and an address of his own.
    have hkept : (T.map Lobby.Member.addr).filter
        (fun a => decide (a ∈ (Lobby.without T m.id).map Lobby.Member.addr)) =
        (Lobby.without T m.id).map Lobby.Member.addr := by
      rw [List.filter_map]
      refine congrArg _ (List.filter_congr ?_)
      intro q hq
      have hiff : q.addr ∈ (Lobby.without T m.id).map Lobby.Member.addr ↔ q.id ≠ m.id := by
        constructor
        · intro hmem
          rcases List.mem_map.1 hmem with ⟨r, hr, heq⟩
          rcases Lobby.mem_without.1 hr with ⟨hrT, hrid⟩
          rw [← List.inj_on_of_nodup_map hnodup hrT hq heq]
          exact hrid
        · intro hid
          exact List.mem_map_of_mem (Lobby.mem_without.2 ⟨hq, hid⟩)
      simp [hiff]
    have hnobody : ((Lobby.without T m.id).map Lobby.Member.addr).filter
        (fun a => !decide (a ∈ T.map Lobby.Member.addr)) = [] := by
      apply List.filter_eq_nil_iff.2
      intro a ha
      rcases List.mem_map.1 ha with ⟨q, hq, rfl⟩
      simp [List.mem_map_of_mem (Lobby.mem_without.1 hq).1]
    rw [Chronicle.attend, hkept, hnobody, List.append_nil]
  | close => simp [Chronicle.attend]

theorem chronicles_run (config : Config) (nowMs : Int) (restored : Option Vec3)
    (events : List Event) :
    Chronicles (chronicle (start config nowMs restored) events)
      (server.state (start config nowMs restored) events) := by
  induction events using List.reverseRecOn with
  | nil => exact ⟨rfl, fun p hp => by cases hp⟩
  | append_singleton events event ih =>
    have hinv := serverInv_run config nowMs restored events
    rw [chronicle_snoc, Machine.state_snoc, server_step]
    refine ⟨?_, ?_⟩
    · simp only [Chronicle.observe, ih.standing]
      exact attend_step hinv.table event
    · intro p hp hspawned
      rcases stands_step hinv hp hspawned with hreport | ⟨⟨q, hq, haddr, hqspawned, hstood⟩, hother⟩
      · exact Chronicle.lastReport_of_report hreport
      · rw [Chronicle.lastReport_of_other hother, ← haddr, ← hstood]
        exact ih.positions q hq hqspawned

/-! ## The anchor and the senior -/

/-- The event is a join request that the server grants. -/
def Joins (s : RelayServer) : Event → Prop
  | .packet packet _ _ =>
      s.peer = true ∧ packet.kind = .connectionNotification ∧
        findByAddress s.players packet.systemAddress = none ∧
        ¬ Int32.ofNat s.players.length ≥ s.config.maxPlayers
  | _ => False

/-- If somebody has spawned, a client that joins is sent where the longest-standing player that has
spawned last reported to be. -/
def AnchorsOnSenior (c : Chronicle) (s : RelayServer) (event : Event) : Prop :=
  s.config.spawnMode = .anchor → ∀ senior, c.longestStanding s.players = some senior →
    ∀ a id position, (Message.createLocalNetPlayer id position).sendTo a ∈ (step s event).2 →
      c.lastReport senior.address = some position

/-- Of the players that have spawned the one with the lowest id stands elsewhere than the
longest-standing one. -/
def Overtaken (c : Chronicle) (s : RelayServer) : Prop :=
  ∃ senior lowest, c.longestStanding s.players = some senior ∧
    lowest ∈ s.players ∧ lowest.spawned = true ∧
    (∀ q ∈ s.players, q.spawned = true → lowest.networkId ≤ q.networkId) ∧
    c.lastReport lowest.address ≠ c.lastReport senior.address

section Anchor

variable {c : Chronicle} {s : RelayServer} {event : Event}

/-- The order of the records is the order of joining. -/
theorem Chronicles.longestStanding_eq (h : Chronicles c s) (hinv : TableInv s) :
    c.longestStanding s.players = s.players.find? Player.spawned := by
  have hlookup : ∀ p ∈ s.players, findByAddress s.players p.address = some p :=
    fun p hp => findByAddress_of_mem hinv.addrs hp
  -- The standing addresses are the table's, in its order, so the two searches run in step.
  have hfirst : ∀ l : List Player, (∀ p ∈ l, p ∈ s.players) →
      (l.map Player.address).findSome?
        (fun a => (findByAddress s.players a).filter Player.spawned) =
        l.find? Player.spawned := by
    intro l hl
    induction l with
    | nil => rfl
    | cons p l ih =>
      have hrest := ih fun q hq => hl q (List.mem_cons_of_mem _ hq)
      rw [List.map_cons, List.findSome?_cons, List.find?_cons, hlookup p (hl p List.mem_cons_self)]
      cases hspawned : p.spawned with
      | true => simp [Option.filter, hspawned]
      | false => simpa [Option.filter, hspawned] using hrest
  rw [Chronicle.longestStanding, h.standing]
  exact hfirst s.players fun p hp => hp

theorem joins_of_act {a : SystemAddress} {id info : Int32} (h : act s event = .join a id info) :
    Joins s event := by
  have hwhy := acted s event
  rw [h] at hwhy
  cases hwhy with
  | @packet packet tickMs handlerMs _ peer accepted dispatched =>
    cases dispatched with
    | join unknown kind room =>
      cases hfind : findByAddress s.players packet.systemAddress with
      | none =>
        rw [bookkeep_of_stranger hfind] at room
        exact ⟨peer, kind, hfind, room⟩
      | some self =>
        -- The bookkeeping removes no record.
        rw [find_bookkeep hfind tickMs] at unknown
        cases unknown

/-- Only a granted join request has an assignment sent. -/
theorem joins_of_assign {config : Config} (h : ServerInv config s) {a : SystemAddress}
    {id : Int32} {position : Vec3}
    (hmem : (Message.createLocalNetPlayer id position).sendTo a ∈ (step s event).2) :
    Joins s event := by
  have hnote : note ((Message.createLocalNetPlayer id position).sendTo a) =
      some (a, .assign id) := note_sendTo (m := .createLocalNetPlayer id position) trivial a
  have hsaid : (a, Lobby.Note.assign id) ∈ notes (step s event).2 :=
    List.mem_filterMap.2 ⟨_, hmem, hnote⟩
  rcases (stepsLobby_step h.table event).step.assign_of_mem hsaid with ⟨info, hact⟩
  exact joins_of_act hact

/-- What a granted join request has sent. -/
theorem step_joins (h : Joins s event) :
    ∃ a id, (step s event).2 = [(Message.createLocalNetPlayer id
      (s.spawnPositionFor)).sendTo a] := by
  cases event with
  | packet packet tickMs handlerMs =>
    rcases h with ⟨hpeer, hkind, hfind, hroom⟩
    have hbooked := bookkeep_of_stranger hfind tickMs
    have hnew : (newPlayer s packet handlerMs).spawned = false := rfl
    -- The newcomer is in the vector when the spawn is computed, but it cannot be the anchor.
    have hanchor : anchorPlayer (s.players ++ [newPlayer s packet handlerMs]) =
        anchorPlayer s.players := by
      rw [anchorPlayer_snoc, hnew]
      rfl
    refine ⟨packet.systemAddress, allocateNetworkId s.players, ?_⟩
    simp only [step, hpeer, Bool.not_true, Bool.false_eq_true, if_false, RelayServer.tickPacket,
      hbooked, if_true, RelayServer.dispatch, hkind, handleConnectionNotification_join hfind hroom,
      RelayServer.spawnPositionFor, hanchor]
  | tickEnd nowMs persistMs writable => exact h.elim
  | stop writable => exact h.elim

theorem anchorsOnSenior_iff {config : Config} (h : Chronicles c s) (hinv : ServerInv config s) :
    AnchorsOnSenior c s event ↔
      (s.config.spawnMode = .anchor → Joins s event → ¬ Overtaken c s) := by
  have hsenior : ∀ senior, c.longestStanding s.players = some senior →
      senior ∈ s.players ∧ senior.spawned = true := by
    intro senior hfind
    rw [h.longestStanding_eq hinv.table] at hfind
    exact ⟨List.mem_of_find?_eq_some hfind, List.find?_some hfind⟩
  have hlowest := lowestOf_anchorPlayer s.players
  constructor
  · rintro hanchors hmode hjoins ⟨senior, lowest, hstanding, hmem, hspawned, hleast, hne⟩
    rcases step_joins hjoins with ⟨a, id, hsent⟩
    have hreport := hanchors hmode senior hstanding a id s.spawnPositionFor
      (by rw [hsent]; exact List.mem_cons_self)
    cases hbest : anchorPlayer s.players with
    | none =>
      rw [hbest] at hlowest
      rw [hlowest lowest hmem] at hspawned
      cases hspawned
    | some best =>
      rw [hbest] at hlowest
      rcases hlowest with ⟨hbestMem, hbestSpawned, hbestLeast⟩
      -- The player the anchor is taken from is the one with the lowest id.
      have hsame : best = lowest := by
        apply hinv.table.eq_of_networkId hbestMem hmem
        exact Int32.le_antisymm (hbestLeast lowest hmem hspawned)
          (hleast best hbestMem hbestSpawned)
      have hsentTo : s.spawnPositionFor = lowest.position := by
        simp only [RelayServer.spawnPositionFor, hmode, if_true, hbest, hsame]
      rw [hsentTo] at hreport
      exact hne ((h.positions lowest hmem hspawned).trans hreport.symm)
  · intro hnot hmode senior hstanding a id position hsent
    have hjoins := joins_of_assign hinv hsent
    rcases step_joins hjoins with ⟨b, k, hcalls⟩
    rw [hcalls] at hsent
    have hposition : position = s.spawnPositionFor := by
      have hmessages := Message.eq_of_sendTo (m := .createLocalNetPlayer id position)
        (n := .createLocalNetPlayer k s.spawnPositionFor) trivial trivial
        (List.mem_singleton.1 hsent)
      injection hmessages.1
    rcases hsenior senior hstanding with ⟨hmem, hspawned⟩
    cases hbest : anchorPlayer s.players with
    | none =>
      rw [hbest] at hlowest
      rw [hlowest senior hmem] at hspawned
      cases hspawned
    | some best =>
      rw [hbest] at hlowest
      have hsentTo : s.spawnPositionFor = best.position := by
        simp only [RelayServer.spawnPositionFor, hmode, if_true, hbest]
      by_contra hne
      refine hnot hmode hjoins ⟨senior, best, hstanding, hlowest.1, hlowest.2.1, hlowest.2.2, ?_⟩
      intro heq
      rw [h.positions best hlowest.1 hlowest.2.1, ← hsentTo, ← hposition] at heq
      exact hne heq.symm

end Anchor

/-- In every run, a client that joins is sent to the longest-standing player that has spawned
exactly when the one with the lowest id, of those that have spawned, stands there too. -/
theorem anchor_is_senior_iff (config : Config) (nowMs : Int) (restored : Option Vec3)
    (events : List Event) :
    let s₀ := start config nowMs restored
    let anchors := fun before event =>
      AnchorsOnSenior (chronicle s₀ before) (server.state s₀ before) event
    let granted := fun before event =>
      (server.state s₀ before).config.spawnMode = .anchor →
        Joins (server.state s₀ before) event →
          ¬ Overtaken (chronicle s₀ before) (server.state s₀ before)
    (∀ event, anchors events event ↔ granted events event) ∧
      (Every anchors events ↔ Every granted events) := by
  intro s₀ anchors granted
  have hiff : ∀ before event, anchors before event ↔ granted before event := by
    intro before event
    exact anchorsOnSenior_iff (chronicles_run config nowMs restored before)
      (serverInv_run config nowMs restored before)
  refine ⟨hiff events, ?_⟩
  constructor
  · intro h
    exact h.mono fun before event => (hiff before event).1
  · intro h
    exact h.mono fun before event => (hiff before event).2

/-! ### A recycled id -/

section Recycled

/-- The clients of the example differ in their ports. -/
def clientAddress (port : UInt16) : SystemAddress :=
  { ip := 0x0A000001, port := port }

/-- A client's packet, at the start of the first second. -/
def clientEvent (port : UInt16) (id : UInt8) (rest : List UInt8) : Event :=
  let packet : Packet :=
    { systemAddress := clientAddress port
      guid := 0
      data := id :: rest
      nonempty := List.cons_ne_nil _ _ }
  .packet packet 0 0

def joinEvent (port : UInt16) : Event :=
  clientEvent port idConnectionNotification []

/-- The client spawns at `x`; the id it claims is not looked at. -/
def spawnEvent (port : UInt16) (x : UInt32) : Event :=
  clientEvent port idCreateNetPlayer
    (encode (0 : Int32) ++ encode (2000 : Int32) ++ encode ({ x := x } : Vec3))

/-- Players 1 and 2 spawn, player 1 loses its connection, and the third client gets id 1 and spawns
elsewhere. -/
def recycled : List Event :=
  [joinEvent 1, spawnEvent 1 10, joinEvent 2, spawnEvent 2 20, clientEvent 1 22 [],
    joinEvent 3, spawnEvent 3 30]

/-- The fourth client is sent to the third one, though the second has been there for longer. -/
theorem recycled_id_misplaces :
    let s₀ := start {} 0 none
    ¬ AnchorsOnSenior (chronicle s₀ recycled) (server.state s₀ recycled) (joinEvent 4) := by
  intro s₀ h
  have hsent : (Message.createLocalNetPlayer 3 { x := 30 }).sendTo (clientAddress 4) ∈
        (step (server.state s₀ recycled) (joinEvent 4)).2 := by decide +kernel
  have hsenior : ((chronicle s₀ recycled).longestStanding
      (server.state s₀ recycled).players).map Player.address =
        some (clientAddress 2) := by decide +kernel
  have hreport : (chronicle s₀ recycled).lastReport (clientAddress 2) = some { x := 20 } := by
    decide +kernel
  have hmode : (server.state s₀ recycled).config.spawnMode = .anchor := by decide +kernel
  have hne : ¬ some ({ x := 20 } : Vec3) = some { x := 30 } := by decide
  rcases Option.map_eq_some_iff.1 hsenior with ⟨senior, hstanding, haddr⟩
  have hwrong := h hmode senior hstanding _ _ _ hsent
  rw [haddr, hreport] at hwrong
  exact hne hwrong

end Recycled

end Server
end Crossover
