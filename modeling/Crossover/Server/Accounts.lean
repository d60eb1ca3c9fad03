import Crossover.Server.Anchor
import Crossover.Server.FloodGuard

/-!
# Accounts — what a client's record is made of

A record is opened by a join request, and from then on it is made of its own client's packets: the
bookkeeping of `Tick`, and what the handlers store of a packet that the flood guard lets through.
Nothing that others send gets into it.
-/

namespace Crossover
namespace Server

open Wire RateLimit

/-! ## One packet -/

/-- What the handlers store of a packet in its sender's record. -/
def Player.heed (p : Player) (packet : Packet) : Player :=
  match packet.kind with
  | .createNetPlayer =>
      if packet.length < kSizeCreateNetPlayer then p
      else p.spawnAs (readCreateNetPlayer packet).2.1 (readCreateNetPlayer packet).2.2
  | .playerMovement =>
      if packet.length < kSizePlayerMovement || !p.spawned then p
      else { p with position := (readMotion packet).2.1 }
  | .playerRotation =>
      if packet.length < kSizePlayerRotation || !p.spawned then p
      else { p with up := (readMotion packet).2.1, forward := (readMotion packet).2.2 }
  | _ => p

/-- A packet with the time at which `Tick` counts it. -/
def Player.receive (p : Player) (received : Packet × Int) : Player :=
  let booked := RelayServer.account p received.2
  -- The guard's verdict is on the packet that has just been counted.
  if booked.2 then booked.1.heed received.1 else booked.1

/-- What only the bookkeeping of `Tick` writes in a record, and its identity. -/
def Player.counters (p : Player) : SystemAddress × UInt64 × Int32 × Int × Int × Nat × Window :=
  (p.address, p.guid, p.networkId, p.connectedAtMs, p.lastPacketMs, p.packetsIn, p.window)

theorem counters_heed (p : Player) (packet : Packet) : (p.heed packet).counters = p.counters := by
  unfold Player.heed
  split
  · split <;> rfl
  · split <;> rfl
  · split <;> rfl
  · rfl

theorem counters_receive (p : Player) (packet : Packet) (tickMs : Int) :
    (p.receive (packet, tickMs)).counters = (RelayServer.account p tickMs).1.counters := by
  unfold Player.receive
  simp only
  split
  · exact counters_heed _ _
  · rfl

theorem window_receive (p : Player) (packet : Packet) (tickMs : Int) :
    (p.receive (packet, tickMs)).window = (RelayServer.account p tickMs).1.window :=
  congrArg (fun c => c.2.2.2.2.2.2) (counters_receive p packet tickMs)

section Packets

variable {s : RelayServer} {packet : Packet} {p : Player} {a b : SystemAddress}

/-- An assignment through the pointer to the sender's record. -/
theorem find_update (hfind : findByAddress s.players a = some p) {f : Player → Player}
    (hf : ∀ q, (f q).address = q.address) :
    findByAddress (updateByAddress a f s.players) a = some (f p) := by
  rw [findByAddress_updateByAddress f hf, hfind, Option.map_some,
    if_pos (findByAddress_address hfind)]

theorem find_handleMotion (hfind : findByAddress s.players packet.systemAddress = some p)
    {minSize : Nat} (messageId : UInt8) {store : Vec3 → Vec3 → Player → Player}
    (hstore : ∀ v w q, (store v w q).address = q.address) :
    findByAddress (s.handleMotion minSize messageId store packet).1.players packet.systemAddress =
      some (if packet.length < minSize || !p.spawned then p
        else store (readMotion packet).2.1 (readMotion packet).2.2 p) := by
  by_cases hlen : packet.length < minSize
  · simp [handleMotion_short hlen, hlen, hfind]
  · cases hspawned : p.spawned with
    | false => simp [RelayServer.handleMotion, hlen, hfind, hspawned]
    | true =>
      have hupdate := find_update hfind (hstore (readMotion packet).2.1 (readMotion packet).2.2)
      simpa [RelayServer.handleMotion, hlen, hfind, hspawned] using hupdate

/-- What a handler makes of its sender's record. -/
theorem find_dispatch (h : TableInv s)
    (hfind : findByAddress s.players packet.systemAddress = some p) (nowMs : Int) :
    findByAddress (s.dispatch packet nowMs).1.players packet.systemAddress = none ∨
      findByAddress (s.dispatch packet nowMs).1.players packet.systemAddress =
        some (p.heed packet) := by
  cases hkind : packet.kind with
  | connectionNotification =>
    refine Or.inr ?_
    simp only [RelayServer.dispatch, Player.heed, hkind,
      handleConnectionNotification_known hfind]
    exact hfind
  | createNetPlayer =>
    refine Or.inr ?_
    simp only [RelayServer.dispatch, Player.heed, hkind]
    by_cases hlen : packet.length < kSizeCreateNetPlayer
    · simpa [RelayServer.handleCreateNetPlayer, hlen] using hfind
    · have hupdate := find_update hfind (f := Player.spawnAs (readCreateNetPlayer packet).2.1
        (readCreateNetPlayer packet).2.2) fun _ => rfl
      simp only [RelayServer.handleCreateNetPlayer, if_neg hlen, hfind]
      exact hupdate
  | playerMovement =>
    refine Or.inr ?_
    simp only [RelayServer.dispatch, Player.heed, hkind]
    exact find_handleMotion hfind _ fun _ _ _ => rfl
  | playerRotation =>
    refine Or.inr ?_
    simp only [RelayServer.dispatch, Player.heed, hkind]
    exact find_handleMotion hfind _ fun _ _ _ => rfl
  | disconnectionNotification | connectionLost =>
    refine Or.inl (findByAddress_eq_none.2 ?_)
    intro q hq haddress
    exact not_mem_of_drop h hfind (by simp [IsDrop, hkind]) haddress hq
  | _ =>
    refine Or.inr ?_
    simp only [RelayServer.dispatch, Player.heed, hkind]
    exact hfind

/-- From an address without a record there comes a join request, or nothing. -/
theorem find_stranger (hfind : findByAddress s.players packet.systemAddress = none) (nowMs : Int) :
    findByAddress (s.dispatch packet nowMs).1.players packet.systemAddress = none ∨
      packet.kind = .connectionNotification ∧
        findByAddress (s.dispatch packet nowMs).1.players packet.systemAddress =
          some (newPlayer s packet nowMs) := by
  by_cases hkind : packet.kind = .connectionNotification
  · simp only [RelayServer.dispatch, hkind]
    by_cases hfull : Int32.ofNat s.players.length ≥ s.config.maxPlayers
    · rw [handleConnectionNotification_full hfind hfull]
      exact Or.inl hfind
    · rw [handleConnectionNotification_join hfind hfull]
      refine Or.inr ⟨trivial, ?_⟩
      rw [findByAddress, List.find?_append, show s.players.find? _ = none from hfind]
      simp [newPlayer]
  · rw [dispatch_stranger hfind hkind]
    exact Or.inl hfind

theorem find_othersOf {players : List Player} (hb : b ≠ a) :
    findByAddress (othersOf a players) b = findByAddress players b := by
  rw [othersOf, findByAddress, List.find?_filter]
  refine congrArg (fun test => players.find? test) (funext fun p => ?_)
  by_cases hp : p.address = b
  · simp [hp, hb]
  · simp [hp]

/-- A packet of a known client through a round of the receive loop. -/
theorem find_tickPacket (h : TableInv s)
    (hfind : findByAddress s.players packet.systemAddress = some p) (tickMs handlerMs : Int) :
    findByAddress (s.tickPacket packet tickMs handlerMs).1.players packet.systemAddress = none ∨
      findByAddress (s.tickPacket packet tickMs handlerMs).1.players packet.systemAddress =
        some (p.receive (packet, tickMs)) := by
  have hbooked := find_bookkeep hfind tickMs
  have hverdict : (s.bookkeep packet tickMs).2 = (RelayServer.account p tickMs).2 := by
    rw [bookkeep_of_find hfind]
  simp only [RelayServer.tickPacket, Player.receive, hverdict]
  split
  · exact find_dispatch ((keepsTable_bookkeep s packet tickMs).inv h) hbooked handlerMs
  · exact Or.inr hbooked

end Packets

/-! ## One step -/

/-- The record of `a` behind a step. -/
inductive Fate (a : SystemAddress) (s : RelayServer) : Event → Option Player → Prop
  /-- The event is no packet of `a`'s. -/
  | kept {event : Event} :
      (∀ packet tickMs handlerMs, event = .packet packet tickMs handlerMs →
        packet.systemAddress ≠ a) → Fate a s event (findByAddress s.players a)
  | gone {event : Event} : Fate a s event none
  | joined {packet : Packet} {tickMs handlerMs : Int} : packet.systemAddress = a →
      packet.kind = .connectionNotification → findByAddress s.players a = none →
      Fate a s (.packet packet tickMs handlerMs) (some (newPlayer s packet handlerMs))
  | counted {packet : Packet} {tickMs handlerMs : Int} {p : Player} : packet.systemAddress = a →
      findByAddress s.players a = some p →
      Fate a s (.packet packet tickMs handlerMs) (some (p.receive (packet, tickMs)))

section Steps

variable {config : Config} {s : RelayServer} {packet : Packet} {a : SystemAddress}

theorem fate_own (h : TableInv s) (packet : Packet) (tickMs handlerMs : Int) :
    Fate packet.systemAddress s (.packet packet tickMs handlerMs)
      (findByAddress (s.tickPacket packet tickMs handlerMs).1.players packet.systemAddress) := by
  cases hfind : findByAddress s.players packet.systemAddress with
  | none =>
    have hstranger := find_stranger hfind handlerMs
    simp only [RelayServer.tickPacket, bookkeep_of_stranger hfind, if_true]
    rcases hstranger with hnobody | ⟨hkind, hjoined⟩
    · rw [hnobody]
      exact .gone
    · rw [hjoined]
      exact .joined rfl hkind hfind
  | some p =>
    rcases find_tickPacket h hfind tickMs handlerMs with hnobody | hreceived
    · rw [hnobody]
      exact .gone
    · rw [hreceived]
      exact .counted rfl hfind

theorem fate_other (h : TableInv s) (ha : packet.systemAddress ≠ a) (tickMs handlerMs : Int) :
    Fate a s (.packet packet tickMs handlerMs)
      (findByAddress (s.tickPacket packet tickMs handlerMs).1.players a) := by
  have hothers := (isolates_tickPacket h packet tickMs handlerMs).others
  have hfind := congrArg (findByAddress · a) hothers
  simp only [find_othersOf (Ne.symm ha)] at hfind
  rw [hfind]
  refine .kept ?_
  intro other tickMs' handlerMs' heq
  cases heq
  exact ha

/-- What becomes of a record in one step. -/
theorem fate (hinv : ServerInv config s) (a : SystemAddress) (event : Event) :
    Fate a s event (findByAddress (step s event).1.players a) := by
  cases hpeer : s.peer with
  | false =>
    have hnobody : findByAddress (step s event).1.players a = none := by
      simp [step, hpeer, hinv.stopped hpeer, findByAddress]
    rw [hnobody]
    exact .gone
  | true =>
    cases event with
    | packet packet tickMs handlerMs =>
      have hstep : step s (.packet packet tickMs handlerMs) =
          s.tickPacket packet tickMs handlerMs := by simp [step, hpeer]
      rw [hstep]
      by_cases ha : packet.systemAddress = a
      · subst ha
        exact fate_own hinv.table packet tickMs handlerMs
      · exact fate_other hinv.table ha tickMs handlerMs
    | tickEnd nowMs persistMs writable =>
      have hsame : (step s (.tickEnd nowMs persistMs writable)).1.players = s.players := by
        simp only [step, hpeer, Bool.not_true, Bool.false_eq_true, if_false,
          RelayServer.tickEnd]
        split <;> simp
      rw [hsame]
      exact .kept fun _ _ _ heq => by cases heq
    | stop writable =>
      have hnobody : findByAddress (step s (.stop writable)).1.players a = none := by
        simp [step, hpeer, RelayServer.stop, findByAddress]
      rw [hnobody]
      exact .gone

end Steps

/-! ## A whole run -/

/-- The packets of `a`, with the times at which they are counted. -/
def traffic (a : SystemAddress) (events : List Event) : List (Packet × Int) :=
  events.filterMap fun
    | .packet packet tickMs _ => if packet.systemAddress = a then some (packet, tickMs) else none
    | _ => none

/-- A run with a join request in it, and what has come since. -/
structure Enrolment where
  before : List Event
  request : Packet
  tickMs : Int
  handlerMs : Int
  since : List Event

namespace Enrolment

/-- The run up to some time after the join. -/
def upTo (m : Enrolment) (since : List Event) : List Event :=
  m.before ++ .packet m.request m.tickMs m.handlerMs :: since

/-- The record as it was opened. -/
def opened (m : Enrolment) (s : RelayServer) : Player :=
  newPlayer (server.state s m.before) m.request m.handlerMs

/-- In a run from `s` the request has been granted, its client has been in the table ever since, and
`p` is what its packets have made of the record. -/
structure Accounts (m : Enrolment) (s : RelayServer) (p : Player) : Prop where
  asks : m.request.kind = .connectionNotification
  address : m.request.systemAddress = p.address
  stranger : findByAddress (server.state s m.before).players p.address = none
  stays : ∀ since, since <+: m.since →
    (findByAddress (server.state s (m.upTo since)).players p.address).isSome = true
  replays : p = (traffic p.address m.since).foldl Player.receive (m.opened s)

end Enrolment

theorem traffic_snoc_of_ne {a : SystemAddress} {events : List Event} {event : Event}
    (h : ∀ packet tickMs handlerMs, event = .packet packet tickMs handlerMs →
      packet.systemAddress ≠ a) : traffic a (events ++ [event]) = traffic a events := by
  rw [traffic, List.filterMap_append]
  cases event with
  | packet packet tickMs handlerMs => simp [traffic, h packet tickMs handlerMs rfl]
  | _ => simp [traffic]

theorem traffic_snoc (packet : Packet) (tickMs handlerMs : Int) (events : List Event) :
    traffic packet.systemAddress (events ++ [.packet packet tickMs handlerMs]) =
      traffic packet.systemAddress events ++ [(packet, tickMs)] := by
  rw [traffic, List.filterMap_append]
  simp [traffic]

namespace Enrolment

variable {m : Enrolment} {s : RelayServer} {p q : Player}

/-- One more event that the record outlives. -/
theorem Accounts.snoc (h : m.Accounts s p) {event : Event} (haddress : q.address = p.address)
    (hfind :
      findByAddress (server.state s (m.upTo (m.since ++ [event]))).players q.address = some q)
    (hreplays : q =
      (traffic p.address (m.since ++ [event])).foldl Player.receive (m.opened s)) :
    Accounts { m with since := m.since ++ [event] } s q where
  asks := h.asks
  address := h.address.trans haddress.symm
  stranger := haddress ▸ h.stranger
  stays := by
    intro since hprefix
    rcases List.prefix_concat_iff.1 hprefix with heq | hearlier
    · rw [heq]
      exact Option.isSome_of_mem hfind
    · rw [haddress]
      exact h.stays since hearlier
  replays := haddress ▸ hreplays

/-- A record that has just been opened. -/
theorem accounts_opened {before : List Event} {packet : Packet} {tickMs handlerMs : Int}
    (hkind : packet.kind = .connectionNotification)
    (hstranger : findByAddress (server.state s before).players packet.systemAddress = none)
    (hfind : findByAddress
      (server.state s (before ++ [.packet packet tickMs handlerMs])).players
        packet.systemAddress = some (newPlayer (server.state s before) packet handlerMs)) :
    Accounts ⟨before, packet, tickMs, handlerMs, []⟩ s
      (newPlayer (server.state s before) packet handlerMs) where
  asks := hkind
  address := rfl
  stranger := hstranger
  stays := by
    intro since hprefix
    rw [List.prefix_nil.1 hprefix]
    exact Option.isSome_of_mem hfind
  replays := rfl

theorem upTo_snoc (m : Enrolment) (event : Event) :
    m.upTo (m.since ++ [event]) = m.upTo m.since ++ [event] := by
  simp [upTo]

end Enrolment

/-- Every record is an account. -/
theorem accounts_run (config : Config) (startMs : Int) (restored : Option Vec3)
    (events : List Event) :
    let s := start config startMs restored
    ∀ a p, findByAddress (server.state s events).players a = some p →
      ∃ m : Enrolment, m.upTo m.since = events ∧ m.Accounts s p := by
  intro s
  -- The last event decides whether the record goes on or has just been opened.
  induction events using List.reverseRecOn with
  | nil =>
    intro a p hp
    cases hp
  | append_singleton events event ih =>
    intro a q hq
    have hinv := serverInv_run config startMs restored events
    have hfate := fate hinv a event
    have hafter : findByAddress (step (server.state s events) event).1.players a = some q := by
      rw [Machine.state_snoc] at hq
      exact hq
    have haddress : q.address = a := findByAddress_address hafter
    rw [hafter] at hfate
    generalize hrecord : some q = record at hfate
    cases hfate with
    | kept hother =>
      rcases ih a q hrecord.symm with ⟨m, rfl, haccounts⟩
      have hrun := m.upTo_snoc event
      refine ⟨_, hrun, haccounts.snoc rfl ?_ ?_⟩
      · rw [hrun, haddress]
        exact hq
      · rw [haddress, traffic_snoc_of_ne hother, ← haddress]
        exact haccounts.replays
    | gone => cases hrecord
    | @joined packet tickMs handlerMs ha hkind hfind =>
      subst ha
      cases hrecord
      exact ⟨_, rfl, Enrolment.accounts_opened hkind hfind hq⟩
    | @counted packet tickMs handlerMs p ha hfind =>
      subst ha
      cases hrecord
      rcases ih _ p hfind with ⟨m, rfl, haccounts⟩
      have hp : p.address = packet.systemAddress := findByAddress_address hfind
      have hrun := m.upTo_snoc (.packet packet tickMs handlerMs)
      refine ⟨_, hrun, haccounts.snoc (haddress.trans hp.symm) ?_ ?_⟩
      · rw [hrun, haddress]
        exact hq
      · rw [hp, traffic_snoc, List.foldl_append, ← hp, ← haccounts.replays]
        rfl

/-! ## The counters -/

/-- The bookkeeping of one packet, as the limiter has it. -/
theorem judge_window (p : Player) (nowMs : Int) :
    p.window.judge kMaxPacketsPerSecond kRateWindowMs nowMs =
      ((RelayServer.account p nowMs).1.window,
        [{ time := nowMs, window := (RelayServer.account p nowMs).1.rateWindowStartMs,
           admitted := (RelayServer.account p nowMs).2 }]) := by
  have hrun := floodGuard_run p [nowMs]
  simpa [Machine.run, Machine.state, Machine.log, limiter, floodGuard] using hrun

theorem counters_account (p : Player) (nowMs : Int) :
    (RelayServer.account p nowMs).1.counters =
      (p.address, p.guid, p.networkId, p.connectedAtMs, nowMs, p.packetsIn + 1,
        (p.window.judge kMaxPacketsPerSecond kRateWindowMs nowMs).1) := by
  rw [judge_window]
  unfold RelayServer.account RelayServer.acceptRate RelayServer.rollRateWindow Player.counters
  simp only
  split <;> split <;> rfl

/-- What a client's packets add up to. -/
theorem counters_replay (received : List (Packet × Int)) (p : Player) :
    (received.foldl Player.receive p).counters =
      (p.address, p.guid, p.networkId, p.connectedAtMs,
        (received.map Prod.snd).getLast?.getD p.lastPacketMs, p.packetsIn + received.length,
        (limiter kMaxPacketsPerSecond kRateWindowMs).state p.window (received.map Prod.snd)) := by
  induction received generalizing p with
  | nil => rfl
  | cons first received ih =>
    rcases first with ⟨packet, tickMs⟩
    have hfirst := (counters_receive p packet tickMs).trans (counters_account p tickMs)
    simp only [Player.counters, Prod.mk.injEq] at hfirst
    rcases hfirst with ⟨haddress, hguid, hid, hconnected, hlast, hpackets, hwindow⟩
    rw [List.foldl_cons, ih, haddress, hguid, hid, hconnected, hlast, hpackets, hwindow]
    simp [List.getLast?_cons, Nat.add_assoc, Nat.add_comm 1, Machine.state_cons, limiter]

/-- In every run each record of the table goes back to a join request that was granted to its
address, which had none; it has been there since, and it is the one then opened with the packets
replayed that have come from this address: their number, the time of the last and the limiter's
window over their times are its counters, and the time of the join is its `connectedAtMs`. -/
theorem records_accounted (config : Config) (startMs : Int) (restored : Option Vec3)
    (events : List Event) :
    let s := start config startMs restored
    ∀ p ∈ (server.state s events).players, ∃ m : Enrolment, m.upTo m.since = events ∧
      m.Accounts s p ∧ p.guid = m.request.guid ∧ p.connectedAtMs = m.handlerMs ∧
      p.packetsIn = (traffic p.address m.since).length ∧
      p.lastPacketMs =
        ((traffic p.address m.since).map Prod.snd).getLast?.getD m.handlerMs ∧
      p.window = (limiter kMaxPacketsPerSecond kRateWindowMs).state
        { start := m.handlerMs, count := 0 } ((traffic p.address m.since).map Prod.snd) := by
  intro s p hp
  have htable := (serverInv_run config startMs restored events).table
  rcases accounts_run config startMs restored events p.address p
    (findByAddress_of_mem htable.addrs hp) with ⟨m, hrun, haccounts⟩
  have hcounters := counters_replay (traffic p.address m.since) (m.opened s)
  rw [← haccounts.replays] at hcounters
  simp only [Player.counters, Prod.mk.injEq] at hcounters
  rcases hcounters with ⟨-, hguid, -, hconnected, hlast, hpackets, hwindow⟩
  have hnone : (m.opened s).packetsIn = 0 := rfl
  rw [hnone, Nat.zero_add] at hpackets
  exact ⟨m, hrun, haccounts, hguid, hconnected, hpackets, hlast, hwindow⟩

/-- Player 1 has spawned behind its join, and player 2 has joined since. -/
theorem records_accounted_spawned :
    let s := start {} 0 none
    let events := [joinEvent 1, spawnEvent 1 10, joinEvent 2]
    ∃ p ∈ (server.state s events).players, p.packetsIn = 1 ∧
      ∃ m : Enrolment, m.upTo m.since = events ∧ m.Accounts s p ∧ p.guid = m.request.guid ∧
        p.connectedAtMs = m.handlerMs ∧ p.packetsIn = (traffic p.address m.since).length ∧
        p.lastPacketMs =
          ((traffic p.address m.since).map Prod.snd).getLast?.getD m.handlerMs ∧
        p.window = (limiter kMaxPacketsPerSecond kRateWindowMs).state
          { start := m.handlerMs, count := 0 } ((traffic p.address m.since).map Prod.snd) := by
  intro s events
  have hfirst : ∃ p ∈ (server.state s events).players, p.packetsIn = 1 := by decide +kernel
  rcases hfirst with ⟨p, hp, hpackets⟩
  exact ⟨p, hp, hpackets, records_accounted {} 0 none events p hp⟩

end Server
end Crossover
