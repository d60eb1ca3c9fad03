import Crossover.Lib.Readmission
import Crossover.Server.Accounts

/-!
# Containment — what one client can make the server send

The flood guard belongs to a record, and a client that is enrolled again gets a fresh one.  So a
client's packets, over a whole run, pass a limiter that is restarted whenever it is enrolled, and a
packet that passes makes at most one message for anybody else.
-/

namespace Crossover
namespace Server

open Wire RateLimit

/-! ## Runs against the clock -/

/-- The clock readings of an event, in order. -/
def Event.readings : Event → List Int
  | .packet _ tickMs handlerMs => [tickMs, handlerMs]
  | .tickEnd nowMs persistMs _ => [nowMs, persistMs]
  | .stop _ => []

/-- The clock does not run back. -/
def Clocked (startMs : Int) (events : List Event) : Prop :=
  (startMs :: events.flatMap Event.readings).Pairwise (· ≤ ·)

instance (startMs : Int) (events : List Event) : Decidable (Clocked startMs events) :=
  inferInstanceAs (Decidable (List.Pairwise _ _))

/-- In this step the server is handed a packet from `a`, in the second from `fromMs` on. -/
def Hears (a : SystemAddress) (fromMs : Int) : RelayServer × Event → Prop
  | (_, .packet packet tickMs _) =>
      packet.systemAddress = a ∧ fromMs ≤ tickMs ∧ tickMs < fromMs + kRateWindowMs
  | _ => False

/-- In this step it enrols `a`, in the second from `fromMs` on. -/
def Enrols (a : SystemAddress) (fromMs : Int) : RelayServer × Event → Prop
  | (s, .packet packet tickMs handlerMs) =>
      packet.systemAddress = a ∧ findByAddress s.players a = none ∧
        (findByAddress (step s (.packet packet tickMs handlerMs)).1.players a).isSome = true ∧
        fromMs ≤ handlerMs ∧ handlerMs < fromMs + kRateWindowMs
  | _ => False

instance (a : SystemAddress) (fromMs : Int) : DecidablePred (Hears a fromMs)
  | (_, .packet _ _ _) => inferInstanceAs (Decidable (_ ∧ _ ∧ _))
  | (_, .tickEnd _ _ _) => instDecidableFalse
  | (_, .stop _) => instDecidableFalse

instance (a : SystemAddress) (fromMs : Int) : DecidablePred (Enrols a fromMs)
  | (_, .packet _ _ _) => inferInstanceAs (Decidable (_ ∧ _ ∧ _ ∧ _ ∧ _))
  | (_, .tickEnd _ _ _) => instDecidableFalse
  | (_, .stop _) => instDecidableFalse

def SendsTo (b : SystemAddress) : PeerCall → Bool
  | .send send => send.address == b
  | _ => false

/-- What `b` is sent in these steps on account of the packets from `a` in a second. -/
def copiesFor (a b : SystemAddress) (fromMs : Int) (steps : List (RelayServer × Event)) :
    List PeerCall :=
  (steps.filter fun at_ => Hears a fromMs at_).flatMap fun at_ =>
    (step at_.1 at_.2).2.filter (SendsTo b)

/-! ## Copies of one packet -/

section Copies

variable {s : RelayServer} {packet : Packet} {b : SystemAddress}

theorem copies_relayExcept {players : List Player} (h : (players.map Player.address).Nodup)
    (exceptId : Int32) (bs : BitStream) (priority : PacketPriority)
    (reliability : PacketReliability) :
    ((relayExcept players exceptId bs priority reliability).filter (SendsTo b)).length ≤ 1 := by
  have hrecipients : ((recipients players exceptId).map Player.address).Nodup :=
    h.sublist (List.filter_sublist.map _)
  have hcount := List.nodup_iff_count_le_one.1 hrecipients b
  rw [← List.countP_eq_length_filter, relayExcept, List.countP_map]
  rw [List.count, List.countP_map] at hcount
  exact hcount

/-- What goes to the sender goes to nobody else. -/
theorem copies_sendTo {a : SystemAddress} (hb : a ≠ b) (bs : BitStream)
    (priority : PacketPriority) (reliability : PacketReliability) :
    [sendTo a bs priority reliability].filter (SendsTo b) = [] := by
  simp [sendTo, SendsTo, hb]

theorem copies_sendRoster {players : List Player} {receiver : Player} (hb : receiver.address ≠ b) :
    (sendRoster players receiver).filter (SendsTo b) = [] := by
  unfold sendRoster
  simp only
  split
  · rfl
  · exact copies_sendTo hb _ _ _

theorem copies_dispatch (h : TableInv s) (hb : packet.systemAddress ≠ b) (nowMs : Int) :
    ((s.dispatch packet nowMs).2.filter (SendsTo b)).length ≤ 1 := by
  cases hkind : packet.kind with
  | connectionNotification =>
    simp only [RelayServer.dispatch, hkind, RelayServer.handleConnectionNotification]
    split
    · exact Nat.zero_le _
    · split
      · exact Nat.zero_le _
      · rw [copies_sendTo hb]
        exact Nat.zero_le _
  | createNetPlayer =>
    simp only [RelayServer.dispatch, hkind, RelayServer.handleCreateNetPlayer]
    split
    · exact Nat.zero_le _
    · split
      · exact Nat.zero_le _
      · rename_i self hfind
        have hself : self.address ≠ b := by rwa [findByAddress_address hfind]
        rw [List.filter_append, copies_sendRoster hself, List.append_nil]
        refine copies_relayExcept ?_ _ _ _ _
        rw [map_updateByAddress]
        · exact h.addrs
        · exact fun _ => rfl
  | playerMovement | playerRotation =>
    simp only [RelayServer.dispatch, hkind, RelayServer.handlePlayerMovement,
      RelayServer.handlePlayerRotation, RelayServer.handleMotion]
    split
    · exact Nat.zero_le _
    · split
      · exact Nat.zero_le _
      · split
        · exact Nat.zero_le _
        · refine copies_relayExcept ?_ _ _ _ _
          rw [map_updateByAddress]
          · exact h.addrs
          · exact fun _ => rfl
  | disconnectionNotification | connectionLost =>
    simp only [RelayServer.dispatch, hkind, RelayServer.handleDrop]
    split
    · exact Nat.zero_le _
    · split
      · exact copies_relayExcept (h.addrs.sublist (List.filter_sublist.map _)) _ _ _ _
      · exact Nat.zero_le _
  | _ =>
    simp only [RelayServer.dispatch, hkind]
    exact Nat.zero_le _

end Copies

/-! ## The flood guard over a whole run -/

/-- The flood guard of an address, with its restarts. -/
abbrev guard : Machine Window Signal Verdict :=
  reopening kMaxPacketsPerSecond kRateWindowMs

/-- What the guard of an address sees of a step. -/
def signal (a : SystemAddress) : RelayServer × Event → Option Signal
  | (s, .packet packet tickMs handlerMs) =>
      if packet.systemAddress = a then
        match findByAddress s.players a with
        | some _ => some (.arrive tickMs)
        | none =>
            (findByAddress (step s (.packet packet tickMs handlerMs)).1.players a).map
              fun _ => .reopen handlerMs
      else none
  | _ => none

def signals (a : SystemAddress) (s : RelayServer) (events : List Event) : List Signal :=
  (server.steps s events).filterMap (signal a)

/-- If the address is enrolled, its record has this window. -/
def Tracks (a : SystemAddress) (s : RelayServer) (w : Window) : Prop :=
  ∀ p, findByAddress s.players a = some p → p.window = w

section Guard

variable {config : Config} {s : RelayServer} {packet : Packet} {a b : SystemAddress} {w : Window}
  {tickMs handlerMs startMs fromMs : Int}

theorem admitted_iff (p : Player) (nowMs : Int) :
    (RelayServer.account p nowMs).2 =
      decide ((p.window.roll kRateWindowMs nowMs).count < kMaxPacketsPerSecond) := by
  have hjudge := congrArg Prod.snd (judge_window p nowMs)
  simp only [Window.judge, List.cons.injEq, Verdict.mk.injEq, and_true] at hjudge
  exact hjudge.2.2.symm

theorem signal_known {p : Player} (hfind : findByAddress s.players packet.systemAddress = some p) :
    signal packet.systemAddress (s, .packet packet tickMs handlerMs) = some (.arrive tickMs) := by
  simp [signal, hfind]

theorem signal_stranger (hfind : findByAddress s.players packet.systemAddress = none) :
    signal packet.systemAddress (s, .packet packet tickMs handlerMs) =
      (findByAddress (step s (.packet packet tickMs handlerMs)).1.players
        packet.systemAddress).map fun _ => .reopen handlerMs := by
  simp [signal, hfind]

theorem signal_other {event : Event}
    (h : ∀ packet tickMs handlerMs, event = .packet packet tickMs handlerMs →
      packet.systemAddress ≠ a) : signal a (s, event) = none := by
  cases event with
  | packet packet tickMs handlerMs => simp [signal, h packet tickMs handlerMs rfl]
  | _ => rfl

/-- The record's window goes through what the guard's does. -/
theorem Tracks.step (hinv : ServerInv config s) (h : Tracks a s w) (event : Event) :
    Tracks a (step s event).1 (guard.state w (signal a (s, event)).toList) := by
  intro q hq
  have hfate := fate hinv a event
  rw [hq] at hfate
  generalize hrecord : some q = record at hfate
  cases hfate with
  | kept hother =>
    rw [signal_other hother]
    exact h q hrecord.symm
  | gone => cases hrecord
  | joined ha _ hfind =>
    subst ha
    cases hrecord
    rw [signal_stranger hfind, hq]
    rfl
  | counted ha hfind =>
    subst ha
    cases hrecord
    rw [signal_known hfind, ← h _ hfind]
    refine (window_receive _ _ _).trans ?_
    exact (congrArg Prod.fst (judge_window _ _)).symm

theorem copiesFor_cons (at_ : RelayServer × Event) (steps : List (RelayServer × Event)) :
    copiesFor a b fromMs (at_ :: steps) =
      copiesFor a b fromMs [at_] ++ copiesFor a b fromMs steps := by
  simp only [copiesFor, List.filter_cons]
  split <;> simp

/-- Nobody hears of a packet from an address without a record. -/
theorem copies_stranger (hb : packet.systemAddress ≠ b)
    (hfind : findByAddress s.players packet.systemAddress = none) (nowMs : Int) :
    (s.dispatch packet nowMs).2.filter (SendsTo b) = [] := by
  by_cases hkind : packet.kind = .connectionNotification
  · simp only [RelayServer.dispatch, hkind, RelayServer.handleConnectionNotification]
    split
    · rfl
    · split
      · rfl
      · exact copies_sendTo hb _ _ _
  · rw [dispatch_stranger hfind hkind]
    rfl

/-- Of a known client's packet `b` hears if the guard admits it. -/
theorem copies_known {p : Player} (htable : TableInv s) (hb : packet.systemAddress ≠ b)
    (hfind : findByAddress s.players packet.systemAddress = some p) (tickMs handlerMs : Int) :
    ((s.tickPacket packet tickMs handlerMs).2.filter (SendsTo b)).length ≤
      if (RelayServer.account p tickMs).2 then 1 else 0 := by
  have hbooked : (s.bookkeep packet tickMs).2 = (RelayServer.account p tickMs).2 := by
    rw [bookkeep_of_find hfind]
  simp only [RelayServer.tickPacket, hbooked]
  split
  · exact copies_dispatch ((keepsTable_bookkeep s packet tickMs).inv htable) hb handlerMs
  · exact Nat.zero_le _

/-- The limiter's verdict on an arrival in the interval is the bookkeeping's. -/
theorem passes_account (p : Player) (hfrom : fromMs ≤ tickMs)
    (hto : tickMs < fromMs + kRateWindowMs) :
    (guard.log p.window [.arrive tickMs]).countP (Verdict.Passes kRateWindowMs fromMs) =
      if (RelayServer.account p tickMs).2 then 1 else 0 := by
  have hlog : guard.log p.window [.arrive tickMs] =
      (p.window.judge kMaxPacketsPerSecond kRateWindowMs tickMs).2 := by
    simp [reopening, Machine.log, Machine.run]
  rw [hlog, judge_window, List.countP_singleton]
  refine if_congr ?_ rfl rfl
  rw [passes_iff]
  exact and_iff_left ⟨hfrom, hto⟩

/-- The guard admits what `b` hears of. -/
theorem copies_step (hinv : ServerInv config s) (h : Tracks a s w) (hab : a ≠ b) (fromMs : Int)
    (event : Event) :
    (copiesFor a b fromMs [(s, event)]).length ≤
      (guard.log w (signal a (s, event)).toList).countP (Verdict.Passes kRateWindowMs fromMs) := by
  by_cases hhears : Hears a fromMs (s, event)
  · cases event with
    | packet packet tickMs handlerMs =>
      rcases hhears with ⟨rfl, hfrom, hto⟩
      have hcopies :
          copiesFor packet.systemAddress b fromMs [(s, .packet packet tickMs handlerMs)] =
            (step s (.packet packet tickMs handlerMs)).2.filter (SendsTo b) := by
        simp [copiesFor, Hears, hfrom, hto]
      rw [hcopies]
      cases hpeer : s.peer with
      | false =>
        have hstep : step s (.packet packet tickMs handlerMs) = (s, []) := by simp [step, hpeer]
        rw [hstep]
        exact Nat.zero_le _
      | true =>
        have hstep : step s (.packet packet tickMs handlerMs) =
            s.tickPacket packet tickMs handlerMs := by simp [step, hpeer]
        rw [hstep]
        cases hfind : findByAddress s.players packet.systemAddress with
        | none =>
          simp only [RelayServer.tickPacket, bookkeep_of_stranger hfind, if_true,
            copies_stranger hab hfind]
          exact Nat.zero_le _
        | some p =>
          rw [signal_known hfind, ← h p hfind, Option.toList_some, passes_account p hfrom hto]
          exact copies_known hinv.table hab hfind tickMs handlerMs
    | _ => exact hhears.elim
  · have hnone : copiesFor a b fromMs [(s, event)] = [] := by simp [copiesFor, hhears]
    rw [hnone]
    exact Nat.zero_le _

theorem signals_cons (s : RelayServer) (event : Event) (events : List Event) :
    signals a s (event :: events) =
      (signal a (s, event)).toList ++ signals a (step s event).1 events := by
  unfold signals
  rw [Machine.steps, List.filterMap_cons]
  cases signal a (s, event) <;> rfl

/-- The guard has admitted all that `b` has heard of. -/
theorem copies_run (hinv : ServerInv config s) (h : Tracks a s w) (hab : a ≠ b) (fromMs : Int)
    (events : List Event) :
    (copiesFor a b fromMs (server.steps s events)).length ≤
      (guard.log w (signals a s events)).countP (Verdict.Passes kRateWindowMs fromMs) := by
  induction events generalizing s w with
  | nil => exact Nat.zero_le _
  | cons event events ih =>
    have hlater := ih (hinv.step event) (h.step hinv event)
    have hfirst := copies_step hinv h hab fromMs event
    rw [signals_cons, Machine.log_append, List.countP_append, Machine.steps, copiesFor_cons,
      List.length_append]
    exact Nat.add_le_add hfirst hlater

theorem Tracks.run (hinv : ServerInv config s) (h : Tracks a s w) (events : List Event) :
    Tracks a (server.state s events) (guard.state w (signals a s events)) := by
  induction events generalizing s w with
  | nil => exact h
  | cons event events ih =>
    have hlater := ih (hinv.step event) (h.step hinv event)
    rw [signals_cons, Machine.state_append]
    exact hlater

theorem signals_append (s : RelayServer) (events more : List Event) :
    signals a s (events ++ more) =
      signals a s events ++ signals a (server.state s events) more := by
  rw [signals, Machine.steps_append, List.filterMap_append]
  rfl

/-! ### Times -/

theorem times_signal (event : Event) :
    ((signal a (s, event)).toList.map Signal.time).Sublist event.readings := by
  cases event with
  | packet packet tickMs handlerMs =>
    simp only [signal, Event.readings]
    split
    · split
      · simp
      · cases findByAddress _ a <;> simp
    · simp
  | _ => exact List.nil_sublist _

theorem times_signals (s : RelayServer) (events : List Event) :
    ((signals a s events).map Signal.time).Sublist (events.flatMap Event.readings) := by
  induction events generalizing s with
  | nil => exact List.nil_sublist _
  | cons event events ih =>
    rw [signals_cons, List.map_append, List.flatMap_cons]
    exact (times_signal event).append (ih _)

theorem Clocked.sorted {events : List Event} (h : Clocked startMs events) (s : RelayServer) :
    (startMs :: (signals a s events).map Signal.time).Pairwise (· ≤ ·) :=
  List.Pairwise.sublist ((times_signals s events).cons_cons startMs) h

theorem Clocked.beginning {events more : List Event} (h : Clocked startMs (events ++ more)) :
    Clocked startMs events := by
  rw [Clocked, List.flatMap_append] at h
  exact List.Pairwise.sublist ((List.sublist_append_left _ _).cons_cons startMs) h

/-! ### What the signals stand for -/

theorem reopens_signal (at_ : RelayServer × Event) :
    ((signal a at_).map fun s => decide (s.Reopens kRateWindowMs fromMs)).getD false =
      decide (Enrols a fromMs at_) := by
  rcases at_ with ⟨s, event⟩
  cases event with
  | packet packet tickMs handlerMs =>
    by_cases ha : packet.systemAddress = a
    · subst ha
      cases hfind : findByAddress s.players packet.systemAddress with
      | some p => simp [signal_known hfind, Enrols, hfind]
      | none =>
        rw [signal_stranger hfind]
        cases hafter : findByAddress (step s (.packet packet tickMs handlerMs)).1.players
            packet.systemAddress <;> simp [Enrols, hfind, hafter]
    · simp [signal, Enrols, ha]
  | _ => rfl

theorem reopens_signals (s : RelayServer) (events : List Event) :
    ((signals a s events).countP fun s => decide (s.Reopens kRateWindowMs fromMs)) =
      (server.steps s events).countP fun at_ => decide (Enrols a fromMs at_) := by
  rw [signals, List.countP_filterMap]
  exact List.countP_congr fun at_ _ => by rw [reopens_signal]

theorem arrives_signals (s : RelayServer) (events : List Event) :
    ((signals a s events).countP fun s => decide (s.Arrives kRateWindowMs fromMs)) ≤
      (server.steps s events).countP fun at_ => decide (Hears a fromMs at_) := by
  rw [signals, List.countP_filterMap]
  refine List.countP_mono_left ?_
  rintro ⟨s, event⟩ _ harrives
  cases event with
  | packet packet tickMs handlerMs =>
    by_cases ha : packet.systemAddress = a
    · subst ha
      cases hfind : findByAddress s.players packet.systemAddress with
      | some p =>
        rw [signal_known hfind] at harrives
        simpa [Hears] using harrives
      | none =>
        rw [signal_stranger hfind] at harrives
        cases hafter : findByAddress (step s (.packet packet tickMs handlerMs)).1.players
            packet.systemAddress <;> simp [hafter] at harrives
    · simp [signal, ha] at harrives
  | _ => cases harrives

theorem tracks_start (config : Config) (restored : Option Vec3) :
    Tracks a (start config startMs restored) { start := startMs, count := 0 } := by
  intro p hp
  cases hp

theorem serverInv_start (config : Config) (startMs : Int) (restored : Option Vec3) :
    ServerInv config (start config startMs restored) :=
  serverInv_run config startMs restored []

/-- A packet that the guard turns away is one of a crowd from its address. -/
theorem crowded_of_turned_away {restored : Option Vec3} {before : List Event}
    (hclock : Clocked startMs (before ++ [.packet packet tickMs handlerMs]))
    (hrefused : ((server.state (start config startMs restored) before).bookkeep packet tickMs).2 =
      false) :
    ∃ fromMs, fromMs ≤ tickMs ∧ tickMs < fromMs + kRateWindowMs ∧
      kMaxPacketsPerSecond <
        (server.steps (start config startMs restored)
          (before ++ [.packet packet tickMs handlerMs])).countP
            fun at_ => decide (Hears packet.systemAddress fromMs at_) := by
  let s₀ := start config startMs restored
  let a := packet.systemAddress
  cases hfind : findByAddress (server.state s₀ before).players packet.systemAddress with
  | none =>
    rw [bookkeep_of_stranger hfind] at hrefused
    cases hrefused
  | some p =>
    have hsignals : signals a s₀ (before ++ [.packet packet tickMs handlerMs]) =
        signals a s₀ before ++ [.arrive tickMs] := by
      rw [signals_append, signals_cons, signal_known hfind]
      rfl
    have hsorted := hclock.sorted (a := a) s₀
    rw [hsignals] at hsorted
    have htracks : Tracks a s₀ { start := startMs, count := 0 } := tracks_start config restored
    have hwindow := htracks.run (serverInv_start config startMs restored) before p hfind
    rw [bookkeep_of_find hfind, admitted_iff, hwindow, decide_eq_false_iff_not, not_lt] at hrefused
    rcases crowded_of_refused (by decide) rfl hsorted hrefused with ⟨fromMs, hfrom, hto, hcrowd⟩
    rw [← hsignals] at hcrowd
    exact ⟨fromMs, hfrom, hto, hcrowd.trans_le (arrives_signals _ _)⟩

end Guard

/-- As long as the clock does not run back: within any second, what the server sends to `b` on
account of the packets from `a` is at most 1200 messages, and 600 more for each time it has enrolled
`a` in that second; and it turns away a packet only if more than 600 have come from the same address
within a second, whatever the others send. -/
theorem flood_contained (config : Config) (startMs : Int) (restored : Option Vec3)
    (events : List Event) (hclock : Clocked startMs events) :
    let steps := server.steps (start config startMs restored) events
    (∀ a b fromMs, a ≠ b → (copiesFor a b fromMs steps).length ≤
      600 * ((steps.countP fun at_ => decide (Enrols a fromMs at_)) + 2)) ∧
    ∀ s packet tickMs handlerMs, (s, Event.packet packet tickMs handlerMs) ∈ steps →
      (s.bookkeep packet tickMs).2 = false → ∃ fromMs, fromMs ≤ tickMs ∧ tickMs < fromMs + 1000 ∧
        600 < steps.countP fun at_ => decide (Hears packet.systemAddress fromMs at_) := by
  intro steps
  constructor
  · intro a b fromMs hab
    have htracks : Tracks a (start config startMs restored) { start := startMs, count := 0 } :=
      tracks_start config restored
    refine (copies_run (serverInv_start config startMs restored) htracks hab fromMs events).trans ?_
    rw [← reopens_signals]
    exact admitted_within_span fromMs (hclock.sorted _)
  · intro s packet tickMs handlerMs hmem hrefused
    rcases server.exists_of_mem_steps hmem with ⟨before, after, rfl, rfl⟩
    have hsplit : before ++ Event.packet packet tickMs handlerMs :: after =
        (before ++ [.packet packet tickMs handlerMs]) ++ after := by simp
    rw [hsplit] at hclock
    rcases crowded_of_turned_away hclock.beginning hrefused with ⟨fromMs, hfrom, hto, hcrowd⟩
    refine ⟨fromMs, hfrom, hto, hcrowd.trans_le ?_⟩
    -- The packets behind this one only add to the crowd.
    have hsteps := server.steps_append (start config startMs restored)
      (before ++ [Event.packet packet tickMs handlerMs]) after
    rw [← hsplit] at hsteps
    simp only [steps, hsteps, List.countP_append]
    exact Nat.le_add_right _ _

/-- Players 1 and 2 spawn, and player 1 moves. -/
theorem flood_contained_move :
    let events := [joinEvent 1, spawnEvent 1 10, joinEvent 2, spawnEvent 2 20,
      clientEvent 1 idPlayerMovement (List.replicate 28 0)]
    let steps := server.steps (start {} 0 none) events
    (copiesFor (clientAddress 1) (clientAddress 2) 0 steps).length = 1 ∧
      (copiesFor (clientAddress 1) (clientAddress 2) 0 steps).length ≤
        600 * ((steps.countP fun at_ => decide (Enrols (clientAddress 1) 0 at_)) + 2) := by
  intro events steps
  have hcontained := (flood_contained {} 0 none events (by decide)).1
  exact ⟨by decide +kernel, hcontained (clientAddress 1) (clientAddress 2) 0 (by decide)⟩

end Server
end Crossover
