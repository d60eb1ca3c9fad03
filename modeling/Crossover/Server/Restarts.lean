import Crossover.Server.StateFile

/-!
# Restarts — the rendezvous point across server processes

A server process can be stopped, killed and started again, each time with another configuration;
only the files stay.  `Ledger` is what an operator notes down about them: the position that was last
written to each one.  With nobody in the world a client that joins is sent there, however many
processes there have been since.
-/

namespace Crossover
namespace Server

open Wire Binary32

/-! ## The host -/

/-- The files of the host. -/
abbrev Disk := String → Option (List Char)

/-- `LoadPersistedAnchor`, given whether the state file can be opened for reading. -/
def loadPersistedAnchor (config : Config) (disk : Disk) (readable : Bool) : Option Vec3 :=
  if config.stateFile = "" then none
  else if readable then (disk config.stateFile).bind readStateFile
  else none

/-- The position that `PersistAnchor` writes to the state file, if it gets that far. -/
def RelayServer.persisted (s : RelayServer) (writable : Bool) : Option Vec3 :=
  if s.config.stateFile = "" then none
  else
    match anchorPlayer s.players with
    | none => none
    | some a => if writable then some a.position else none

/-- The position that the event has the server write. -/
def written (s : RelayServer) (event : Event) : Option Vec3 :=
  if !s.peer then none
  else
    match event with
    | .packet _ _ _ => none
    | .tickEnd nowMs _ writable =>
        if nowMs - s.lastPersistMs > kPersistIntervalMs then s.persisted writable else none
    | .stop writable => s.persisted writable

structure Host where
  server : RelayServer
  disk : Disk

inductive HostEvent
  /-- A process is started.  The one before may have been stopped or just be gone. -/
  | boot (config : Config) (nowMs : Int) (readable : Bool)
  | event (event : Event)

def Host.store (h : Host) (event : Event) : Disk :=
  match written h.server event with
  | none => h.disk
  | some v => Function.update h.disk h.server.config.stateFile (some (stateFileText v))

def Host.step (h : Host) : HostEvent → Host × List PeerCall
  | .boot config nowMs readable =>
      ({ h with server := start config nowMs (loadPersistedAnchor config h.disk readable) }, [])
  | .event event =>
      ({ server := (Server.step h.server event).1, disk := h.store event },
        (Server.step h.server event).2)

def host : Machine Host HostEvent PeerCall where
  step := Host.step

@[simp] theorem host_step (h : Host) (event : HostEvent) : host.step h event = h.step event :=
  rfl

/-- The host before any server has run on it. -/
def Host.idle (disk : Disk) : Host where
  server := { config := {} }
  disk := disk

/-! ## The ledger -/

/-- What an operator notes down. -/
structure Ledger where
  /-- The position last written to each file, or the one that it has held from the outset. -/
  noted : String → Option Vec3
  /-- Whether the process that runs could read its state file or has written it. -/
  informed : Bool
  /-- Whether it has written it. -/
  own : Bool

namespace Ledger

def ofDisk (disk : Disk) : Ledger where
  noted := fun path => (disk path).bind readStateFile
  informed := false
  own := false

def observe (l : Ledger) (h : Host) : HostEvent → Ledger
  | .boot _ _ readable => { l with informed := readable, own := false }
  | .event event =>
      match written h.server event with
      | none => l
      | some v =>
          { noted := Function.update l.noted h.server.config.stateFile (some v)
            informed := true
            own := true }

end Ledger

/-- What the operator has noted after a run. -/
def ledger : Host → Ledger → List HostEvent → Ledger
  | _, l, [] => l
  | h, l, event :: events => ledger (h.step event).1 (l.observe h event) events

/-! ## What the process keeps -/

section Memory

variable {s : RelayServer} {config : Config}

/-- The position that the process keeps for an empty world. -/
def RelayServer.memory (s : RelayServer) : Option Vec3 :=
  if s.persistedAnchorKnown then some s.persistedAnchor else none

theorem persistAnchor_memory (writable : Bool) :
    (s.persistAnchor writable).memory = (s.persisted writable).or s.memory := by
  simp only [RelayServer.persistAnchor, RelayServer.persisted]
  split
  · rfl
  · cases anchorPlayer s.players with
    | none => rfl
    | some a => cases writable <;> rfl

/-- The process keeps what it has written, and otherwise what it kept. -/
theorem step_memory (s : RelayServer) (event : Event) :
    (step s event).1.memory = (written s event).or s.memory := by
  rw [step.eq_def, written.eq_def]
  cases s.peer with
  | false => rfl
  | true =>
    simp only [Bool.not_true, Bool.false_eq_true, if_false]
    cases event with
    | packet packet tickMs handlerMs =>
      simp only
      rw [tickPacket_frame]
      rfl
    | tickEnd nowMs persistMs writable =>
      simp only [RelayServer.tickEnd]
      split
      · exact persistAnchor_memory (s := { s with lastPersistMs := persistMs }) writable
      · rfl
    | stop writable => exact persistAnchor_memory writable

theorem start_memory (config : Config) (nowMs : Int) (disk : Disk) (readable : Bool) :
    (start config nowMs (loadPersistedAnchor config disk readable)).memory =
      loadPersistedAnchor config disk readable := by
  by_cases hfile : config.stateFile = ""
  · simp [start, loadPersistedAnchor, RelayServer.memory, hfile]
  · cases hread : loadPersistedAnchor config disk readable <;>
      simp [start, RelayServer.memory, hfile]

/-- Only a server with a state file writes. -/
theorem written_file {event : Event} {v : Vec3} (h : written s event = some v) :
    s.config.stateFile ≠ "" := by
  intro hfile
  have hnothing : ∀ writable, s.persisted writable = none := by
    intro writable
    rw [RelayServer.persisted, if_pos hfile]
  cases event <;> simp [written, hnothing] at h

/-- Where a client is sent while nobody is in the world. -/
theorem spawnPositionFor_of_nobody (hmode : s.config.spawnMode = .anchor)
    (hunset : s.config.spawnConfigured = false) (hnobody : ∀ p ∈ s.players, p.spawned = false) :
    s.spawnPositionFor = s.memory.getD s.config.spawn := by
  have hanchor : anchorPlayer s.players = none := by
    have hlowest := lowestOf_anchorPlayer s.players
    cases hbest : anchorPlayer s.players with
    | none => rfl
    | some best =>
      rw [hbest] at hlowest
      have hspawned := hlowest.2.1
      rw [hnobody best hlowest.1] at hspawned
      cases hspawned
  rw [RelayServer.spawnPositionFor, if_pos hmode, hanchor, hunset, RelayServer.memory]
  cases s.persistedAnchorKnown <;> rfl

end Memory

/-! ## The ledger and the files -/

/-- A stream reads no infinity and no NaN. -/
theorem readFloat_finite {text rest : List Char} {bits : UInt32}
    (h : readFloat text = some (bits, rest)) : FloatFinite bits := by
  rw [readFloat] at h
  split at h
  · cases h
  · rcases Option.bind_eq_some_iff.1 h with ⟨exponent, -, hbits⟩
    rcases Option.map_eq_some_iff.1 hbits with ⟨read, hread, heq⟩
    have hsame : read = bits := congrArg Prod.fst heq
    rw [← hsame]
    refine toFloat_finite ?_ hread
    simp only [Json.decimal, Bool.false_eq_true, if_false]
    exact mul_nonneg (by positivity) (zpow_nonneg (by norm_num) _)

/-- So whatever `Start` restores is finite. -/
theorem readStateFile_finite {text : List Char} {v : Vec3} (h : readStateFile text = some v) :
    PositionFinite v := by
  rcases Option.bind_eq_some_iff.1 h with ⟨x, hx, hrest⟩
  rcases Option.bind_eq_some_iff.1 hrest with ⟨y, hy, hz⟩
  rcases Option.map_eq_some_iff.1 hz with ⟨z, hread, rfl⟩
  exact ⟨readFloat_finite hx, readFloat_finite hy, readFloat_finite hread⟩

/-- A file and the note about it: nothing has been written, or the last thing written was this. -/
inductive Holds : Option (List Char) → Option Vec3 → Prop
  | untouched (content : Option (List Char)) : Holds content (content.bind readStateFile)
  | written (v : Vec3) : Holds (some (stateFileText v)) (some v)

/-- A note and what a process that is informed keeps in memory; `own` says whether it has written
the position itself. -/
inductive Recalls : Bool → Option Vec3 → Option Vec3 → Prop
  | nothing : Recalls false none none
  | own (v : Vec3) : Recalls true (some v) (some v)
  | found {v : Vec3} (h : PositionFinite v) : Recalls false (some v) (some v)
  | restored {v : Vec3} (h : PositionFinite v) : Recalls false (some v) (some (restoredAnchor v))
  | lost {v : Vec3} (h : ¬ PositionFinite v) : Recalls false (some v) none

theorem Holds.recalls {content : Option (List Char)} {note : Option Vec3} (h : Holds content note) :
    Recalls false note (content.bind readStateFile) := by
  cases h with
  | untouched =>
    cases hread : content.bind readStateFile with
    | none => exact Recalls.nothing
    | some v =>
      rcases Option.bind_eq_some_iff.1 hread with ⟨text, _, hv⟩
      exact Recalls.found (readStateFile_finite hv)
  | written v =>
    rw [Option.bind_some]
    by_cases hv : PositionFinite v
    · rw [readStateFile_text hv]
      exact Recalls.restored hv
    · rw [readStateFile_not_finite hv]
      exact Recalls.lost hv

/-- The ledger is right about the files, and the process remembers what the ledger says. -/
structure Recorded (h : Host) (l : Ledger) : Prop where
  server : ServerInv h.server.config h.server
  files : ∀ path, Holds (h.disk path) (l.noted path)
  informed : h.server.config.stateFile ≠ "" → l.informed = true →
    Recalls l.own (l.noted h.server.config.stateFile) h.server.memory
  uninformed : l.informed = false ∨ h.server.config.stateFile = "" → h.server.memory = none

theorem recorded_idle (disk : Disk) : Recorded (Host.idle disk) (Ledger.ofDisk disk) where
  server := ⟨rfl, tableInv_of_nil rfl, fun _ => rfl⟩
  files := fun path => Holds.untouched (disk path)
  informed := fun hfile => absurd rfl hfile
  uninformed := fun _ => rfl

theorem Recorded.step {h : Host} {l : Ledger} (hr : Recorded h l) (event : HostEvent) :
    Recorded (h.step event).1 (l.observe h event) := by
  cases event with
  | boot config nowMs readable =>
    have hmemory : (h.step (.boot config nowMs readable)).1.server.memory =
        loadPersistedAnchor config h.disk readable := start_memory config nowMs h.disk readable
    refine ⟨⟨rfl, tableInv_of_nil rfl, fun _ => rfl⟩, hr.files, ?_, ?_⟩
    · intro (hfile : config.stateFile ≠ "") (hreadable : readable = true)
      rw [hmemory, loadPersistedAnchor, if_neg hfile, if_pos hreadable]
      exact (hr.files config.stateFile).recalls
    · intro hnothing
      rw [hmemory, loadPersistedAnchor]
      rcases hnothing with (hclosed : readable = false) | (hfile : config.stateFile = "")
      · rw [hclosed]
        simp
      · rw [if_pos hfile]
  | event event =>
    have hserver := hr.server.step event
    have hconfig : (h.step (.event event)).1.server.config = h.server.config := hserver.config
    have hmemory : (h.step (.event event)).1.server.memory =
        (written h.server event).or h.server.memory := step_memory h.server event
    refine ⟨?_, ?_, ?_, ?_⟩
    · rw [hconfig]
      exact hserver
    · intro path
      simp only [Host.step, Host.store, Ledger.observe]
      cases written h.server event with
      | none => exact hr.files path
      | some v =>
        by_cases hpath : path = h.server.config.stateFile
        · rw [hpath]
          simp only [Function.update_self]
          exact Holds.written v
        · simp only [Function.update_of_ne hpath]
          exact hr.files path
    · intro hfile hinformed
      rw [hconfig] at hfile ⊢
      rw [hmemory]
      cases hwritten : written h.server event with
      | none =>
        simp only [Ledger.observe, hwritten] at hinformed ⊢
        exact hr.informed hfile hinformed
      | some v =>
        simp only [Ledger.observe, hwritten, Function.update_self]
        exact Recalls.own v
    · intro hnothing
      rw [hconfig] at hnothing
      rw [hmemory]
      cases hwritten : written h.server event with
      | none =>
        simp only [Ledger.observe, hwritten] at hnothing
        exact hr.uninformed hnothing
      | some v =>
        -- Who has written is informed and has a file.
        simp only [Ledger.observe, hwritten, Bool.true_eq_false, false_or] at hnothing
        exact absurd hnothing (written_file hwritten)

theorem Recorded.run {h : Host} {l : Ledger} (hr : Recorded h l) (events : List HostEvent) :
    Recorded (host.state h events) (ledger h l events) := by
  induction events generalizing h l with
  | nil => exact hr
  | cons event events ih =>
    rw [Machine.state_cons]
    exact ih (hr.step event)

/-! ## Where a client is sent -/

/-- A position is what another one is restored as, or that one itself. -/
structure PositionRestores (v w : Vec3) : Prop where
  x : Restores v.x w.x
  y : Restores v.y w.y
  z : Restores v.z w.z

theorem PositionRestores.refl {v : Vec3} (h : PositionFinite v) : PositionRestores v v := by
  have hself : ∀ {bits}, FloatFinite bits → Restores bits bits :=
    fun hbits => ⟨hbits, by simp, rfl⟩
  exact ⟨hself h.x, hself h.y, hself h.z⟩

theorem positionRestores_restoredAnchor {v : Vec3} (h : PositionFinite v) :
    PositionRestores v (restoredAnchor v) where
  x := restores_restoredFloat h.x
  y := restores_restoredFloat h.y
  z := restores_restoredFloat h.z

/-- Where a client is sent that joins with nobody in the world, by what has been noted. -/
def ReturnsTo (own : Bool) (note : Option Vec3) (spawn position : Vec3) : Prop :=
  match note with
  | none => position = spawn
  | some v =>
      if own then position = v
      else if PositionFinite v then PositionRestores v position
      -- A position that cannot be read back is lost with the process.
      else position = spawn

theorem Recalls.returnsTo {own : Bool} {note memory : Option Vec3} (h : Recalls own note memory)
    (spawn : Vec3) : ReturnsTo own note spawn (memory.getD spawn) := by
  cases h with
  | nothing => rfl
  | own v => rfl
  | found hv =>
    rw [ReturnsTo, if_neg Bool.false_ne_true, if_pos hv]
    exact PositionRestores.refl hv
  | restored hv =>
    rw [ReturnsTo, if_neg Bool.false_ne_true, if_pos hv]
    exact positionRestores_restoredAnchor hv
  | lost hv =>
    rw [ReturnsTo, if_neg Bool.false_ne_true, if_neg hv]
    rfl

/-- However often the server has been stopped, killed and started again, with whatever
configurations: with nobody in the world a client that joins is sent to the position that was last
written to the state file, exactly if this process has written it and within one part in a hundred
thousand if an earlier one has, or to the configured spawn if there is none, if it was not finite
when an earlier process wrote it or if the file could not be read. -/
theorem rendezvous_survives (disk : Disk) (events : List HostEvent) (event : Event)
    (a : SystemAddress) (id : Int32) (position : Vec3) :
    let h := host.state (Host.idle disk) events
    let l := ledger (Host.idle disk) (Ledger.ofDisk disk) events
    h.server.config.spawnMode = .anchor → h.server.config.spawnConfigured = false →
      (∀ p ∈ h.server.players, p.spawned = false) →
      (Message.createLocalNetPlayer id position).sendTo a ∈ (host.step h (.event event)).2 →
        (l.informed = true → h.server.config.stateFile ≠ "" →
          ReturnsTo l.own (l.noted h.server.config.stateFile) h.server.config.spawn position) ∧
        (l.informed = false ∨ h.server.config.stateFile = "" →
          position = h.server.config.spawn) := by
  intro h l hmode hunset hnobody hsent
  have hr : Recorded h l := (recorded_idle disk).run events
  have hposition : position = h.server.memory.getD h.server.config.spawn := by
    rw [← spawnPositionFor_of_nobody hmode hunset hnobody]
    rcases step_joins (joins_of_assign hr.server hsent) with ⟨b, k, hcalls⟩
    rw [host_step, Host.step, hcalls] at hsent
    have hmessages := Message.eq_of_sendTo (m := .createLocalNetPlayer id position)
      (n := .createLocalNetPlayer k h.server.spawnPositionFor) trivial trivial
      (List.mem_singleton.1 hsent)
    injection hmessages.1
  rw [hposition]
  constructor
  · intro hinformed hfile
    exact (hr.informed hfile hinformed).returnsTo _
  · intro hnothing
    rw [hr.uninformed hnothing]
    rfl

/-! ## How old the file is -/

/-- The host behind events of the process that runs. -/
def Host.after (h : Host) (events : List Event) : Host :=
  host.state h (events.map HostEvent.event)

section Age

variable {h₀ h : Host} {events : List Event}

theorem after_snoc (h : Host) (events : List Event) (event : Event) :
    h.after (events ++ [event]) = ((h.after events).step (.event event)).1 := by
  rw [Host.after, List.map_append]
  exact Machine.state_snoc ..

theorem server_after (h : Host) (events : List Event) :
    (h.after events).server = server.state h.server events := by
  induction events using List.reverseRecOn with
  | nil => rfl
  | append_singleton events event ih =>
    rw [after_snoc, Machine.state_snoc, ← ih]
    rfl

/-- The volume takes writes, and the clock, a steady one, does not run back within a tick. -/
def TicksWrite (events : List Event) : Prop :=
  ∀ nowMs persistMs writable, Event.tickEnd nowMs persistMs writable ∈ events →
    nowMs ≤ persistMs ∧ writable = true

/-- `Tick` calls `PersistAnchor`. -/
abbrev Due (s : RelayServer) (nowMs : Int) : Prop :=
  nowMs - s.lastPersistMs > kPersistIntervalMs

/-- Nothing has been due since the process was started, or the files are as the last tick that was
due has left them, and the interval is counted from there. -/
def KeptSince (h₀ : Host) (events : List Event) (h : Host) : Prop :=
  h.server.lastPersistMs = h₀.server.lastPersistMs ∧ h.disk = h₀.disk ∨
    ∃ before after nowMs persistMs,
      events = before ++ Event.tickEnd nowMs persistMs true :: after ∧
      (h₀.after before).server.peer = true ∧ Due (h₀.after before).server nowMs ∧
      h.server.lastPersistMs = persistMs ∧
      h.disk = (h₀.after before).store (.tickEnd nowMs persistMs true)

theorem KeptSince.later (hkept : KeptSince h₀ events h) {h' : Host} (event : Event)
    (hlast : h'.server.lastPersistMs = h.server.lastPersistMs) (hdisk : h'.disk = h.disk) :
    KeptSince h₀ (events ++ [event]) h' := by
  rw [KeptSince, hlast, hdisk]
  refine hkept.imp id ?_
  rintro ⟨before, after, nowMs, persistMs, rfl, hrest⟩
  exact ⟨before, after ++ [event], nowMs, persistMs, by simp, hrest⟩

theorem store_none {event : Event} (h : Host) (hnothing : written h.server event = none) :
    h.store event = h.disk := by
  rw [Host.store, hnothing]

section Ticks

variable {s : RelayServer} {nowMs persistMs : Int} {writable : Bool}

theorem step_tickEnd (hup : s.peer = true) (nowMs persistMs : Int) (writable : Bool) :
    (step s (.tickEnd nowMs persistMs writable)).1 = s.tickEnd nowMs persistMs writable := by
  simp only [step, hup, Bool.not_true, Bool.false_eq_true, if_false]

/-- The tick that writes starts a new interval. -/
theorem tickEnd_due (hdue : Due s nowMs) :
    (s.tickEnd nowMs persistMs writable).lastPersistMs = persistMs := by
  rw [RelayServer.tickEnd, if_pos hdue, RelayServer.persistAnchor]
  split
  · rfl
  · split
    · rfl
    · split <;> rfl

theorem tickEnd_not_due (hnot : ¬ Due s nowMs) : s.tickEnd nowMs persistMs writable = s :=
  if_neg hnot

/-- Behind a tick the interval has been running for ten seconds at most. -/
theorem tickEnd_recent (hclock : nowMs ≤ persistMs) :
    nowMs - (s.tickEnd nowMs persistMs writable).lastPersistMs ≤ kPersistIntervalMs := by
  by_cases hdue : Due s nowMs
  · rw [tickEnd_due hdue]
    exact (Int.sub_nonpos_of_le hclock).trans (by decide)
  · rw [tickEnd_not_due hdue]
    exact not_lt.1 hdue

theorem written_not_due (hnot : ¬ Due s nowMs) :
    written s (.tickEnd nowMs persistMs writable) = none := by
  cases hup : s.peer with
  | false => simp [written, hup]
  | true =>
    simp only [written, hup, Bool.not_true, Bool.false_eq_true, if_false]
    exact if_neg hnot

/-- What a tick that is due writes. -/
theorem written_due (hup : s.peer = true) (hfile : s.config.stateFile ≠ "") (hdue : Due s nowMs) :
    written s (.tickEnd nowMs persistMs true) = (anchorPlayer s.players).map Player.position := by
  simp only [written, hup, Bool.not_true, Bool.false_eq_true, if_false]
  rw [if_pos hdue, RelayServer.persisted, if_neg hfile]
  cases anchorPlayer s.players <;> rfl

/-- What the state file holds behind a tick that is due. -/
theorem store_due (h : Host) (hup : h.server.peer = true)
    (hfile : h.server.config.stateFile ≠ "") (hdue : Due h.server nowMs) :
    h.store (.tickEnd nowMs persistMs true) h.server.config.stateFile =
      match anchorPlayer h.server.players with
      | some anchor => some (stateFileText anchor.position)
      | none => h.disk h.server.config.stateFile := by
  rw [Host.store, written_due hup hfile hdue]
  cases anchorPlayer h.server.players with
  | none => rfl
  | some anchor => exact Function.update_self ..

end Ticks

theorem KeptSince.step (hkept : KeptSince h₀ events (h₀.after events))
    (hup : (h₀.after events).server.peer = true) {event : Event}
    (hwrites : TicksWrite [event]) (hpeer : (h₀.after (events ++ [event])).server.peer = true) :
    KeptSince h₀ (events ++ [event]) (h₀.after (events ++ [event])) := by
  rw [after_snoc] at hpeer ⊢
  generalize hh : h₀.after events = h at hkept hup hpeer ⊢
  cases event with
  | packet packet tickMs handlerMs =>
    refine hkept.later _ ?_ ?_
    · simp only [Host.step, Server.step, hup, Bool.not_true, Bool.false_eq_true, if_false]
      rw [tickPacket_frame]
    · exact store_none h (by simp [written])
  | tickEnd nowMs persistMs writable =>
    have hwritable := (hwrites nowMs persistMs writable (List.mem_singleton_self _)).2
    by_cases hdue : Due h.server nowMs
    · refine Or.inr ⟨events, [], nowMs, persistMs, by rw [hwritable], by rw [hh, hup],
        by rw [hh]; exact hdue, ?_, ?_⟩
      · exact (congrArg RelayServer.lastPersistMs (step_tickEnd hup ..)).trans (tickEnd_due hdue)
      · rw [hh, hwritable]
        rfl
    · refine hkept.later _ ?_ ?_
      · simp only [Host.step, step_tickEnd hup, tickEnd_not_due hdue]
      · exact store_none h (written_not_due hdue)
  | stop writable => simp [Host.step, Server.step, hup, RelayServer.stop] at hpeer

/-- A server that is up has been up before. -/
theorem peer_of_peer_step {s : RelayServer} {event : Event} (h : (step s event).1.peer = true) :
    s.peer = true := by
  by_contra hdown
  rw [step.eq_def, if_pos (by simpa using hdown)] at h
  exact hdown h

theorem keptSince_run (htick : TicksWrite events) (hpeer : (h₀.after events).server.peer = true) :
    KeptSince h₀ events (h₀.after events) := by
  induction events using List.reverseRecOn with
  | nil => exact Or.inl ⟨rfl, rfl⟩
  | append_singleton events event ih =>
    have hbefore : TicksWrite events := fun t p w hmem =>
      htick t p w (List.mem_append_left _ hmem)
    have hlast : TicksWrite [event] := fun t p w hmem => htick t p w (List.mem_append_right _ hmem)
    have hup : (h₀.after events).server.peer = true := by
      rw [after_snoc] at hpeer
      exact peer_of_peer_step hpeer
    exact (ih hbefore hup).step hup hlast hpeer

/-- What the state file has been given: at a tick that was due, an interval ago at most, the
position that the anchor had last reported, or nothing new if nobody was in the world then; or
nothing at all by a server that has not been up for longer than that. -/
def PersistedInTime (h₀ : Host) (events : List Event) (nowMs : Int) : Prop :=
  let path := h₀.server.config.stateFile
  let content := (h₀.after events).disk path
  nowMs - h₀.server.startedAtMs ≤ kPersistIntervalMs ∧ content = h₀.disk path ∨
    ∃ before after thenMs keptMs,
      events = before ++ Event.tickEnd thenMs keptMs true :: after ∧
      Due (h₀.after before).server thenMs ∧ nowMs - keptMs ≤ kPersistIntervalMs ∧
      match anchorPlayer (h₀.after before).server.players with
      | some anchor =>
          (chronicle h₀.server before).lastReport anchor.address = some anchor.position ∧
            content = some (stateFileText anchor.position)
      | none => content = (h₀.after before).disk path

/-- At the end of every tick of a server that runs, what is on disk is at most ten seconds old, if
somebody was in the world when it was last due. -/
theorem persisted_in_time (h : Host) (config : Config) (startMs : Int) (readable : Bool)
    (events : List Event) (nowMs persistMs : Int) (hfile : config.stateFile ≠ "")
    (htick : TicksWrite (events ++ [.tickEnd nowMs persistMs true]))
    (hpeer : ((h.step (.boot config startMs readable)).1.after events).server.peer = true) :
    PersistedInTime (h.step (.boot config startMs readable)).1
      (events ++ [.tickEnd nowMs persistMs true]) nowMs := by
  let h₀ := (h.step (.boot config startMs readable)).1
  let ticked := events ++ [Event.tickEnd nowMs persistMs true]
  let restored := loadPersistedAnchor config h.disk readable
  have hstart : h₀.server = start config startMs restored := rfl
  have hconfig : ∀ before, (h₀.after before).server.config = config := by
    intro before
    rw [server_after, hstart]
    exact (serverInv_run config startMs restored before).config
  have htickEnd : (h₀.after ticked).server =
      (h₀.after events).server.tickEnd nowMs persistMs true := by
    rw [after_snoc]
    exact step_tickEnd hpeer nowMs persistMs true
  have hlast : nowMs - (h₀.after ticked).server.lastPersistMs ≤ kPersistIntervalMs := by
    rw [htickEnd]
    exact tickEnd_recent (htick nowMs persistMs true (by simp)).1
  have hup : (h₀.after ticked).server.peer = true := by
    rw [htickEnd, (keepsTable_tickEnd _ nowMs persistMs true).peer]
    exact hpeer
  rcases keptSince_run htick hup with
    ⟨hnever, hdisk⟩ | ⟨before, after, thenMs, keptMs, hsplit, hthen, hdue, hkeptMs, hdisk⟩
  · rw [hnever] at hlast
    exact Or.inl ⟨hlast, congrFun hdisk _⟩
  · rw [hkeptMs] at hlast
    refine Or.inr ⟨before, after, thenMs, keptMs, hsplit, hdue, hlast, ?_⟩
    have hstored := @store_due thenMs keptMs (h₀.after before) hthen
      (by rw [hconfig]; exact hfile) hdue
    rw [← hdisk, hconfig] at hstored
    have hlowest := lowestOf_anchorPlayer (h₀.after before).server.players
    cases hanchor : anchorPlayer (h₀.after before).server.players with
    | none =>
      rw [hanchor] at hstored
      exact hstored
    | some anchor =>
      rw [hanchor] at hstored hlowest
      rw [server_after, hstart] at hlowest
      have hreported := (chronicles_run config startMs restored before).positions anchor
        hlowest.1 hlowest.2.1
      exact ⟨hreported, hstored⟩

/-- Player 1 has spawned at (10, 0, 0) when the first write is due. -/
theorem first_write_in_time :
    let h₀ := ((Host.idle fun _ => none).step (.boot { stateFile := "/data/anchor" } 0 true)).1
    let ticked := [joinEvent 1, spawnEvent 1 0x41200000] ++ [Event.tickEnd 20000 20000 true]
    PersistedInTime h₀ ticked 20000 ∧
      (h₀.after ticked).disk "/data/anchor" = some "10 0 0\n".toList := by
  intro h₀ ticked
  refine ⟨persisted_in_time _ _ 0 true [joinEvent 1, spawnEvent 1 0x41200000] 20000 20000
    (by decide) ?_ ?_, ?_⟩
  · intro nowMs persistMs writable hmem
    simp [joinEvent, spawnEvent, clientEvent] at hmem
    simp [hmem]
  · decide +kernel
  · decide +kernel

end Age

/-! ### A redeployment -/

section Redeployed

/-- The service as it is set up, with a volume. -/
def mounted : Config :=
  { stateFile := "/data/anchor" }

/-- Player 1 spawns at (1500.5, 2500.25, -42), a tick later the process is killed, and another one
takes over. -/
def redeployed : List HostEvent :=
  [.boot mounted 0 true, .event (joinEvent 1),
    .event (clientEvent 1 idCreateNetPlayer (encode (0 : Int32) ++ encode (2000 : Int32) ++
      encode ({ x := 0x44BB9000, y := 0x451C4400, z := 0xC2280000 } : Vec3))),
    .event (.tickEnd 20000 20000 true), .boot mounted 30000 true]

/-- The first client of the second process is sent there. -/
theorem redeployed_returns :
    let h := host.state (Host.idle fun _ => none) redeployed
    let l := ledger (Host.idle fun _ => none) (Ledger.ofDisk fun _ => none) redeployed
    ReturnsTo l.own (l.noted h.server.config.stateFile) h.server.config.spawn
      { x := 0x44BB9000, y := 0x451C4400, z := 0xC2280000 } := by
  intro h l
  refine (rendezvous_survives (fun _ => none) redeployed (joinEvent 2) (clientAddress 2) 1 _ rfl rfl
    ?_ ?_).1 rfl ?_
  · decide +kernel
  · decide +kernel
  · decide +kernel

end Redeployed

end Server
end Crossover
