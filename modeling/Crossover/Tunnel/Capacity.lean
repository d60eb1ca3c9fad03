import Crossover.Lib.Fallible
import Crossover.Tunnel.Pump

/-!
# Capacity — the tunnel's accept loop and its workers

`TunnelServer` with all its threads: `AcceptLoop` accepts a connection, tests `active_` and hands
the connection to a detached worker; each worker counts itself into `active_`, runs `PumpConnection`
and counts itself out.  An act is an atomic step of one thread, a list of acts an interleaving; an
act whose thread is not there ends the run.

`active_` counts the workers between their increment and their decrement (`active_run`), so a test
that comes before an increment reads a value that is behind (`capacity_iff`).
-/

namespace Crossover
namespace Tunnel

/-- Where `AcceptLoop` is. -/
inductive Acceptor
  | polling
  /-- `accept` has returned a connection. -/
  | accepted
  /-- The test of `active_` has let it through. -/
  | admitted
  deriving DecidableEq, Repr

/-- Where a worker is in `PumpConnection`. -/
inductive Worker
  /-- In front of `active_++`. -/
  | spawned
  | counted
  | socketOpened
  | pumping (pump : Pump)
  /-- Behind `close(tcpFd)`, in front of `active_--`. -/
  | closed
  | exited

/-- The steps of a worker; `round` is one round of its loop. -/
inductive WorkerAct
  | increment
  | socket (succeeds : Bool)
  | bind (succeeds : Bool)
  | round (event : PumpEvent)
  | leave
  | decrement

namespace Worker

/-- The worker behind the step, and what is added to `active_`. -/
def step : Worker → WorkerAct → Option (Worker × Int)
  | .spawned, .increment => some (.counted, 1)
  | .counted, .socket succeeds => some (if succeeds then .socketOpened else .closed, 0)
  | .socketOpened, .bind succeeds => some (if succeeds then .pumping {} else .closed, 0)
  | .pumping pump, .round event =>
      if pump.running then some (.pumping (pump.step event).1, 0) else none
  | .pumping pump, .leave =>
      if pump.running || pump.writing then none else some (.closed, 0)
  | .closed, .decrement => some (.exited, -1)
  | _, _ => none

/-- It has a connection that is not closed. -/
def isOpen : Worker → Bool
  | .closed => false
  | .exited => false
  | _ => true

/-- Its increment is still to come. -/
def isPending : Worker → Bool
  | .spawned => true
  | _ => false

/-- It has closed its connection, and its decrement is still to come. -/
def isClosing : Worker → Bool
  | .closed => true
  | _ => false

/-- It is between its increment and its decrement. -/
def isCounted : Worker → Bool
  | .spawned => false
  | .exited => false
  | _ => true

end Worker

structure TunnelServer where
  maxConnections : Int
  active : Int := 0
  acceptor : Acceptor := .polling
  workers : List Worker := []

inductive TunnelAct
  | accept
  | test
  | spawn
  | worker (index : Nat) (act : WorkerAct)

namespace TunnelServer

def step (server : TunnelServer) : TunnelAct → Except Unit TunnelServer
  | .accept =>
      if server.acceptor = .polling then .ok { server with acceptor := .accepted } else .error ()
  | .test =>
      if server.acceptor = .accepted then
        if server.active ≥ server.maxConnections then
          -- The connection is closed and nobody hears of it again.
          .ok { server with acceptor := .polling }
        else .ok { server with acceptor := .admitted }
      else .error ()
  | .spawn =>
      if server.acceptor = .admitted then
        -- The new thread counts itself when it gets to run.
        .ok { server with acceptor := .polling, workers := server.workers ++ [.spawned] }
      else .error ()
  | .worker index act =>
      match server.workers[index]? with
      | none => .error ()
      | some worker =>
          match worker.step act with
          | none => .error ()
          | some next =>
              .ok { server with
                active := server.active + next.2
                workers := server.workers.set index next.1 }

/-- A tunnel behind `Start`. -/
def start (maxConnections : Int) : TunnelServer where
  maxConnections := maxConnections

/-- The connections that have been handed to a worker and are not closed. -/
def openConnections (server : TunnelServer) : Nat :=
  server.workers.countP Worker.isOpen

def pending (server : TunnelServer) : Nat :=
  server.workers.countP Worker.isPending

def closing (server : TunnelServer) : Nat :=
  server.workers.countP Worker.isClosing

def Within (server : TunnelServer) : Prop :=
  server.openConnections ≤ server.maxConnections

/-- With all workers gone nothing is counted. -/
def Drained (server : TunnelServer) : Prop :=
  (∀ worker ∈ server.workers, worker = .exited) → server.active = 0

/-- The workers still to be counted fit into the places that `active_` shows free, those of the
connections closed meanwhile included, whenever another one is spawned. -/
def Roomy (server : TunnelServer) : TunnelAct → Prop
  | .spawn => server.acceptor = .admitted →
      server.active + server.pending < server.maxConnections + server.closing
  | _ => True

end TunnelServer

/-- What the tunnel's capacity asks of an interleaving. -/
structure HoldsCapacity (maxConnections : Int) (acts : List TunnelAct) : Prop where
  within : Fallible.StatesSatisfy TunnelServer.step TunnelServer.Within
    (TunnelServer.start maxConnections) acts
  drained : Fallible.StatesSatisfy TunnelServer.step TunnelServer.Drained
    (TunnelServer.start maxConnections) acts

/-! ## Workers -/

/-- Every worker is counted in its connection's time, but for the two ends. -/
theorem Worker.open_add_closing (worker : Worker) :
    worker.isOpen.toNat + worker.isClosing.toNat =
      worker.isPending.toNat + worker.isCounted.toNat := by
  cases worker <;> rfl

/-- A worker leaves its loop when the loop is over and no write holds it up. -/
theorem Worker.step_leave {pump : Pump} {next : Worker × Int}
    (h : (Worker.pumping pump).step .leave = some next) :
    pump.running = false ∧ pump.writing = false ∧ next = (.closed, 0) := by
  simp only [Worker.step] at h
  split at h
  · cases h
  · rename_i hover
    simp only [Bool.or_eq_true, not_or, Bool.not_eq_true] at hover
    exact ⟨hover.1, hover.2, (Option.some.inj h).symm⟩

/-- What a step of a worker can do: what it adds to `active_` is what it adds to the counted
workers, no closed connection is opened again, nobody goes back in front of the increment, and who
is not in front of it is counted. -/
theorem Worker.step_spec {worker : Worker} {act : WorkerAct} {next : Worker × Int}
    (h : worker.step act = some next) :
    (next.1.isCounted.toNat : Int) = worker.isCounted.toNat + next.2 ∧
      next.1.isOpen.toNat ≤ worker.isOpen.toNat ∧ next.1.isPending = false ∧
      worker.isPending.toNat + worker.isCounted.toNat = 1 := by
  cases worker with
  | spawned =>
    cases act with
    | increment =>
      cases h
      exact ⟨rfl, Nat.le_refl _, rfl, rfl⟩
    | _ => cases h
  | counted =>
    cases act with
    | socket succeeds =>
      cases h
      cases succeeds <;> exact ⟨rfl, by decide, rfl, rfl⟩
    | _ => cases h
  | socketOpened =>
    cases act with
    | bind succeeds =>
      cases h
      cases succeeds <;> exact ⟨rfl, by decide, rfl, rfl⟩
    | _ => cases h
  | pumping pump =>
    cases act with
    | round event =>
      cases hrunning : pump.running <;> simp [Worker.step, hrunning] at h
      rw [← h]
      exact ⟨rfl, Nat.le_refl _, rfl, rfl⟩
    | leave =>
      obtain ⟨_, _, rfl⟩ := Worker.step_leave h
      exact ⟨rfl, Nat.zero_le _, rfl, rfl⟩
    | _ => cases h
  | closed =>
    cases act with
    | decrement =>
      cases h
      exact ⟨rfl, Nat.le_refl _, rfl, rfl⟩
    | _ => cases h
  | exited => cases act <;> cases h

/-- Counting over a list of which one entry is replaced. -/
theorem countP_set_add {α : Type} {l : List α} {i : Nat} {a : α} (h : l[i]? = some a) (b : α)
    (p : α → Bool) : (l.set i b).countP p + (p a).toNat = l.countP p + (p b).toNat := by
  induction l generalizing i with
  | nil => simp at h
  | cons x l ih =>
    cases i with
    | zero =>
      obtain rfl : x = a := by simpa using h
      cases hx : p x <;> cases hb : p b <;> simp [hx, hb]
    | succ i =>
      have hrest := ih (by simpa using h)
      simp only [List.set_cons_succ, List.countP_cons]
      omega

theorem countP_open_add_closing (workers : List Worker) :
    workers.countP Worker.isOpen + workers.countP Worker.isClosing =
      workers.countP Worker.isPending + workers.countP Worker.isCounted := by
  induction workers with
  | nil => rfl
  | cons worker workers ih =>
    have hworker := worker.open_add_closing
    have hbit : ∀ b : Bool, b.toNat = if b = true then 1 else 0 := by decide
    simp only [hbit] at hworker
    simp only [List.countP_cons]
    omega

namespace TunnelServer

variable {server server' : TunnelServer} {act : TunnelAct}

theorem step_accept (h : server.step .accept = .ok server') :
    server' = { server with acceptor := .accepted } := by
  simp only [step] at h
  split at h
  · exact (Except.ok.inj h).symm
  · cases h

/-- The test lets a connection through, or sends it away. -/
theorem step_test (h : server.step .test = .ok server') :
    server' = { server with acceptor := .polling } ∨
      server.active < server.maxConnections ∧
        server' = { server with acceptor := .admitted } := by
  simp only [step] at h
  split at h
  · split at h
    · exact .inl (Except.ok.inj h).symm
    · rename_i hroom
      exact .inr ⟨Int.not_le.1 hroom, (Except.ok.inj h).symm⟩
  · cases h

theorem step_spawn (h : server.step .spawn = .ok server') :
    server.acceptor = .admitted ∧
      server' = { server with acceptor := .polling, workers := server.workers ++ [.spawned] } := by
  simp only [step] at h
  split at h
  · rename_i hadmitted
    exact ⟨hadmitted, (Except.ok.inj h).symm⟩
  · cases h

theorem step_worker {index : Nat} {workerAct : WorkerAct}
    (h : server.step (.worker index workerAct) = .ok server') :
    ∃ worker next, server.workers[index]? = some worker ∧ worker.step workerAct = some next ∧
      server' = { server with
        active := server.active + next.2, workers := server.workers.set index next.1 } := by
  simp only [step] at h
  cases hworker : server.workers[index]? with
  | none => simp [hworker] at h
  | some worker =>
    simp only [hworker] at h
    cases hnext : worker.step workerAct with
    | none => simp [hnext] at h
    | some next =>
      simp only [hnext] at h
      exact ⟨worker, next, rfl, hnext, (Except.ok.inj h).symm⟩

/-! ## The counter -/

/-- `active_` is the number of counted workers. -/
def Counts (server : TunnelServer) : Prop :=
  server.active = server.workers.countP Worker.isCounted

theorem counts_step (act : TunnelAct) (h : server.Counts) (hstep : server.step act = .ok server') :
    server'.Counts := by
  cases act with
  | accept =>
    rw [step_accept hstep]
    exact h
  | test =>
    rcases step_test hstep with rfl | ⟨_, rfl⟩
    · exact h
    · exact h
  | spawn =>
    rw [(step_spawn hstep).2, Counts]
    simp only [List.countP_append, List.countP_singleton, Worker.isCounted]
    simpa [Counts] using h
  | worker index workerAct =>
    rcases step_worker hstep with ⟨worker, next, hworker, hnext, rfl⟩
    have hcount := countP_set_add hworker next.1 Worker.isCounted
    have hchange := (Worker.step_spec hnext).1
    simp only [Counts] at h ⊢
    omega

theorem counts_start (maxConnections : Int) : (start maxConnections).Counts :=
  rfl

/-- All along every interleaving `active_` counts the workers between their two ends. -/
theorem active_run {maxConnections : Int} {acts : List TunnelAct}
    (hrun : Fallible.run step (start maxConnections) acts = .ok server) : server.Counts :=
  Fallible.run_invariant (counts_start maxConnections)
    (fun _ act _ h hstep => counts_step act h hstep) hrun

theorem drained_of_counts (h : server.Counts) : server.Drained := by
  intro hexited
  rw [h, Int.natCast_eq_zero, List.countP_eq_zero]
  intro worker hworker
  rw [hexited worker hworker]
  simp [Worker.isCounted]

/-- What is open is what `active_` shows, with the workers it does not show yet and without those
it still shows. -/
theorem openConnections_eq (h : server.Counts) :
    (server.openConnections : Int) = server.active + server.pending - server.closing := by
  have hsum := countP_open_add_closing server.workers
  simp only [openConnections, pending, closing, Counts] at h ⊢
  omega

/-! ## The bound -/

theorem openConnections_spawn (server : TunnelServer) :
    openConnections
        { server with acceptor := .polling, workers := server.workers ++ [.spawned] } =
      server.openConnections + 1 := by
  simp [openConnections, Worker.isOpen]

theorem within_step (hcounts : server.Counts) (h : server.Within) (hroomy : server.Roomy act)
    (hstep : server.step act = .ok server') : server'.Within := by
  cases act with
  | accept =>
    rw [step_accept hstep]
    exact h
  | test =>
    rcases step_test hstep with rfl | ⟨_, rfl⟩
    · exact h
    · exact h
  | spawn =>
    rcases step_spawn hstep with ⟨hadmitted, rfl⟩
    have hroom := hroomy hadmitted
    have hopen := openConnections_eq hcounts
    rw [Within, openConnections_spawn]
    simp only
    omega
  | worker index workerAct =>
    rcases step_worker hstep with ⟨worker, next, hworker, hnext, rfl⟩
    have hcount := countP_set_add hworker next.1 Worker.isOpen
    have hopen := (Worker.step_spec hnext).2.1
    simp only [Within, openConnections] at h ⊢
    omega

theorem not_within_of_not_roomy (hcounts : server.Counts) (hnot : ¬ server.Roomy act) :
    ∃ server', server.step act = .ok server' ∧ ¬ server'.Within := by
  cases act with
  | spawn =>
    simp only [Roomy, Classical.not_imp] at hnot
    rcases hnot with ⟨hadmitted, hfull⟩
    refine ⟨_, by rw [step, if_pos hadmitted], ?_⟩
    have hopen := openConnections_eq hcounts
    rw [Within, openConnections_spawn]
    simp only
    omega
  | _ => exact absurd trivial hnot

/-! ## Tests that are up to date -/

/-- No worker is still to be counted when a test lets a connection through. -/
def CaughtUp (server : TunnelServer) : TunnelAct → Prop
  | .test => server.acceptor = .accepted → server.active < server.maxConnections →
      server.pending = 0
  | _ => True

/-- What a test has found still holds when its connection is handed over. -/
structure Reserved (server : TunnelServer) : Prop where
  counts : server.Counts
  within : server.Within
  room : server.acceptor = .admitted →
    server.pending = 0 ∧ server.active < server.maxConnections

theorem pending_worker {index : Nat} {worker : Worker}
    (hworker : server.workers[index]? = some worker) (hpending : server.pending = 0) :
    worker.isPending = false := by
  have hmem := List.mem_of_getElem? hworker
  simpa using List.countP_eq_zero.1 hpending worker hmem

theorem reserved_step (h : server.Reserved) (hcaught : server.CaughtUp act)
    (hstep : server.step act = .ok server') : server'.Reserved := by
  have hcounts := counts_step act h.counts hstep
  cases act with
  | accept =>
    rw [step_accept hstep] at hcounts ⊢
    exact { counts := hcounts, within := h.within, room := fun hacceptor => by cases hacceptor }
  | test =>
    have haccepted : server.acceptor = .accepted := by
      by_contra hnot
      simp [step, hnot] at hstep
    rcases step_test hstep with rfl | ⟨hroom, rfl⟩
    · exact { counts := hcounts, within := h.within, room := fun hacceptor => by cases hacceptor }
    · exact
        { counts := hcounts
          within := h.within
          room := fun _ => ⟨hcaught haccepted hroom, hroom⟩ }
  | spawn =>
    rcases step_spawn hstep with ⟨hadmitted, rfl⟩
    rcases h.room hadmitted with ⟨hpending, hroom⟩
    have hopen := openConnections_eq h.counts
    refine { counts := hcounts, within := ?_, room := fun hacceptor => by cases hacceptor }
    rw [Within, openConnections_spawn]
    simp only
    omega
  | worker index workerAct =>
    have hroomy : server.Roomy (.worker index workerAct) := trivial
    have hwithin := within_step h.counts h.within hroomy hstep
    rcases step_worker hstep with ⟨worker, next, hworker, hnext, rfl⟩
    rcases Worker.step_spec hnext with ⟨hchange, _, hnotPending, hone⟩
    refine { counts := hcounts, within := hwithin, room := ?_ }
    intro hadmitted
    rcases h.room hadmitted with ⟨hpending, hroom⟩
    -- Who is not pending is counted already, so the step adds nothing to `active_`.
    have hworkerPending := pending_worker hworker hpending
    have hcount := countP_set_add hworker next.1 Worker.isPending
    have hle := Bool.toNat_le next.1.isCounted
    rw [hworkerPending] at hone hcount
    rw [hnotPending] at hcount
    simp only [pending, Bool.toNat_false] at hpending hcount hone ⊢
    constructor
    · omega
    · omega

/-- So the bound needs nothing but tests that are up to date. -/
theorem within_of_caughtUp {maxConnections : Int} {acts : List TunnelAct}
    (hmax : 0 ≤ maxConnections)
    (hcaught : Fallible.StepsSatisfy step CaughtUp (start maxConnections) acts)
    (hrun : Fallible.run step (start maxConnections) acts = .ok server) : server.Within := by
  have hstart : (start maxConnections).Reserved :=
    { counts := rfl, within := hmax, room := fun hacceptor => by cases hacceptor }
  exact (Fallible.run_invariant_of hstart
    (fun _ _ _ h hC hstep => reserved_step h hC hstep) acts server hcaught hrun).within

end TunnelServer

/-- The tunnel's capacity, over all interleavings.  `active_` always comes back to 0; the bound on
the open connections holds exactly when every spawn is a roomy one. -/
theorem capacity_iff (maxConnections : Int) (acts : List TunnelAct) :
    HoldsCapacity maxConnections acts ↔
      0 ≤ maxConnections ∧
        Fallible.StepsSatisfy TunnelServer.step TunnelServer.Roomy
          (TunnelServer.start maxConnections) acts := by
  have hdrained : Fallible.StatesSatisfy TunnelServer.step TunnelServer.Drained
      (TunnelServer.start maxConnections) acts :=
    fun _ _ _ _ hrun => TunnelServer.drained_of_counts (TunnelServer.active_run hrun)
  have hwithin : 0 ≤ maxConnections →
      (Fallible.StatesSatisfy TunnelServer.step TunnelServer.Within
        (TunnelServer.start maxConnections) acts ↔
        Fallible.StepsSatisfy TunnelServer.step TunnelServer.Roomy
          (TunnelServer.start maxConnections) acts) := by
    intro hmax
    exact Fallible.statesSatisfy_iff hmax (TunnelServer.counts_start maxConnections)
      (fun _ act _ h hstep => TunnelServer.counts_step act h hstep)
      (fun _ _ _ hcounts h hroomy hstep => TunnelServer.within_step hcounts h hroomy hstep)
      (fun _ _ hcounts _ hnot => TunnelServer.not_within_of_not_roomy hcounts hnot)
  constructor
  · intro h
    have hmax : 0 ≤ maxConnections := h.within [] acts rfl _ rfl
    exact ⟨hmax, (hwithin hmax).1 h.within⟩
  · rintro ⟨hmax, hroomy⟩
    exact { within := (hwithin hmax).2 hroomy, drained := hdrained }

/-- Two connections are tested before the worker of the first one counts itself. -/
theorem two_connections_for_one_place :
    ¬ HoldsCapacity 1 [.accept, .test, .spawn, .accept, .test, .spawn] := by
  intro h
  have htwo : (2 : Int) ≤ 1 := h.within _ [] (List.append_nil _).symm _ rfl
  exact absurd htwo (by decide)

end Tunnel
end Crossover
