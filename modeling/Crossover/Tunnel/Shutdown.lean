import Crossover.Tunnel.Capacity

/-!
# Shutdown — `Stop` and the threads of the tunnel

`Threads` is the tunnel with what `Stop` has to do with: the flag `running_`, the listening socket,
the accept loop point by point, and the descriptors that each thread opens and closes.  An act is an
atomic step of one thread, an act whose thread cannot take it ends the run; what the threads do
besides is `TunnelServer`'s (`step_server`).

Once `Stop` has cleared the flag no thread goes on for long: `cost` bounds the steps that are left,
whatever their order.  When nobody can take a step any more, `Stop` has returned; and nothing is
left open if every call of `send` has returned, which nothing in the source sees to.
-/

namespace Crossover
namespace Tunnel

inductive Descriptor
  | listener
  | connection (number : Nat)
  /-- A worker's socket towards the relay. -/
  | udp (worker : Nat)
  deriving DecidableEq, Repr

inductive DescriptorCall
  | opens (descriptor : Descriptor)
  | closes (descriptor : Descriptor)
  deriving DecidableEq, Repr

/-- Where `AcceptLoop` is, with the connection that it has in its hands. -/
inductive LoopPoint
  /-- In front of `while (running_)`. -/
  | head
  /-- In front of `poll`. -/
  | polling
  /-- In front of `if (!running_) break`. -/
  | polled
  /-- In front of `accept`. -/
  | accepting
  | accepted (number : Nat)
  | admitted (number : Nat)
  | ended
  deriving DecidableEq, Repr

/-- Where `Stop` is. -/
inductive StopPoint
  | uncalled
  /-- `running_` has been exchanged. -/
  | flagged
  /-- The listening socket is closed; in front of `join`. -/
  | closed
  /-- In the waiting loop, after so many rounds. -/
  | draining (rounds : Nat)
  | drained
  /-- What `active_` was when the warning was decided on. -/
  | returned (left : Int)
  deriving DecidableEq, Repr

structure Threads where
  maxConnections : Int
  running : Bool := true
  active : Int := 0
  loop : LoopPoint := .head
  /-- Each worker with the number of its connection. -/
  workers : List (Nat × Worker) := []
  /-- How many connections have been accepted. -/
  accepted : Nat := 0
  stop : StopPoint := .uncalled
  log : List DescriptorCall := [.opens .listener]

inductive ThreadAct
  /-- `succeeds` is what `poll` or `accept` comes to, where the loop is in front of one. -/
  | loop (succeeds : Bool)
  | worker (index : Nat) (act : WorkerAct)
  | stop

/-- A round of a worker begins with a look at `running_`. -/
def WorkerAct.sees (running : Bool) : WorkerAct → Bool
  | .round .stopped => !running
  | .round _ => running
  | _ => true

/-- The descriptors that a worker opens and closes in a step. -/
def Worker.calls (index number : Nat) : Worker → WorkerAct → List DescriptorCall
  | .counted, .socket true => [.opens (.udp index)]
  | .counted, .socket false => [.closes (.connection number)]
  | .socketOpened, .bind false => [.closes (.udp index), .closes (.connection number)]
  | .pumping _, .leave => [.closes (.udp index), .closes (.connection number)]
  | _, _ => []

namespace Threads

def stepLoop (t : Threads) (succeeds : Bool) : Except Unit Threads :=
  match t.loop with
  | .head => .ok { t with loop := if t.running then .polling else .ended }
  | .polling => .ok { t with loop := if succeeds then .polled else .head }
  | .polled => .ok { t with loop := if t.running then .accepting else .ended }
  | .accepting =>
      -- There is nothing to accept from a socket that `Stop` has closed.
      if succeeds && (t.stop == .uncalled || t.stop == .flagged) then
        .ok { t with
          loop := .accepted t.accepted
          accepted := t.accepted + 1
          log := t.log ++ [.opens (.connection t.accepted)] }
      else .ok { t with loop := .head }
  | .accepted number =>
      if t.active ≥ t.maxConnections then
        .ok { t with loop := .head, log := t.log ++ [.closes (.connection number)] }
      else .ok { t with loop := .admitted number }
  | .admitted number => .ok { t with loop := .head, workers := t.workers ++ [(number, .spawned)] }
  | .ended => .error ()

def stepStop (t : Threads) : Except Unit Threads :=
  match t.stop with
  | .uncalled => .ok { t with running := false, stop := .flagged }
  | .flagged => .ok { t with stop := .closed, log := t.log ++ [.closes .listener] }
  | .closed => if t.loop = .ended then .ok { t with stop := .draining 0 } else .error ()
  | .draining rounds =>
      if rounds < 40 ∧ t.active > 0 then .ok { t with stop := .draining (rounds + 1) }
      else .ok { t with stop := .drained }
  | .drained => .ok { t with stop := .returned t.active }
  | .returned _ => .error ()

def stepWorker (t : Threads) (index : Nat) (act : WorkerAct) : Except Unit Threads :=
  match t.workers[index]? with
  | none => .error ()
  | some (number, worker) =>
      if !act.sees t.running then .error ()
      else
        match worker.step act with
        | none => .error ()
        | some next =>
            .ok { t with
              active := t.active + next.2
              workers := t.workers.set index (number, next.1)
              log := t.log ++ worker.calls index number act }

def step (t : Threads) : ThreadAct → Except Unit Threads
  | .loop succeeds => t.stepLoop succeeds
  | .worker index act => t.stepWorker index act
  | .stop => t.stepStop

/-- The threads behind `Start`. -/
def start (maxConnections : Int) : Threads where
  maxConnections := maxConnections

end Threads

/-! ## The same tunnel -/

def LoopPoint.acceptor : LoopPoint → Acceptor
  | .accepted _ => .accepted
  | .admitted _ => .admitted
  | _ => .polling

namespace Threads

variable {t t' : Threads}

/-- The tunnel without its descriptors and without `Stop`. -/
def server (t : Threads) : TunnelServer where
  maxConnections := t.maxConnections
  active := t.active
  acceptor := t.loop.acceptor
  workers := t.workers.map Prod.snd

/-- What a step of the accept loop comes to. -/
inductive LoopStep (t : Threads) (succeeds : Bool) : Threads → Prop
  | head : t.loop = .head →
      LoopStep t succeeds { t with loop := if t.running then .polling else .ended }
  | polling : t.loop = .polling →
      LoopStep t succeeds { t with loop := if succeeds then .polled else .head }
  | polled : t.loop = .polled →
      LoopStep t succeeds { t with loop := if t.running then .accepting else .ended }
  | accept : t.loop = .accepting →
      (succeeds && (t.stop == .uncalled || t.stop == .flagged)) = true →
      LoopStep t succeeds
        { t with
          loop := .accepted t.accepted
          accepted := t.accepted + 1
          log := t.log ++ [.opens (.connection t.accepted)] }
  | miss : t.loop = .accepting →
      ¬ (succeeds && (t.stop == .uncalled || t.stop == .flagged)) = true →
      LoopStep t succeeds { t with loop := .head }
  | refuse {number : Nat} : t.loop = .accepted number → t.active ≥ t.maxConnections →
      LoopStep t succeeds { t with loop := .head, log := t.log ++ [.closes (.connection number)] }
  | pass {number : Nat} : t.loop = .accepted number → ¬ t.active ≥ t.maxConnections →
      LoopStep t succeeds { t with loop := .admitted number }
  | spawn {number : Nat} : t.loop = .admitted number →
      LoopStep t succeeds { t with loop := .head, workers := t.workers ++ [(number, .spawned)] }

theorem stepLoop_ok {succeeds : Bool} (h : t.stepLoop succeeds = .ok t') :
    LoopStep t succeeds t' := by
  rw [stepLoop] at h
  cases hloop : t.loop with
  | head =>
    simp only [hloop] at h
    exact Except.ok.inj h ▸ .head hloop
  | polling =>
    simp only [hloop] at h
    exact Except.ok.inj h ▸ .polling hloop
  | polled =>
    simp only [hloop] at h
    exact Except.ok.inj h ▸ .polled hloop
  | accepting =>
    simp only [hloop] at h
    split at h
    · rename_i haccepts
      exact Except.ok.inj h ▸ .accept hloop haccepts
    · rename_i hmisses
      exact Except.ok.inj h ▸ .miss hloop hmisses
  | accepted number =>
    simp only [hloop] at h
    split at h
    · rename_i hfull
      exact Except.ok.inj h ▸ .refuse hloop hfull
    · rename_i hroom
      exact Except.ok.inj h ▸ .pass hloop hroom
  | admitted number =>
    simp only [hloop] at h
    exact Except.ok.inj h ▸ .spawn hloop
  | ended => simp [hloop] at h

/-- What a step of `Stop` comes to. -/
inductive StopStep (t : Threads) : Threads → Prop
  | flag : t.stop = .uncalled → StopStep t { t with running := false, stop := .flagged }
  | close : t.stop = .flagged →
      StopStep t { t with stop := .closed, log := t.log ++ [.closes .listener] }
  | join : t.stop = .closed → t.loop = .ended → StopStep t { t with stop := .draining 0 }
  | wait {rounds : Nat} : t.stop = .draining rounds → rounds < 40 ∧ t.active > 0 →
      StopStep t { t with stop := .draining (rounds + 1) }
  | drain {rounds : Nat} : t.stop = .draining rounds → ¬ (rounds < 40 ∧ t.active > 0) →
      StopStep t { t with stop := .drained }
  | leave : t.stop = .drained → StopStep t { t with stop := .returned t.active }

theorem stepStop_ok (h : t.stepStop = .ok t') : StopStep t t' := by
  rw [stepStop] at h
  cases hstop : t.stop with
  | uncalled =>
    simp only [hstop] at h
    exact Except.ok.inj h ▸ .flag hstop
  | flagged =>
    simp only [hstop] at h
    exact Except.ok.inj h ▸ .close hstop
  | closed =>
    simp only [hstop] at h
    split at h
    · rename_i hended
      exact Except.ok.inj h ▸ .join hstop hended
    · cases h
  | draining rounds =>
    simp only [hstop] at h
    split at h
    · rename_i hmore
      exact Except.ok.inj h ▸ .wait hstop hmore
    · rename_i hdone
      exact Except.ok.inj h ▸ .drain hstop hdone
  | drained =>
    simp only [hstop] at h
    exact Except.ok.inj h ▸ .leave hstop
  | returned left => simp [hstop] at h

theorem stepWorker_ok {index : Nat} {act : WorkerAct} (h : t.stepWorker index act = .ok t') :
    ∃ number worker next, t.workers[index]? = some (number, worker) ∧
      act.sees t.running = true ∧ worker.step act = some next ∧
      t' = { t with
        active := t.active + next.2
        workers := t.workers.set index (number, next.1)
        log := t.log ++ worker.calls index number act } := by
  rw [stepWorker] at h
  cases hworker : t.workers[index]? with
  | none => simp [hworker] at h
  | some entry =>
    rcases entry with ⟨number, worker⟩
    simp only [hworker] at h
    cases hsees : act.sees t.running with
    | false => simp [hsees] at h
    | true =>
      cases hnext : worker.step act with
      | none => simp [hsees, hnext] at h
      | some next =>
        simp only [hsees, hnext] at h
        exact ⟨number, worker, next, rfl, rfl, hnext, (Except.ok.inj h).symm⟩

/-- Every step is one of the tunnel's, or none of its business. -/
theorem step_server {act : ThreadAct} (h : t.step act = .ok t') :
    t'.server = t.server ∨ ∃ tunnelAct, t.server.step tunnelAct = .ok t'.server := by
  cases act with
  | loop succeeds =>
    cases stepLoop_ok h with
    | head hloop | polled hloop =>
      refine Or.inl ?_
      cases t.running <;> simp [server, hloop, LoopPoint.acceptor]
    | polling hloop =>
      refine Or.inl ?_
      cases succeeds <;> simp [server, hloop, LoopPoint.acceptor]
    | accept hloop =>
      refine Or.inr ⟨.accept, ?_⟩
      simp [server, hloop, LoopPoint.acceptor, TunnelServer.step]
    | miss hloop =>
      refine Or.inl ?_
      simp [server, hloop, LoopPoint.acceptor]
    | refuse hloop hfull =>
      refine Or.inr ⟨.test, ?_⟩
      simp [server, hloop, LoopPoint.acceptor, TunnelServer.step, hfull]
    | pass hloop hroom =>
      refine Or.inr ⟨.test, ?_⟩
      simp [server, hloop, LoopPoint.acceptor, TunnelServer.step, hroom]
    | spawn hloop =>
      refine Or.inr ⟨.spawn, ?_⟩
      simp [server, hloop, LoopPoint.acceptor, TunnelServer.step]
  | worker index act =>
    rcases stepWorker_ok h with ⟨number, worker, next, hworker, _, hnext, rfl⟩
    refine Or.inr ⟨.worker index act, ?_⟩
    simp [server, TunnelServer.step, hworker, hnext, List.map_set]
  | stop =>
    -- `Stop` is no part of that tunnel.
    refine Or.inl ?_
    cases stepStop_ok h <;> rfl

/-- The threads do what the tunnel can do. -/
theorem run_server {maxConnections : Int} {acts : List ThreadAct}
    (h : Fallible.run step (start maxConnections) acts = .ok t) :
    ∃ tunnelActs, Fallible.run TunnelServer.step (TunnelServer.start maxConnections) tunnelActs =
      .ok t.server := by
  refine Fallible.run_invariant (I := fun t => ∃ tunnelActs, Fallible.run TunnelServer.step
    (TunnelServer.start maxConnections) tunnelActs = .ok t.server) ⟨[], rfl⟩ ?_ h
  rintro s act s' ⟨tunnelActs, hrun⟩ hstep
  rcases step_server hstep with hsame | ⟨tunnelAct, hserver⟩
  · exact ⟨tunnelActs, by rw [hsame, hrun]⟩
  · exact ⟨tunnelActs ++ [tunnelAct], Fallible.run_snoc_ok.2 ⟨s.server, hrun, hserver⟩⟩

end Threads

/-! ## Who holds what -/

/-- It has its socket towards the relay. -/
def Worker.hasSocket : Worker → Bool
  | .socketOpened => true
  | .pumping _ => true
  | _ => false

/-- It has not asked for it yet. -/
def Worker.isFresh : Worker → Bool
  | .spawned => true
  | .counted => true
  | _ => false

def LoopPoint.holds (number : Nat) : LoopPoint → Bool
  | .accepted n => n == number
  | .admitted n => n == number
  | _ => false

def StopPoint.listens : StopPoint → Bool
  | .uncalled => true
  | .flagged => true
  | _ => false

/-- How often a worker holds a descriptor. -/
def Worker.held (index number : Nat) (worker : Worker) : Descriptor → Nat
  | .listener => 0
  | .connection n => if n = number then worker.isOpen.toNat else 0
  | .udp i => if i = index then worker.hasSocket.toNat else 0

/-- Closing what a worker has, and no more. -/
theorem Worker.release_spec {worker : Worker} (hopen : worker.isOpen = true) (index number : Nat)
    (d : Descriptor) :
    worker.held index number d =
      ((if worker.hasSocket then [DescriptorCall.closes (.udp index)] else []) ++
        [DescriptorCall.closes (.connection number)]).count (DescriptorCall.closes d) +
          Worker.closed.held index number d := by
  have hclosed : Worker.closed.isOpen = false ∧ Worker.closed.hasSocket = false := ⟨rfl, rfl⟩
  cases d with
  | listener => cases hsocket : worker.hasSocket <;> simp [Worker.held]
  | connection n =>
    by_cases hn : n = number
    · cases hsocket : worker.hasSocket <;> simp [Worker.held, hn, hopen, hclosed]
    · cases hsocket : worker.hasSocket <;> simp [Worker.held, hn, Ne.symm hn]
  | udp i =>
    by_cases hi : i = index
    · cases hsocket : worker.hasSocket <;> simp [Worker.held, hi, hsocket, hclosed]
    · cases hsocket : worker.hasSocket <;> simp [Worker.held, hi, Ne.symm hi]

/-- A worker opens and closes what it gains and loses, its socket when it has had none. -/
theorem Worker.calls_spec {worker : Worker} {act : WorkerAct} {next : Worker × Int}
    (h : worker.step act = some next) (index number : Nat) (d : Descriptor) :
    (worker.calls index number act).count (.opens d) + worker.held index number d =
        (worker.calls index number act).count (.closes d) + next.1.held index number d ∧
      ((worker.calls index number act).count (.opens d) = 0 ∨
        d = .udp index ∧ (worker.calls index number act).count (.opens d) = 1 ∧
          worker.isFresh = true ∧ next.1.isFresh = false) ∧
      (next.1.isFresh = true → worker.isFresh = true) := by
  -- A step without calls between two points that hold the same.
  have hquiet : ∀ w w' : Worker, w'.isOpen = w.isOpen → w'.hasSocket = w.hasSocket →
      w.held index number d = w'.held index number d := by
    intro w w' hopen hsocket
    cases d <;> simp [Worker.held, hopen, hsocket]
  cases worker with
  | spawned =>
    cases act with
    | increment =>
      cases h
      exact ⟨by simpa [Worker.calls] using hquiet .spawned .counted rfl rfl,
        Or.inl (by simp [Worker.calls]), fun _ => rfl⟩
    | _ => cases h
  | counted =>
    cases act with
    | socket succeeds =>
      cases h
      cases succeeds with
      | true =>
        by_cases hd : d = .udp index
        · subst hd
          exact ⟨by simp [Worker.calls, Worker.held, Worker.hasSocket],
            Or.inr ⟨rfl, by simp [Worker.calls], rfl, rfl⟩, fun _ => rfl⟩
        · refine ⟨?_, Or.inl (by simp [Worker.calls, Ne.symm hd]), fun _ => rfl⟩
          have hsame : Worker.counted.held index number d =
              Worker.socketOpened.held index number d := by
            cases d with
            | udp i =>
              have hi : i ≠ index := fun heq => hd (by rw [heq])
              simp [Worker.held, hi]
            | _ => rfl
          simpa [Worker.calls, Ne.symm hd] using hsame
      | false =>
        exact ⟨by simpa [Worker.calls, Worker.hasSocket] using
          @Worker.release_spec .counted rfl index number d,
          Or.inl (by simp [Worker.calls]), fun _ => rfl⟩
    | _ => cases h
  | socketOpened =>
    cases act with
    | bind succeeds =>
      cases h
      cases succeeds with
      | true =>
        exact ⟨by simpa [Worker.calls] using hquiet .socketOpened (.pumping {}) rfl rfl,
          Or.inl (by simp [Worker.calls]), fun hfresh => hfresh⟩
      | false =>
        exact ⟨by simpa [Worker.calls, Worker.hasSocket] using
          @Worker.release_spec .socketOpened rfl index number d,
          Or.inl (by simp [Worker.calls]), fun hfresh => hfresh⟩
    | _ => cases h
  | pumping pump =>
    cases act with
    | round event =>
      cases hrunning : pump.running <;> simp [Worker.step, hrunning] at h
      rw [← h]
      have hsame := hquiet (.pumping pump) (.pumping (pump.step event).1) rfl rfl
      exact ⟨by simpa [Worker.calls] using hsame, Or.inl (by simp [Worker.calls]),
        fun hfresh => hfresh⟩
    | leave =>
      obtain ⟨_, _, rfl⟩ := Worker.step_leave h
      exact ⟨by simpa [Worker.calls, Worker.hasSocket] using
        @Worker.release_spec (.pumping pump) rfl index number d,
        Or.inl (by simp [Worker.calls]), fun hfresh => hfresh⟩
    | _ => cases h
  | closed =>
    cases act with
    | decrement =>
      cases h
      exact ⟨by simpa [Worker.calls] using hquiet .closed .exited rfl rfl,
        Or.inl (by simp [Worker.calls]), fun hfresh => hfresh⟩
    | _ => cases h
  | exited => cases act <;> cases h

namespace Threads

variable {t t' : Threads}

/-- How often the threads hold a descriptor. -/
def held (t : Threads) : Descriptor → Nat
  | .listener => t.stop.listens.toNat
  | .connection n =>
      (t.loop.holds n).toNat + t.workers.countP fun entry => entry.1 == n && entry.2.isOpen
  | .udp i =>
      match t.workers[i]? with
      | none => 0
      | some entry => entry.2.hasSocket.toNat

/-- Every descriptor is opened at most once, and closed by now or held once. -/
structure Accounted (t : Threads) : Prop where
  balance : ∀ d, t.log.count (.opens d) = t.log.count (.closes d) + t.held d
  once : ∀ d, t.log.count (.opens d) ≤ 1
  connections : ∀ n, t.accepted ≤ n → t.log.count (.opens (.connection n)) = 0
  sockets : ∀ i, (∀ entry, t.workers[i]? = some entry → entry.2.isFresh = true) →
    t.log.count (.opens (.udp i)) = 0

theorem held_set {index number : Nat} {worker next : Worker}
    (hworker : t.workers[index]? = some (number, worker)) (d : Descriptor) :
    ({ t with workers := t.workers.set index (number, next) } : Threads).held d +
        worker.held index number d = t.held d + next.held index number d := by
  cases d with
  | listener => rfl
  | connection n =>
    have hcount := countP_set_add hworker (number, next)
      fun entry : Nat × Worker => entry.1 == n && entry.2.isOpen
    by_cases hn : n = number
    · subst hn
      simp only [beq_self_eq_true, Bool.true_and] at hcount
      simp only [held, Worker.held, if_true]
      omega
    · have hne : (number == n) = false := by simpa using Ne.symm hn
      simp only [hne, Bool.false_and, Bool.toNat_false] at hcount
      simp only [held, Worker.held, if_neg hn]
      omega
  | udp i =>
    by_cases hi : i = index
    · subst hi
      have hlt : i < t.workers.length := (List.getElem?_eq_some_iff.1 hworker).1
      simp only [held, Worker.held, hworker, List.getElem?_set_self hlt, if_true]
      exact Nat.add_comm _ _
    · simp [held, Worker.held, hi, Ne.symm hi]

theorem accounted_start (maxConnections : Int) : (start maxConnections).Accounted := by
  refine ⟨?_, ?_, ?_, ?_⟩
  · intro d
    cases d <;> simp [start, held, LoopPoint.holds, StopPoint.listens]
  · intro d
    exact (List.count_le_length ..).trans (by simp [start])
  · intro n _
    simp [start]
  · intro i _
    simp [start]

/-- A step that opens and closes nothing and leaves the holders as they are. -/
theorem Accounted.quiet (h : t.Accounted) (hlog : t'.log = t.log)
    (hstop : t'.stop.listens = t.stop.listens) (hloop : ∀ n, t'.loop.holds n = t.loop.holds n)
    (haccepted : t'.accepted = t.accepted) (hworkers : t'.workers = t.workers) :
    t'.Accounted := by
  have hheld : t'.held = t.held := by
    funext d
    cases d <;> simp [held, hstop, hloop, hworkers]
  refine ⟨?_, ?_, ?_, ?_⟩
  · rw [hlog, hheld]
    exact h.balance
  · rw [hlog]
    exact h.once
  · rw [hlog, haccepted]
    exact h.connections
  · rw [hlog, hworkers]
    exact h.sockets

/-- A step that closes what has been held so far. -/
theorem Accounted.closes (h : t.Accounted) {e : Descriptor} (hlog : t'.log = t.log ++ [.closes e])
    (hheld : ∀ d, t.held d = t'.held d + if d = e then 1 else 0)
    (haccepted : t'.accepted = t.accepted) (hworkers : t'.workers = t.workers) :
    t'.Accounted := by
  have hopens : ∀ d, t'.log.count (.opens d) = t.log.count (.opens d) := by
    intro d
    simp [hlog]
  have hcloses : ∀ d, t'.log.count (.closes d) =
      t.log.count (.closes d) + if d = e then 1 else 0 := by
    intro d
    by_cases hd : d = e
    · simp [hlog, hd]
    · simp [hlog, hd, Ne.symm hd]
  refine ⟨?_, ?_, ?_, ?_⟩
  · intro d
    have hbalance := h.balance d
    rw [hopens, hcloses, hbalance, hheld d]
    omega
  · intro d
    rw [hopens]
    exact h.once d
  · intro n hn
    rw [hopens]
    exact h.connections n (haccepted ▸ hn)
  · intro i hi
    rw [hopens]
    exact h.sockets i (hworkers ▸ hi)

theorem Accounted.accept (h : t.Accounted) (hloop : t.loop = .accepting) :
    ({ t with
      loop := .accepted t.accepted
      accepted := t.accepted + 1
      log := t.log ++ [.opens (.connection t.accepted)] } : Threads).Accounted := by
  have hopens : ∀ d, (t.log ++ [DescriptorCall.opens (.connection t.accepted)]).count (.opens d) =
      t.log.count (.opens d) + if d = .connection t.accepted then 1 else 0 := by
    intro d
    by_cases hd : d = .connection t.accepted
    · simp [hd]
    · simp [hd, Ne.symm hd]
  have hnew := h.connections t.accepted (Nat.le_refl _)
  refine ⟨?_, ?_, ?_, ?_⟩
  · intro d
    have hbalance := h.balance d
    rw [hopens]
    simp only [List.count_append]
    cases d with
    | connection n =>
      simp only [held, hloop, LoopPoint.holds, Bool.toNat_false, Nat.zero_add] at hbalance
      by_cases hn : n = t.accepted
      · subst hn
        simp only [held, LoopPoint.holds, beq_self_eq_true, Bool.toNat_true, if_true]
        simp
        omega
      · have hne : (t.accepted == n) = false := by simpa using Ne.symm hn
        simp only [held, LoopPoint.holds, hne, Bool.toNat_false, Nat.zero_add]
        simp [hn]
        omega
    | _ => simpa [held] using hbalance
  · intro d
    rw [hopens]
    by_cases hd : d = .connection t.accepted
    · rw [if_pos hd, hd, hnew]
    · rw [if_neg hd]
      exact h.once d
  · intro n hn
    have hne : ¬ Descriptor.connection n = .connection t.accepted := by
      intro heq
      injection heq with heq
      exact absurd hn (by simp [heq])
    rw [hopens, if_neg hne]
    exact h.connections n (Nat.le_of_succ_le hn)
  · intro i hi
    rw [hopens, if_neg (by simp)]
    exact h.sockets i hi

theorem Accounted.spawn (h : t.Accounted) {number : Nat} (hloop : t.loop = .admitted number) :
    ({ t with
      loop := .head
      workers := t.workers ++ [(number, .spawned)] } : Threads).Accounted := by
  refine ⟨?_, h.once, h.connections, ?_⟩
  · intro d
    rw [h.balance d]
    cases d with
    | listener => rfl
    | connection n =>
      simp [held, hloop, LoopPoint.holds, Worker.isOpen, List.countP_cons]
      by_cases hn : number = n
      · simp [hn, Nat.add_comm]
      · simp [hn]
    | udp i =>
      simp only [held]
      by_cases hi : i < t.workers.length
      · rw [List.getElem?_append_left hi]
      · have hnone : t.workers[i]? = none := List.getElem?_eq_none (Nat.not_lt.1 hi)
        rw [hnone]
        by_cases hlast : i = t.workers.length
        · simp [hlast, Worker.hasSocket]
        · have hbeyond : (t.workers ++ [(number, Worker.spawned)])[i]? = none := by
            refine List.getElem?_eq_none ?_
            rw [List.length_append, List.length_singleton]
            omega
          rw [hbeyond]
  · intro i hi
    refine h.sockets i ?_
    intro entry hentry
    exact hi entry (by
      rw [List.getElem?_append_left (List.getElem?_eq_some_iff.1 hentry).1]
      exact hentry)

theorem Accounted.worker (h : t.Accounted) {index number : Nat} {worker : Worker}
    {act : WorkerAct} {next : Worker × Int}
    (hworker : t.workers[index]? = some (number, worker)) (hnext : worker.step act = some next) :
    ({ t with
      active := t.active + next.2
      workers := t.workers.set index (number, next.1)
      log := t.log ++ worker.calls index number act } : Threads).Accounted := by
  have hspec := Worker.calls_spec hnext index number
  have hheld := @held_set t index number worker next.1 hworker
  have hlt : index < t.workers.length := (List.getElem?_eq_some_iff.1 hworker).1
  -- A worker that opens its socket has had none.
  have hnone : worker.isFresh = true → t.log.count (.opens (.udp index)) = 0 := by
    intro hfresh
    refine h.sockets index ?_
    intro entry hentry
    rw [hworker] at hentry
    rw [← Option.some.inj hentry]
    exact hfresh
  refine ⟨?_, ?_, ?_, ?_⟩
  · intro d
    have hbalance := h.balance d
    have hcalls := (hspec d).1
    have hchange := hheld d
    simp only [List.count_append]
    simp only [held] at hchange hbalance ⊢
    omega
  · intro d
    have honce := h.once d
    simp only [List.count_append]
    rcases (hspec d).2.1 with hzero | ⟨rfl, hone, hfresh, _⟩
    · omega
    · rw [hnone hfresh, hone]
  · intro n hn
    simp only [List.count_append, h.connections n hn, Nat.zero_add]
    rcases (hspec (.connection n)).2.1 with hzero | ⟨hd, _⟩
    · exact hzero
    · cases hd
  · intro i hi
    simp only [List.count_append]
    by_cases hindex : i = index
    · subst hindex
      have hafter := hi (number, next.1) (by simp [List.getElem?_set_self hlt])
      rw [hnone ((hspec (.udp i)).2.2 hafter), Nat.zero_add]
      rcases (hspec (.udp i)).2.1 with hzero | ⟨_, _, _, hnot⟩
      · exact hzero
      · rw [hafter] at hnot
        cases hnot
    · have hbefore : t.log.count (.opens (.udp i)) = 0 := by
        refine h.sockets i ?_
        intro entry hentry
        exact hi entry (by simpa [List.getElem?_set_ne (Ne.symm hindex)] using hentry)
      rw [hbefore, Nat.zero_add]
      rcases (hspec (.udp i)).2.1 with hzero | ⟨hd, _⟩
      · exact hzero
      · cases hd
        exact absurd rfl hindex

theorem Accounted.step {act : ThreadAct} (h : t.Accounted) (hstep : t.step act = .ok t') :
    t'.Accounted := by
  cases act with
  | loop succeeds =>
    cases stepLoop_ok hstep with
    | head hloop | polled hloop =>
      refine h.quiet rfl rfl ?_ rfl rfl
      intro n
      cases t.running <;> simp [hloop, LoopPoint.holds]
    | polling hloop =>
      refine h.quiet rfl rfl ?_ rfl rfl
      intro n
      cases succeeds <;> simp [hloop, LoopPoint.holds]
    | accept hloop => exact h.accept hloop
    | miss hloop | pass hloop =>
      refine h.quiet rfl rfl ?_ rfl rfl
      intro n
      simp [hloop, LoopPoint.holds]
    | @refuse number hloop =>
      refine h.closes rfl ?_ rfl rfl
      intro d
      cases d with
      | connection n =>
        by_cases hn : n = number
        · simp [held, hloop, LoopPoint.holds, hn, Nat.add_comm]
        · simp [held, hloop, LoopPoint.holds, hn, Ne.symm hn]
      | _ => simp [held]
    | spawn hloop => exact h.spawn hloop
  | worker index act =>
    rcases stepWorker_ok hstep with ⟨number, worker, next, hworker, _, hnext, rfl⟩
    exact h.worker hworker hnext
  | stop =>
    cases stepStop_ok hstep with
    | close hstop =>
      refine h.closes rfl ?_ rfl rfl
      intro d
      cases d <;> simp [held, hstop, StopPoint.listens]
    | flag hstop | join hstop | wait hstop | drain hstop | leave hstop =>
      exact h.quiet rfl (by simp [hstop, StopPoint.listens]) (fun _ => rfl) rfl rfl

end Threads

/-! ## What is left to do -/

/-- It is in a write to its connection that has not returned. -/
def Worker.isWriting : Worker → Bool
  | .pumping pump => pump.writing
  | _ => false

/-- The steps that are left to a worker once the flag is cleared. -/
def Worker.cost : Worker → Nat
  | .spawned => 6
  | .counted => 5
  | .socketOpened => 4
  | .pumping pump => if pump.running then 3 else 2
  | .closed => 1
  | .exited => 0

/-- Those of the loop, and of the one worker that it may still be about to spawn. -/
def LoopPoint.cost : LoopPoint → Nat
  | .head => 1
  | .polling => 3
  | .polled => 2
  | .accepting => 10
  | .accepted _ => 9
  | .admitted _ => 8
  | .ended => 0

def StopPoint.cost : StopPoint → Nat
  | .uncalled => 46
  | .flagged => 45
  | .closed => 44
  | .draining rounds => 43 - rounds
  | .drained => 1
  | .returned _ => 0

/-- A step of a worker that finds the flag cleared is one of the last. -/
theorem Worker.cost_step {worker : Worker} {act : WorkerAct} {next : Worker × Int}
    (hsees : act.sees false = true) (h : worker.step act = some next) :
    next.1.cost < worker.cost := by
  cases worker with
  | spawned =>
    cases act with
    | increment =>
      cases h
      decide
    | _ => cases h
  | counted =>
    cases act with
    | socket succeeds =>
      cases h
      cases succeeds <;> decide
    | _ => cases h
  | socketOpened =>
    cases act with
    | bind succeeds =>
      cases h
      cases succeeds <;> decide
    | _ => cases h
  | pumping pump =>
    cases act with
    | round event =>
      cases hrunning : pump.running with
      | false => simp [Worker.step, hrunning] at h
      | true =>
        cases event with
        | stopped =>
          simp only [Worker.step, hrunning, if_true, Option.some.injEq] at h
          rw [← h]
          simp [Worker.cost, Pump.step, hrunning]
        | _ => cases hsees
    | leave =>
      obtain ⟨hrunning, _, rfl⟩ := Worker.step_leave h
      simp [Worker.cost, hrunning]
    | _ => cases h
  | closed =>
    cases act with
    | decrement =>
      cases h
      decide
    | _ => cases h
  | exited => cases act <;> cases h

/-- Whoever has not exited and is not held up by a write can take a step. -/
theorem Worker.exists_step {worker : Worker} (h : worker ≠ .exited)
    (hwriting : worker.isWriting = false) :
    ∃ act next, act.sees false = true ∧ worker.step act = some next := by
  cases worker with
  | spawned => exact ⟨.increment, _, rfl, rfl⟩
  | counted => exact ⟨.socket true, _, rfl, rfl⟩
  | socketOpened => exact ⟨.bind true, _, rfl, rfl⟩
  | pumping pump =>
    cases hrunning : pump.running with
    | true =>
      exact ⟨.round .stopped, (.pumping (pump.step .stopped).1, 0), rfl, by
        simp [Worker.step, hrunning]⟩
    | false =>
      have hreturned : pump.writing = false := hwriting
      exact ⟨.leave, (.closed, 0), rfl, by simp [Worker.step, hrunning, hreturned]⟩
  | closed => exact ⟨.decrement, _, rfl, rfl⟩
  | exited => exact absurd rfl h

namespace Threads

variable {t t' : Threads}

def cost (t : Threads) : Nat :=
  t.loop.cost + t.stop.cost + (t.workers.map fun entry => entry.2.cost).sum

/-- `Stop` has cleared the flag first, and waits for the workers behind `join` only. -/
structure Ordered (t : Threads) : Prop where
  flag : t.running = false ↔ t.stop ≠ .uncalled
  joined : t.loop = .ended ∨ t.stop = .uncalled ∨ t.stop = .flagged ∨ t.stop = .closed
  rounds : ∀ rounds, t.stop = .draining rounds → rounds ≤ 40

theorem ordered_start (maxConnections : Int) : (start maxConnections).Ordered :=
  ⟨by simp [start], Or.inr (Or.inl rfl), by simp [start]⟩

/-- Adding up over a list of which one entry is replaced. -/
theorem sum_set_add {α : Type} {l : List α} {i : Nat} {a : α} (h : l[i]? = some a) (b : α)
    (f : α → Nat) : ((l.set i b).map f).sum + f a = (l.map f).sum + f b := by
  induction l generalizing i with
  | nil => simp at h
  | cons x l ih =>
    cases i with
    | zero =>
      obtain rfl : x = a := by simpa using h
      simp only [List.set_cons_zero, List.map_cons, List.sum_cons]
      omega
    | succ i =>
      have hrest := ih (by simpa using h)
      simp only [List.set_cons_succ, List.map_cons, List.sum_cons]
      omega

theorem Ordered.step {act : ThreadAct} (h : t.Ordered) (hstep : t.step act = .ok t') :
    t'.Ordered ∧ (t.running = false → t'.running = false ∧ t'.cost < t.cost) := by
  cases act with
  | loop succeeds =>
    -- The loop goes on only where it has not ended, that is in front of `join`.
    have hearly : t.loop ≠ .ended →
        t.stop = .uncalled ∨ t.stop = .flagged ∨ t.stop = .closed :=
      fun hnot => h.joined.resolve_left hnot
    cases stepLoop_ok hstep with
    | spawn hloop =>
      refine ⟨⟨h.flag, Or.inr (hearly (by simp [hloop])), h.rounds⟩, fun hdown => ⟨hdown, ?_⟩⟩
      simp only [cost, hloop, LoopPoint.cost, List.map_append, List.sum_append, List.map_cons,
        List.map_nil, List.sum_singleton, Worker.cost]
      omega
    | polling hloop =>
      refine ⟨⟨h.flag, Or.inr (hearly (by simp [hloop])), h.rounds⟩, fun hdown => ⟨hdown, ?_⟩⟩
      cases succeeds <;> simp [cost, hloop, LoopPoint.cost]
    | head hloop | polled hloop | accept hloop | miss hloop | refuse hloop | pass hloop =>
      refine ⟨⟨h.flag, Or.inr (hearly (by simp [hloop])), h.rounds⟩, fun hdown => ⟨hdown, ?_⟩⟩
      simp [cost, hloop, hdown, LoopPoint.cost]
  | worker index act =>
    rcases stepWorker_ok hstep with ⟨number, worker, next, hworker, hsees, hnext, rfl⟩
    refine ⟨⟨h.flag, h.joined, h.rounds⟩, fun hdown => ⟨hdown, ?_⟩⟩
    rw [hdown] at hsees
    have hless := Worker.cost_step hsees hnext
    have hsum := sum_set_add hworker (number, next.1) fun entry => entry.2.cost
    simp only [cost] at hsum ⊢
    omega
  | stop =>
    cases stepStop_ok hstep with
    | flag hstop =>
      refine ⟨⟨by simp, Or.inr (Or.inr (Or.inl rfl)), by simp⟩, ?_⟩
      intro hdown
      exact absurd hstop (h.flag.1 hdown)
    | close hstop =>
      have hdown := h.flag.2 (by simp [hstop])
      refine ⟨⟨by simp [hdown], Or.inr (Or.inr (Or.inr rfl)), by simp⟩, fun _ => ⟨hdown, ?_⟩⟩
      simp [cost, hstop, StopPoint.cost]
    | join hstop hended =>
      have hdown := h.flag.2 (by simp [hstop])
      refine ⟨⟨by simp [hdown], Or.inl hended, by simp⟩, fun _ => ⟨hdown, ?_⟩⟩
      simp [cost, hstop, StopPoint.cost]
    | @wait rounds hstop hmore =>
      have hdown := h.flag.2 (by simp [hstop])
      have hended : t.loop = .ended := h.joined.resolve_right (by simp [hstop])
      have hrounds := h.rounds rounds hstop
      refine ⟨⟨by simp [hdown], Or.inl hended, ?_⟩, fun _ => ⟨hdown, ?_⟩⟩
      · intro later hlater
        injection hlater with hlater
        omega
      · simp only [cost, hstop, StopPoint.cost]
        omega
    | @drain rounds hstop =>
      have hdown := h.flag.2 (by simp [hstop])
      have hended : t.loop = .ended := h.joined.resolve_right (by simp [hstop])
      have hrounds := h.rounds rounds hstop
      refine ⟨⟨by simp [hdown], Or.inl hended, by simp⟩, fun _ => ⟨hdown, ?_⟩⟩
      simp only [cost, hstop, StopPoint.cost]
      omega
    | leave hstop =>
      have hdown := h.flag.2 (by simp [hstop])
      have hended : t.loop = .ended := h.joined.resolve_right (by simp [hstop])
      refine ⟨⟨by simp [hdown], Or.inl hended, by simp⟩, fun _ => ⟨hdown, ?_⟩⟩
      simp [cost, hstop, StopPoint.cost]

/-- `Stop` has returned, the loop has ended, and no worker is left but those that are held up by a
write. -/
structure Halted (t : Threads) : Prop where
  stop : ∃ left, t.stop = .returned left
  loop : t.loop = .ended
  workers : ∀ entry ∈ t.workers, entry.2 = .exited ∨ entry.2.isWriting = true

/-- Everybody is done, and nothing is left open. -/
structure Ended (t : Threads) : Prop where
  stop : ∃ left, t.stop = .returned left
  loop : t.loop = .ended
  workers : ∀ entry ∈ t.workers, entry.2 = .exited
  active : t.active = 0
  closed : ∀ d, t.log.count (.opens d) = t.log.count (.closes d)

theorem halted_of_stuck (hdown : t.running = false) (hstuck : ∀ act, t.step act = .error ()) :
    t.Halted := by
  have hloop : t.loop = .ended := by
    have hloopStuck := hstuck (.loop true)
    simp only [step, stepLoop] at hloopStuck
    cases hloop : t.loop with
    | ended => rfl
    | accepting =>
      simp only [hloop] at hloopStuck
      split at hloopStuck <;> cases hloopStuck
    | accepted number =>
      simp only [hloop] at hloopStuck
      split at hloopStuck <;> cases hloopStuck
    | _ => simp [hloop] at hloopStuck
  refine ⟨?_, hloop, ?_⟩
  · have hstopStuck := hstuck .stop
    simp only [step, stepStop] at hstopStuck
    cases hstop : t.stop with
    | returned left => exact ⟨left, rfl⟩
    | closed => simp [hstop, hloop] at hstopStuck
    | draining rounds =>
      simp only [hstop] at hstopStuck
      split at hstopStuck <;> cases hstopStuck
    | _ => simp [hstop] at hstopStuck
  · intro entry hentry
    rcases entry with ⟨number, worker⟩
    by_contra hnot
    obtain ⟨hleft, hwriting⟩ := not_or.1 hnot
    rcases List.getElem?_of_mem hentry with ⟨index, hworker⟩
    rcases Worker.exists_step hleft (Bool.eq_false_iff.2 hwriting) with ⟨act, next, hsees, hnext⟩
    have hstep := hstuck (.worker index act)
    simp [step, stepWorker, hworker, hdown, hsees, hnext] at hstep

/-- When nobody can take a step and no write is under way, everybody is done. -/
theorem Halted.ended {maxConnections : Int} {acts : List ThreadAct}
    (hrun : Fallible.run step (start maxConnections) acts = .ok t) (haccounted : t.Accounted)
    (hhalted : t.Halted) (hreturned : ∀ entry ∈ t.workers, entry.2.isWriting = false) :
    t.Ended := by
  obtain ⟨hstop, hloop, hleft⟩ := hhalted
  have hworkers : ∀ entry ∈ t.workers, entry.2 = .exited := by
    intro entry hentry
    refine (hleft entry hentry).resolve_right ?_
    simp [hreturned entry hentry]
  have hactive : t.active = 0 := by
    rcases run_server hrun with ⟨tunnelActs, hserver⟩
    have hcounts : t.server.Counts := TunnelServer.active_run hserver
    refine TunnelServer.drained_of_counts hcounts ?_
    intro worker hworker
    rcases List.mem_map.1 hworker with ⟨entry, hentry, rfl⟩
    exact hworkers entry hentry
  refine ⟨hstop, hloop, hworkers, hactive, ?_⟩
  intro d
  rw [haccounted.balance d, Nat.add_eq_left]
  rcases hstop with ⟨left, hleft⟩
  cases d with
  | listener => simp [held, hleft, StopPoint.listens]
  | connection n =>
    simp only [held, hloop, LoopPoint.holds, Bool.toNat_false, Nat.zero_add]
    rw [List.countP_eq_zero]
    intro entry hentry
    simp [hworkers entry hentry, Worker.isOpen]
  | udp i =>
    simp only [held]
    cases hentry : t.workers[i]? with
    | none => rfl
    | some entry => simp [hworkers entry (List.mem_of_getElem? hentry), Worker.hasSocket]

theorem cost_le (t : Threads) : t.cost ≤ 56 + 6 * t.workers.length := by
  have hworker : ∀ worker : Worker, worker.cost ≤ 6 := by
    intro worker
    cases worker with
    | pumping pump =>
      simp only [Worker.cost]
      split <;> decide
    | _ => decide
  have hloop : t.loop.cost ≤ 10 := by
    cases t.loop <;> simp [LoopPoint.cost]
  have hstop : t.stop.cost ≤ 46 := by
    cases t.stop with
    | draining rounds => exact (Nat.sub_le 43 rounds).trans (by decide)
    | _ => simp [StopPoint.cost]
  have hsum : (t.workers.map fun entry => entry.2.cost).sum ≤ 6 * t.workers.length := by
    generalize t.workers = workers
    induction workers with
    | nil => simp
    | cons entry workers ih =>
      have hfirst := hworker entry.2
      simp only [List.map_cons, List.sum_cons, List.length_cons]
      omega
  rw [cost]
  omega

/-- No descriptor is opened or closed twice, or closed before it is opened; and once `Stop` has
cleared the flag, the threads have so many steps left, and when they stop they have stopped short in
writes that do not return only. -/
def ShutsDown (t : Threads) : Prop :=
  (∀ d, t.log.count (.closes d) ≤ t.log.count (.opens d) ∧ t.log.count (.opens d) ≤ 1) ∧
    (t.running = false →
      (∀ more t', Fallible.run step t more = .ok t' →
        more.length ≤ 56 + 6 * t.workers.length) ∧
      ((∀ act, t.step act = .error ()) →
        t.Halted ∧ ((∀ entry ∈ t.workers, entry.2.isWriting = false) → t.Ended)))

/-- The flag and `active_` are all that `Stop` goes by.  What it has seen is the number of the
workers that are counted, so when it returns without the warning, those that are left have not
counted themselves yet. -/
def DrainsCounted (t : Threads) : Prop :=
  t.stop = .drained → ∀ t', t.step .stop = .ok t' → ∃ left, t'.stop = .returned left ∧
    left = (t'.workers.map Prod.snd).countP Worker.isCounted ∧
    (left ≤ 0 ↔ ∀ entry ∈ t'.workers, entry.2 = .spawned ∨ entry.2 = .exited) ∧
    ∀ more t'', Fallible.run step t' more = .ok t'' →
      t''.workers.length = t'.workers.length ∧ t''.accepted = t'.accepted

theorem bounded_run (hordered : t.Ordered) (hdown : t.running = false) {more : List ThreadAct}
    (hrun : Fallible.run step t more = .ok t') : more.length + t'.cost ≤ t.cost := by
  induction more generalizing t with
  | nil =>
    cases hrun
    simp
  | cons act more ih =>
    rcases Fallible.run_cons_ok.1 hrun with ⟨s, hfirst, hrest⟩
    rcases hordered.step hfirst with ⟨hordered', hnext⟩
    rcases hnext hdown with ⟨hdown', hless⟩
    have hbound := ih hordered' hdown' hrest
    rw [List.length_cons]
    omega

/-- Behind `join` nobody is accepted or spawned any more. -/
theorem settled_step {act : ThreadAct} (hloop : t.loop = .ended) (hstep : t.step act = .ok t') :
    t'.loop = .ended ∧ t'.workers.length = t.workers.length ∧ t'.accepted = t.accepted := by
  cases act with
  | loop succeeds => simp [step, stepLoop, hloop] at hstep
  | worker index act =>
    rcases stepWorker_ok hstep with ⟨number, worker, next, _, _, _, rfl⟩
    exact ⟨hloop, by simp, rfl⟩
  | stop => cases stepStop_ok hstep <;> exact ⟨hloop, rfl, rfl⟩

end Threads

/-- In every interleaving of `Stop`, the accept loop and the workers. -/
theorem shutdown_completes (maxConnections : Int) (acts : List ThreadAct) :
    Fallible.StatesSatisfy Threads.step Threads.ShutsDown (Threads.start maxConnections) acts := by
  intro before after _ t hrun
  have haccounted : t.Accounted :=
    Fallible.run_invariant (Threads.accounted_start maxConnections)
      (fun _ _ _ h hstep => h.step hstep) hrun
  have hordered : t.Ordered :=
    Fallible.run_invariant (Threads.ordered_start maxConnections)
      (fun _ _ _ h hstep => (h.step hstep).1) hrun
  refine ⟨?_, ?_⟩
  · intro d
    refine ⟨?_, haccounted.once d⟩
    rw [haccounted.balance d]
    exact Nat.le_add_right _ _
  · intro hdown
    refine ⟨?_, ?_⟩
    · intro more t' hmore
      have hbound := Threads.bounded_run hordered hdown hmore
      have hcost := t.cost_le
      omega
    · intro hstuck
      have hhalted := Threads.halted_of_stuck hdown hstuck
      exact ⟨hhalted, hhalted.ended hrun haccounted⟩

theorem drains_counted (maxConnections : Int) (acts : List ThreadAct) :
    Fallible.StatesSatisfy Threads.step Threads.DrainsCounted (Threads.start maxConnections)
      acts := by
  intro before after _ t hrun hstop t' hstep
  have hordered : t.Ordered :=
    Fallible.run_invariant (Threads.ordered_start maxConnections)
      (fun _ _ _ h hstep => (h.step hstep).1) hrun
  have hloop : t.loop = .ended := hordered.joined.resolve_right (by simp [hstop])
  have hsettled := Threads.settled_step hloop hstep
  rcases Threads.run_server hrun with ⟨tunnelActs, hserver⟩
  have hcounts : t.server.Counts := TunnelServer.active_run hserver
  have hafter : t' = { t with stop := .returned t.active } := by
    simp only [Threads.step, Threads.stepStop, hstop] at hstep
    exact (Except.ok.inj hstep).symm
  have hactive : t.active = (t.workers.map Prod.snd).countP Worker.isCounted := hcounts
  have hworkers : t'.workers = t.workers := by rw [hafter]
  refine ⟨t.active, by rw [hafter], by rw [hworkers, hactive], ?_, ?_⟩
  · have hcounted : ∀ worker : Worker,
        worker.isCounted = false ↔ worker = .spawned ∨ worker = .exited := by
      intro worker
      cases worker <;> simp [Worker.isCounted]
    rw [hworkers, hactive]
    have hle : ((t.workers.map Prod.snd).countP Worker.isCounted : Int) ≤ 0 ↔
        (t.workers.map Prod.snd).countP Worker.isCounted = 0 := by omega
    rw [hle, List.countP_eq_zero]
    constructor
    · intro hnone entry hentry
      exact (hcounted entry.2).1 (by simpa using hnone entry.2 (List.mem_map_of_mem hentry))
    · intro hall worker hworker
      rcases List.mem_map.1 hworker with ⟨entry, hentry, rfl⟩
      simpa using (hcounted entry.2).2 (hall entry hentry)
  · intro more t'' hmore
    have hkept := Fallible.run_invariant
      (I := fun s : Threads => s.loop = .ended ∧ s.workers.length = t'.workers.length ∧
        s.accepted = t'.accepted) ⟨hsettled.1, rfl, rfl⟩
      (fun _ _ _ h hs => by
        have hnext := Threads.settled_step h.1 hs
        exact ⟨hnext.1, hnext.2.1.trans h.2.1, hnext.2.2.trans h.2.2⟩) hmore
    exact hkept.2

/-- A worker that has not run yet is not waited for. -/
example :
    (Fallible.run Threads.step (Threads.start 1)
        [.loop true, .loop true, .loop true, .loop true, .loop true, .loop true, .stop, .stop,
          .loop true, .stop, .stop, .stop]).map
      (fun t => (t.stop, t.workers.map fun entry => entry.2.isPending)) =
      .ok (.returned 0, [true]) := rfl

end Tunnel
end Crossover
