import Crossover.Lib.RateLimit
import Crossover.Server.Messages

/-!
# FloodGuard — what the rate window lets through

`AcceptRate` is a limiter with tumbling windows of 1000 ms and 600 packets.  The windows of a player
open wherever its traffic puts them, so an interval of 1000 ms may straddle two of them: the guard
promises 600 packets a window and 1200 an interval.
-/

namespace Crossover
namespace Server

open Wire RateLimit

def kRateWindowMs : Int := 1000

/-- One player's record under the times at which `Tick` takes in its packets. -/
def floodGuard : Machine Player Int Verdict where
  step player nowMs :=
    let booked := RelayServer.account player nowMs
    (booked.1,
      [{ time := nowMs, window := booked.1.rateWindowStartMs, admitted := booked.2 }])

/-- The limiter's part of a record. -/
def Player.window (p : Player) : Window :=
  { start := p.rateWindowStartMs, count := p.rateWindowCount }

/-! ## The guard is a limiter -/

theorem window_rollRateWindow (p : Player) (nowMs : Int) :
    (RelayServer.rollRateWindow p nowMs).window = p.window.roll kRateWindowMs nowMs := by
  unfold RelayServer.rollRateWindow Window.roll
  by_cases hlate : nowMs - p.rateWindowStartMs ≥ 1000
  · have hlate' : nowMs - p.window.start ≥ kRateWindowMs := hlate
    rw [if_pos hlate, if_pos hlate']
    rfl
  · have hlate' : ¬ nowMs - p.window.start ≥ kRateWindowMs := hlate
    rw [if_neg hlate, if_neg hlate']

theorem acceptRate_eq (p : Player) (nowMs : Int) :
    let rolled := RelayServer.rollRateWindow p nowMs
    (RelayServer.acceptRate p nowMs).1.window =
        { rolled.window with count := rolled.window.count + 1 } ∧
      (RelayServer.acceptRate p nowMs).2 = decide (rolled.window.count < kMaxPacketsPerSecond) := by
  intro rolled
  unfold RelayServer.acceptRate
  by_cases hfull : rolled.rateWindowCount + 1 > kMaxPacketsPerSecond
  · have hover : ¬ rolled.window.count < kMaxPacketsPerSecond := by
      show ¬ rolled.rateWindowCount < kMaxPacketsPerSecond
      omega
    simp only [rolled, hfull, if_pos, hover, decide_false]
    exact ⟨rfl, trivial⟩
  · have hroom : rolled.window.count < kMaxPacketsPerSecond := by
      show rolled.rateWindowCount < kMaxPacketsPerSecond
      omega
    simp only [rolled, hfull, if_neg, not_false_eq_true, hroom, decide_true]
    exact ⟨rfl, trivial⟩

/-- Forgetting everything but the window turns the record into the limiter. -/
theorem floodGuard_run (p : Player) (times : List Int) :
    (limiter kMaxPacketsPerSecond kRateWindowMs).run p.window times =
      ((floodGuard.state p times).window, floodGuard.log p times) := by
  have hrun := Machine.run_map (M := floodGuard)
    (N := limiter kMaxPacketsPerSecond kRateWindowMs) (f := Player.window) (g := id) (h := id)
    ?_ p times
  · simpa using hrun
  · intro p nowMs
    have haccept := acceptRate_eq
      { p with lastPacketMs := nowMs, packetsIn := p.packetsIn + 1 } nowMs
    have hroll := window_rollRateWindow
      { p with lastPacketMs := nowMs, packetsIn := p.packetsIn + 1 } nowMs
    simp only [hroll] at haccept
    have hstart : (RelayServer.account p nowMs).1.rateWindowStartMs =
        (p.window.roll kRateWindowMs nowMs).start :=
      congrArg Window.start haccept.1
    simp only [limiter, Window.judge, floodGuard, List.map_cons, List.map_nil, id_eq, hstart]
    refine Prod.ext haccept.1.symm ?_
    have hverdict : (RelayServer.account p nowMs).2 =
        decide ((p.window.roll kRateWindowMs nowMs).count < kMaxPacketsPerSecond) :=
      haccept.2
    rw [hverdict]

/-- A packet that is turned away leaves a trace in the counters only. -/
theorem account_rejected {p : Player} {nowMs : Int}
    (hrejected : (RelayServer.account p nowMs).2 = false) :
    (RelayServer.account p nowMs).1 =
      { p with
        lastPacketMs := nowMs
        packetsIn := p.packetsIn + 1
        rateWindowCount := p.rateWindowCount + 1
        rateLimited := true } := by
  unfold RelayServer.account RelayServer.acceptRate RelayServer.rollRateWindow at hrejected ⊢
  by_cases hlate : nowMs - p.rateWindowStartMs ≥ 1000
  · -- The first packet of a window is never over the limit.
    have hfirst : ¬ 0 + 1 > kMaxPacketsPerSecond := by decide
    simp [hlate, hfirst] at hrejected
  · by_cases hfull : p.rateWindowCount + 1 > kMaxPacketsPerSecond
    · simp [hlate, hfull]
    · simp [hlate, hfull] at hrejected

/-! ## The bounds -/

theorem floodGuard_kept (s : RelayServer) (packet : Packet) {joinedMs : Int} {times : List Int}
    (hsorted : (joinedMs :: times).Pairwise (· ≤ ·)) :
    Kept kMaxPacketsPerSecond kRateWindowMs (floodGuard.log (newPlayer s packet joinedMs) times)
      (floodGuard.state (newPlayer s packet joinedMs) times).window := by
  have hkept : Kept kMaxPacketsPerSecond kRateWindowMs
      ((limiter kMaxPacketsPerSecond kRateWindowMs).log { start := joinedMs, count := 0 } times)
      ((limiter kMaxPacketsPerSecond kRateWindowMs).state { start := joinedMs, count := 0 }
        times) :=
    kept_run (by decide) (timely_of_sorted hsorted)
  have hrun : (limiter kMaxPacketsPerSecond kRateWindowMs).run
      { start := joinedMs, count := 0 } times = _ :=
    floodGuard_run (newPlayer s packet joinedMs) times
  rw [Machine.log, Machine.state, hrun] at hkept
  exact hkept

theorem floodGuard_times (p : Player) (times : List Int) :
    (floodGuard.log p times).map Verdict.time = times := by
  have hlog := congrArg Prod.snd (floodGuard_run p times)
  rw [← show _ = floodGuard.log p times from hlog]
  exact log_times _ _

/-- The flood guard over the whole life of a record. -/
theorem flood_guard_bounds (s : RelayServer) (packet : Packet) (joinedMs : Int)
    (times : List Int) (hsorted : (joinedMs :: times).Pairwise (· ≤ ·)) :
    let verdicts := floodGuard.log (newPlayer s packet joinedMs) times
    (∀ a, verdicts.countP (fun v => v.admitted && decide (v.InInterval 1000 a)) ≤ 1200) ∧
    (∀ start, verdicts.countP (fun v => v.admitted && decide (v.window = start)) ≤ 600) ∧
    ((∀ a, times.countP (fun t => a ≤ t ∧ t < a + 1000) ≤ 600) →
      ∀ v ∈ verdicts, v.admitted = true) ∧
    (∀ (p : Player) (nowMs : Int), (RelayServer.account p nowMs).2 = false →
      (RelayServer.account p nowMs).1 =
        { p with
          lastPacketMs := nowMs
          packetsIn := p.packetsIn + 1
          rateWindowCount := p.rateWindowCount + 1
          rateLimited := true }) := by
  intro verdicts
  have hkept : Kept kMaxPacketsPerSecond kRateWindowMs verdicts _ :=
    floodGuard_kept s packet hsorted
  refine ⟨hkept.admitted_in_interval, hkept.within, ?_, fun p nowMs => account_rejected⟩
  intro hsparse v hv
  by_contra hrejected
  have hcrowded := hkept.crowded_of_rejected hv (by simpa using hrejected)
  have hfew := hsparse v.window
  rw [← floodGuard_times (newPlayer s packet joinedMs) times, List.countP_map] at hfew
  exact absurd hcrowded (Nat.not_lt.2 hfew)

theorem flood_guard_bounds_three_packets :
    let joined : Packet :=
      { systemAddress := unassignedSystemAddress, guid := 0, data := [0], nonempty := by simp }
    let verdicts := floodGuard.log (newPlayer (start {} 0 none) joined 5) [5, 900, 1005]
    verdicts.countP (fun v => v.admitted && decide (v.InInterval 1000 5)) = 2 ∧ 2 ≤ 1200 := by
  intro joined verdicts
  have hbounds := flood_guard_bounds (start {} 0 none) joined 5 [5, 900, 1005] (by decide)
  have hcount : verdicts.countP (fun v => v.admitted && decide (v.InInterval 1000 5)) = 2 := by
    decide
  exact ⟨hcount, hcount ▸ hbounds.1 5⟩

end Server
end Crossover
