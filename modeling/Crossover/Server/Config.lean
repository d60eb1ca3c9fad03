import Crossover.Wire.BitStream

/-!
# Config — the dedicated server's environment

`Config::FromEnvironment` over an arbitrary environment: every variable may be absent, empty or any
text.  `std::stoi` is modelled by its documented behaviour; `std::stof` is a parameter, since no
property here depends on which float a text denotes.
-/

namespace Crossover
namespace Server

open Wire

/-- The process environment, as `getenv` sees it. -/
abbrev Env := String → Option String

inductive SpawnMode
  | anchor
  | fixed
  deriving DecidableEq, Repr

structure Config where
  gamePort : UInt16 := 60000
  tunnelPort : UInt16 := 60001
  tunnelEnabled : Bool := true
  statusPort : UInt16 := 8080
  maxPlayers : Int32 := 8
  spawnMode : SpawnMode := .anchor
  spawn : Vec3 := {}
  spawnConfigured : Bool := false
  stateFile : String := ""
  tickHz : Int32 := 60
  verbose : Bool := false
  deriving DecidableEq, Repr

/-! ## `std::stoi` -/

/-- `isspace` in the C locale. -/
def isSpace (c : Char) : Bool :=
  c = ' ' || c = '\t' || c = '\n' || c = Char.ofNat 11 || c = Char.ofNat 12 || c = '\r'

/-- The number denoted by a run of decimal digits, most significant first. -/
def digitsValue (digits : List Char) : Nat :=
  digits.foldl (fun acc c => 10 * acc + (c.toNat - '0'.toNat)) 0

/-- The digits at the front of a text, without anything that follows. -/
def leadingDigits (cs : List Char) : List Char :=
  cs.takeWhile Char.isDigit

/-- The sign of a number and the text behind it. -/
def splitSign : List Char → Bool × List Char
  | '-' :: cs => (true, cs)
  | '+' :: cs => (false, cs)
  | cs => (false, cs)

/-- `std::stoi`: `none` where it throws `invalid_argument` or `out_of_range`. -/
def stoi (v : String) : Option Int32 :=
  let signed := splitSign (v.toList.dropWhile isSpace)
  let digits := leadingDigits signed.2
  if digits = [] then none
  else
    let value : Int := if signed.1 then -(digitsValue digits : Int) else digitsValue digits
    if Int32.minValue.toInt ≤ value ∧ value ≤ Int32.maxValue.toInt then some (Int32.ofInt value)
    else none

/-! ## Reading variables -/

def envOrNull (env : Env) (name : String) : Option String :=
  match env name with
  | some v => if v = "" then none else some v
  | none => none

/-- The first of the variables that is set and not empty. -/
def firstEnv (env : Env) (names : List String) : Option String :=
  names.findSome? (envOrNull env)

def envInt (env : Env) (names : List String) (fallback : Int32) : Int32 :=
  match firstEnv env names with
  | none => fallback
  | some v => (stoi v).getD fallback

/-- The parsed value replaces `out` only when the text parses. -/
def envFloat (stof : String → Option UInt32) (env : Env) (name : String) (out : UInt32) :
    Bool × UInt32 :=
  match envOrNull env name with
  | none => (false, out)
  | some v =>
      match stof v with
      | some x => (true, x)
      | none => (false, out)

def envBool (env : Env) (name : String) (fallback : Bool) : Bool :=
  match envOrNull env name with
  | none => fallback
  | some s => s = "1" || s = "true" || s = "TRUE" || s = "yes" || s = "on"

/-- `static_cast<unsigned short>`. -/
def toPort (n : Int32) : UInt16 :=
  n.toUInt32.toUInt16

/-- `if (x < lo) x = lo; if (x > hi) x = hi;` -/
def clamp (lo hi x : Int32) : Int32 :=
  let raised := if x < lo then lo else x
  if raised > hi then hi else raised

def Config.fromEnvironment (stof : String → Option UInt32) (env : Env) : Config :=
  let gamePort := toPort (envInt env ["CROSSOVER_GAME_PORT"] 60000)
  let tunnelPort :=
    toPort (envInt env ["CROSSOVER_TUNNEL_PORT", "RAILWAY_TCP_APPLICATION_PORT"] 60001)
  let tunnelEnabled := envBool env "CROSSOVER_TUNNEL" true && tunnelPort != 0
  let statusPort := toPort (envInt env ["CROSSOVER_STATUS_PORT", "PORT"] 8080)
  -- `gamePort + 1` is an `int` sum narrowed to 16 bits, which is the 16-bit sum.
  let tunnelPort := if tunnelEnabled && tunnelPort == gamePort then gamePort + 1 else tunnelPort
  let maxPlayers := clamp 1 64 (envInt env ["CROSSOVER_MAX_PLAYERS"] 8)
  let tickHz := clamp 10 240 (envInt env ["CROSSOVER_TICK_HZ"] 60)
  let spawnMode :=
    match envOrNull env "CROSSOVER_SPAWN_MODE" with
    | some mode => if mode = "fixed" then .fixed else .anchor
    | none => .anchor
  let gotX := envFloat stof env "CROSSOVER_SPAWN_X" 0
  let gotY := envFloat stof env "CROSSOVER_SPAWN_Y" 0
  let gotZ := envFloat stof env "CROSSOVER_SPAWN_Z" 0
  { gamePort := gamePort
    tunnelPort := tunnelPort
    tunnelEnabled := tunnelEnabled
    statusPort := statusPort
    maxPlayers := maxPlayers
    spawnMode := spawnMode
    spawn := { x := gotX.2, y := gotY.2, z := gotZ.2 }
    spawnConfigured := gotX.1 || gotY.1 || gotZ.1
    stateFile := (envOrNull env "CROSSOVER_STATE_FILE").getD "/data/crossover-spawn.txt"
    tickHz := tickHz
    verbose := envBool env "CROSSOVER_VERBOSE" false }

/-! ## Clamping -/

theorem clamp_bounds {lo hi : Int32} (h : lo ≤ hi) (x : Int32) :
    lo ≤ clamp lo hi x ∧ clamp lo hi x ≤ hi := by
  simp only [clamp, gt_iff_lt, Int32.lt_iff_toInt_lt, Int32.le_iff_toInt_le] at *
  by_cases hlo : x.toInt < lo.toInt
  · rw [if_pos hlo, if_neg (Int.not_lt.2 h)]
    exact ⟨Int.le_refl _, h⟩
  · rw [if_neg hlo]
    by_cases hhi : hi.toInt < x.toInt
    · rw [if_pos hhi]
      exact ⟨h, Int.le_refl _⟩
    · rw [if_neg hhi]
      exact ⟨Int.not_lt.1 hlo, Int.not_lt.1 hhi⟩

theorem fromEnvironment_maxPlayers (stof : String → Option UInt32) (env : Env) :
    1 ≤ (Config.fromEnvironment stof env).maxPlayers ∧
      (Config.fromEnvironment stof env).maxPlayers ≤ 64 :=
  clamp_bounds (by decide) _

/-! ## A usable configuration -/

/-- What the rest of the server relies on. -/
structure Config.Usable (c : Config) : Prop where
  maxPlayers : 1 ≤ c.maxPlayers ∧ c.maxPlayers ≤ 64
  tickHz : 10 ≤ c.tickHz ∧ c.tickHz ≤ 240
  tunnelPort : c.tunnelEnabled = true → c.tunnelPort ≠ 0 ∧ c.tunnelPort ≠ c.gamePort

/-- The tunnel is wanted, and both ports read as the last one there is. -/
def BothPortsLast (env : Env) : Prop :=
  envBool env "CROSSOVER_TUNNEL" true = true ∧
    toPort (envInt env ["CROSSOVER_GAME_PORT"] 60000) = 65535 ∧
    toPort (envInt env ["CROSSOVER_TUNNEL_PORT", "RAILWAY_TCP_APPLICATION_PORT"] 60001) = 65535

instance (env : Env) : Decidable (BothPortsLast env) :=
  inferInstanceAs (Decidable (_ ∧ _))

theorem succ_port_eq_zero (port : UInt16) : port + 1 = 0 ↔ port = 65535 := by
  constructor
  · intro hzero
    have hback : port + 1 - 1 = 0 - 1 := by rw [hzero]
    rwa [UInt16.add_sub_cancel] at hback
  · rintro rfl
    rfl

/-- The port test of `FromEnvironment` on the values it reads: `wanted` is what the environment says
about the tunnel. -/
theorem tunnelPort_usable_iff (wanted : Bool) (gamePort tunnelPort : UInt16) :
    let enabled := wanted && tunnelPort != 0
    let chosen := if enabled && tunnelPort == gamePort then gamePort + 1 else tunnelPort
    (enabled = true → chosen ≠ 0 ∧ chosen ≠ gamePort) ↔
      ¬ (wanted = true ∧ gamePort = 65535 ∧ tunnelPort = 65535) := by
  intro enabled chosen
  cases henabled : enabled with
  | false =>
    refine ⟨?_, fun _ h => absurd h (by simp)⟩
    rintro - ⟨rfl, -, rfl⟩
    exact absurd henabled (by decide)
  | true =>
    have hwanted : wanted = true ∧ tunnelPort ≠ 0 := by simpa [enabled] using henabled
    by_cases hsame : tunnelPort = gamePort
    · have hchosen : chosen = gamePort + 1 := by simp [chosen, henabled, hsame]
      -- The replacement never equals the game port; it wraps to 0 at the top of the range.
      have hports : (gamePort = 65535 ∧ tunnelPort = 65535) ↔ gamePort = 65535 := by
        rw [hsame, and_self]
      rw [hchosen, hports, ← succ_port_eq_zero gamePort]
      simp [hwanted.1]
    · have hchosen : chosen = tunnelPort := by simp [chosen, hsame]
      rw [hchosen]
      refine ⟨fun _ hlast => hsame (hlast.2.2.trans hlast.2.1.symm), fun _ _ => ?_⟩
      exact ⟨hwanted.2, hsame⟩

/-- Only a tunnel asked for on the last port, with the game on the same one, comes out unusable: the
port next to it is 0. -/
theorem fromEnvironment_usable_iff (stof : String → Option UInt32) (env : Env) :
    (Config.fromEnvironment stof env).Usable ↔ ¬ BothPortsLast env := by
  have hports := tunnelPort_usable_iff (envBool env "CROSSOVER_TUNNEL" true)
    (toPort (envInt env ["CROSSOVER_GAME_PORT"] 60000))
    (toPort (envInt env ["CROSSOVER_TUNNEL_PORT", "RAILWAY_TCP_APPLICATION_PORT"] 60001))
  constructor
  · intro husable
    exact hports.1 husable.tunnelPort
  · intro hapart
    exact
      { maxPlayers := fromEnvironment_maxPlayers stof env
        tickHz := clamp_bounds (by decide) _
        tunnelPort := hports.2 hapart }

/-- Both ports asked for as 65535. -/
theorem fromEnvironment_not_usable :
    ¬ ∀ (stof : String → Option UInt32) (env : Env), (Config.fromEnvironment stof env).Usable := by
  intro hall
  let env : Env := fun name =>
    if name = "CROSSOVER_GAME_PORT" ∨ name = "CROSSOVER_TUNNEL_PORT" then some "65535" else none
  have husable := hall (fun _ => none) env
  have hport : (Config.fromEnvironment (fun _ => none) env).tunnelPort = 0 := by decide
  exact (husable.tunnelPort (by decide)).1 hport

example : stoi " +12abc" = some 12 ∧ stoi "abc" = none ∧ stoi "99999999999" = none := by
  decide

end Server
end Crossover
