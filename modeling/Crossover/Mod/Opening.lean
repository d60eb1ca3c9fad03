import Crossover.Mod.Effects
import Crossover.Mod.NetMainGameComponent

/-!
# Opening — what a failed `Host` or `Connect` leaves behind

`Network::Host` and `Network::Connect` write the settings before any of their tests, and `Connect`
has an exit behind a successful `peer->Startup`.  `attempt_of_failed` says what each failing exit
leaves; `leavesNoTrace_iff` says when that is nothing.  The peer is new when `Network` is made, so
the tests of `peer` itself never fail.
-/

namespace Crossover
namespace Mod

open Wire

/-- What a failed call is to leave as it found it. -/
structure Untouched (before after : Network) : Prop where
  active : after.active = before.active
  self : after.self = before.self
  connections : after.connections = before.connections
  ip : after.settings.ip = before.settings.ip
  port : after.settings.port = before.settings.port

namespace Opening

/-- The settings with the arguments in place. -/
def settings (settings : Settings) : Opening → Settings
  | .host port _ => { settings with port := port }
  | .connect ip port _ _ => { settings with ip := ip, port := port }

/-- The answer of `peer->Startup`. -/
def startup : Opening → Bool
  | .host _ startup => startup
  | .connect _ _ startup _ => startup

/-- `Connect` registers the callbacks that disconnect. -/
def registersQuit : Opening → Bool
  | .host _ _ => false
  | .connect _ _ _ _ => true

/-- The arguments are what the settings hold anyway. -/
def Restates (network : Network) : Opening → Prop
  | .host port _ => port = network.settings.port
  | .connect ip port _ _ => ip = network.settings.ip ∧ port = network.settings.port

/-- No exit of the call is taken but the last. -/
def Succeeds (network : Network) : Opening → Prop
  | .host _ startup => network.active = false ∧ startup = true
  | .connect _ _ startup connected =>
      network.active = false ∧ startup = true ∧ connected = true

/-- `peer->Startup` succeeds and `peer->Connect` does not. -/
def HalfStarts (network : Network) : Opening → Prop
  | .host _ _ => False
  | .connect _ _ startup connected =>
      network.active = false ∧ startup = true ∧ connected = false

end Opening

namespace Session

variable {σ : Type}

/-- `Network::Host` and `Network::Connect` on any network. -/
def attempt (E : Engine σ) (s : Session σ) : Opening → Bool × Session σ
  | .host port startup => s.host E port startup
  | .connect ip port startup connected => s.connect ip port startup connected

/-- The next update of a component that owns this session returns to the idle state, whatever keys
are pressed and whatever the peer has received. -/
def ReturnsToIdle (E : Engine σ) (s : Session σ) : Prop :=
  ∀ input, ∃ c,
    NetMainGameComponent.handleMainGameComponentUpdate E input
        { network := true, netPlayerManager := true, session := s } = .ok c ∧
      c.network = false ∧ c.netPlayerManager = false

/-- A call that returns `false` has left the network as it was, and a session that failed to start
is gone with the next update. -/
def LeavesNoTrace (E : Engine σ) (s : Session σ) (opening : Opening) : Prop :=
  (s.attempt E opening).1 = false →
    Untouched s.network (s.attempt E opening).2.network ∧
    (s.network.active = false → ReturnsToIdle E (s.attempt E opening).2)

section Attempts

variable {E : Engine σ} {s : Session σ} {opening : Opening}

theorem opened_eq_attempt (E : Engine σ) (process : Process σ) (opening : Opening) :
    opened E process opening = ((made process opening.registersQuit).attempt E opening).2 := by
  cases opening with
  | host port startup => rfl
  | connect ip port startup connected => rfl

theorem attempt_iff (E : Engine σ) (s : Session σ) (opening : Opening) :
    (s.attempt E opening).1 = true ↔ opening.Succeeds s.network := by
  cases opening with
  | host port startup =>
    cases hactive : s.network.active <;> cases startup <;>
      simp [attempt, host, Opening.Succeeds, hactive]
  | connect ip port startup connected =>
    cases hactive : s.network.active <;> cases startup <;> cases connected <;>
      simp [attempt, connect, Opening.Succeeds, hactive]

theorem attempt_eq_false_iff (E : Engine σ) (s : Session σ) (opening : Opening) :
    (s.attempt E opening).1 = false ↔ ¬ opening.Succeeds s.network := by
  rw [← attempt_iff E s opening, Bool.not_eq_true]

/-- A failed call has written the settings; nothing else, unless it has started the peer. -/
theorem attempt_of_failed (hfailed : ¬ opening.Succeeds s.network)
    (hhalf : ¬ opening.HalfStarts s.network) :
    (s.attempt E opening).2 =
      { s with
        network := { s.network with settings := opening.settings s.network.settings } } := by
  cases opening with
  | host port startup =>
    cases hactive : s.network.active with
    | true => simp [attempt, host, hactive, Opening.settings]
    | false =>
      have hstartup : startup = false := by simpa [Opening.Succeeds, hactive] using hfailed
      simp [attempt, host, hactive, hstartup, Opening.settings]
  | connect ip port startup connected =>
    cases hactive : s.network.active with
    | true => simp [attempt, connect, hactive, Opening.settings]
    | false =>
      have hstartup : startup = false := by
        by_contra hstarted
        cases connected with
        | true => exact hfailed ⟨hactive, by simpa using hstarted, rfl⟩
        | false => exact hhalf ⟨hactive, by simpa using hstarted, rfl⟩
      simp [attempt, connect, hactive, hstartup, Opening.settings]

theorem active_of_halfStarts (hhalf : opening.HalfStarts s.network) :
    (s.attempt E opening).2.network.active = true := by
  cases opening with
  | host port startup => exact hhalf.elim
  | connect ip port startup connected =>
    rcases hhalf with ⟨hactive, rfl, rfl⟩
    simp [attempt, connect, hactive]

theorem inactive_of_halfStarts (hhalf : opening.HalfStarts s.network) :
    s.network.active = false := by
  cases opening with
  | host port startup => exact hhalf.elim
  | connect ip port startup connected => exact hhalf.1

theorem untouched_settings_iff (network : Network) (opening : Opening) :
    Untouched network { network with settings := opening.settings network.settings } ↔
      opening.Restates network := by
  cases opening with
  | host port startup =>
    constructor
    · intro h
      exact h.port
    · intro hport
      exact ⟨rfl, rfl, rfl, rfl, hport⟩
  | connect ip port startup connected =>
    constructor
    · intro h
      exact ⟨h.ip, h.port⟩
    · rintro ⟨hip, hport⟩
      exact ⟨rfl, rfl, rfl, hip, hport⟩

/-! ## The session loop -/

theorem run_update_of_inactive (hinactive : s.network.active = false) (rounds : Nat)
    (packets : List Packet) :
    Fallible.run (fun s packet => s.update E rounds packet) s packets = .ok s := by
  induction packets with
  | nil => rfl
  | cons packet packets ih =>
    have hupdate : s.update E rounds packet = .ok s := by simp [update, hinactive]
    rw [Fallible.run_cons_of_ok _ hupdate]
    exact ih

/-- The loop drops a session whose peer is inactive. -/
theorem returnsToIdle_of_inactive (hinactive : s.network.active = false) :
    ReturnsToIdle E s := by
  intro input
  let c : NetMainGameComponent σ :=
    { network := true, netPlayerManager := true, session := s }
  have hdisconnect : s.disconnect E input.rounds = .ok s := by simp [disconnect, hinactive]
  have hselection : c.selection E input = .ok c := by
    rw [NetMainGameComponent.selection, NetMainGameComponent.viaNetwork_eq rfl,
      NetMainGameComponent.networkDisconnect_eq rfl, hdisconnect]
    simp [c]
  have hupdate : c.viaNetwork (NetMainGameComponent.networkUpdate E input.rounds input.packets) =
      .ok c := by
    rw [NetMainGameComponent.viaNetwork_eq rfl, NetMainGameComponent.networkUpdate_eq rfl rfl,
      run_update_of_inactive hinactive]
    rfl
  refine ⟨c.disconnect, ?_, rfl, rfl⟩
  rw [NetMainGameComponent.handleMainGameComponentUpdate, hselection]
  simp only
  rw [hupdate]
  simp [c, NetMainGameComponent.release, hinactive]

/-- An update that receives nothing keeps a session whose peer is active. -/
theorem update_keeps_active (hactive : s.network.active = true) :
    NetMainGameComponent.handleMainGameComponentUpdate E {}
        { network := true, netPlayerManager := true, session := s } =
      .ok { network := true, netPlayerManager := true, session := s } := by
  simp [NetMainGameComponent.handleMainGameComponentUpdate, NetMainGameComponent.selection,
    NetMainGameComponent.viaNetwork, NetMainGameComponent.networkUpdate,
    NetMainGameComponent.release, hactive]

/-- So the loop gets rid of a session exactly when the peer is inactive. -/
theorem returnsToIdle_iff (E : Engine σ) (s : Session σ) :
    ReturnsToIdle E s ↔ s.network.active = false := by
  constructor
  · intro hidle
    by_contra hactive
    rcases hidle {} with ⟨c, hupdate, hnetwork, -⟩
    rw [update_keeps_active (by simpa using hactive)] at hupdate
    cases hupdate
    exact absurd hnetwork (by simp)
  · exact returnsToIdle_of_inactive

theorem active_opened (E : Engine σ) (process : Process σ) (opening : Opening) :
    (opened E process opening).network.active = opening.startup := by
  cases opening with
  | host port startup =>
    cases startup with
    | false => rfl
    | true => simp [opened, host, made, Opening.startup, network_createLocalNetPlayer]
  | connect ip port startup connected =>
    cases startup with
    | false => rfl
    | true => rfl

/-- The opening that the pressed key asks for. -/
def openingOf (input : UpdateInput) : Option Opening :=
  if input.numpad1 then some (.host input.port input.startup)
  else if input.numpad2 then
    some (.connect input.ip input.port input.startup input.connected)
  else none

/-- The update of the key press keeps the session if its peer was started, whether or not the call
has succeeded. -/
theorem update_of_opening {c : NetMainGameComponent σ} {input : UpdateInput}
    (hidle : c.network = false) (hopening : openingOf input = some opening)
    (hquiet : input.packets = []) :
    NetMainGameComponent.handleMainGameComponentUpdate E input c =
      .ok
        { network := opening.startup
          netPlayerManager := opening.startup
          session := opened E (c.process input) opening } := by
  have hselection : c.selection E input = .ok
      { network := true, netPlayerManager := true
        session := opened E (c.process input) opening } := by
    rw [NetMainGameComponent.selection, NetMainGameComponent.host_eq,
      NetMainGameComponent.connect_eq E]
    cases hhost : input.numpad1 with
    | true =>
      obtain rfl : .host input.port input.startup = opening := by
        simpa [openingOf, hhost] using hopening
      simp [hidle]
    | false =>
      cases hconnect : input.numpad2 with
      | true =>
        obtain rfl : .connect input.ip input.port input.startup input.connected = opening := by
          simpa [openingOf, hhost, hconnect] using hopening
        simp [hidle]
      | false => simp [openingOf, hhost, hconnect] at hopening
  have hactive := active_opened E (c.process input) opening
  rw [NetMainGameComponent.handleMainGameComponentUpdate, hselection, hquiet]
  cases hstartup : opening.startup <;>
    simp [NetMainGameComponent.viaNetwork, NetMainGameComponent.networkUpdate,
      NetMainGameComponent.release, NetMainGameComponent.disconnect, hactive, hstartup]

/-- A failed `Host` or `Connect` leaves no trace exactly when there is nothing to leave: it
succeeds, or it writes into the settings what they hold and stops before the peer is started. -/
theorem leavesNoTrace_iff (E : Engine σ) (s : Session σ) (opening : Opening) :
    LeavesNoTrace E s opening ↔
      opening.Succeeds s.network ∨
        (opening.Restates s.network ∧ ¬ opening.HalfStarts s.network) := by
  by_cases hsucceeds : opening.Succeeds s.network
  · refine iff_of_true ?_ (.inl hsucceeds)
    intro hfalse
    exact absurd hsucceeds ((attempt_eq_false_iff E s opening).1 hfalse)
  · have hfalse := (attempt_eq_false_iff E s opening).2 hsucceeds
    by_cases hhalf : opening.HalfStarts s.network
    · -- The peer was not active and is now.
      refine iff_of_false ?_ (by simp [hsucceeds, hhalf])
      intro h
      have hsame := (h hfalse).1.active
      rw [active_of_halfStarts hhalf, inactive_of_halfStarts hhalf] at hsame
      exact absurd hsame (by simp)
    · have hafter := attempt_of_failed (E := E) hsucceeds hhalf
      simp only [LeavesNoTrace, hfalse, hafter, untouched_settings_iff, returnsToIdle_iff]
      simp [hsucceeds, hhalf]

/-- `peer->Startup` has succeeded and `peer->Connect` has not: the call fails, the peer runs. -/
theorem connect_leaves_peer_running :
    let E := Engine.table fun _ _ => unassignedSystemAddress
    let process : Process Engine.Table := { engine := [], boundAddress := unassignedSystemAddress }
    ¬ LeavesNoTrace E (made process true) (.connect "127.0.0.1" 60000 true false) := by
  intro E process h
  exact absurd (h rfl).1.active (by decide)

end Attempts

end Session
end Mod
end Crossover
