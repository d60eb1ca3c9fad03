import Crossover.Mod.Avatars
import Crossover.Server.Gate
import Crossover.System.Client

/-!
# Announcements — one creation per peer

The server reports a player to the others whenever it announces itself, and `HandleCreateNetPlayer`
does not look whether it has announced itself before.  So a peer is announced twice to somebody
exactly when a player that has spawned announces itself again while another one is there to hear
it; otherwise the clients, who do not look either, hold everybody once.
-/

namespace Crossover
namespace Server

open Wire History

/-- An `ID_CREATE_NET_PLAYER` that the flood guard and the length check let pass, from a player
that has spawned already, while another player has spawned too. -/
def Reannounces (s : RelayServer) : Event → Prop
  | .packet packet tickMs _ =>
      packet.kind = .createNetPlayer ∧ kSizeCreateNetPlayer ≤ packet.length ∧
        ∃ self, findByAddress s.players packet.systemAddress = some self ∧
          self.spawned = true ∧ RateAdmits self tickMs ∧
          ∃ q ∈ s.players, q.networkId ≠ self.networkId ∧ q.spawned = true
  | _ => False

/-! ## In the lobby it is a repetition -/

section Repeats

variable {config : Config} {s : RelayServer}

theorem dispatchAct_announce {packet : Packet} {self : Player}
    (hfind : findByAddress s.players packet.systemAddress = some self)
    (hkind : packet.kind = .createNetPlayer) (hlen : kSizeCreateNetPlayer ≤ packet.length) :
    dispatchAct s packet = .announce self.networkId (readCreateNetPlayer packet).2.1 := by
  simp [dispatchAct, hfind, hkind, Nat.not_lt.2 hlen]

/-- A repetition that other players hear. -/
theorem repeats_iff (hinv : TableInv s) {self : Player} (hself : self ∈ s.players)
    (info : Int32) :
    Lobby.Repeats (members s.players) (.announce self.networkId info) ↔
      self.spawned = true ∧ ∃ q ∈ s.players, q.networkId ≠ self.networkId ∧ q.spawned = true := by
  have hpeers : Lobby.peers (members s.players) self.networkId ≠ [] ↔
      ∃ q ∈ s.players, q.networkId ≠ self.networkId ∧ q.spawned = true := by
    rw [peers_members]
    constructor
    · intro hne
      rcases List.exists_mem_of_ne_nil _ hne with ⟨m, hm⟩
      rcases List.mem_map.1 hm with ⟨q, hq, _⟩
      rcases List.mem_filter.1 hq with ⟨hmem, hpass⟩
      have hboth : q.networkId ≠ self.networkId ∧ q.spawned = true := by simpa using hpass
      exact ⟨q, hmem, hboth⟩
    · rintro ⟨q, hq, hne, hspawned⟩ hnil
      have hmem : q.member ∈ members (recipients s.players self.networkId) := by
        apply List.mem_map_of_mem
        simp [recipients, hq, hne, hspawned]
      rw [hnil] at hmem
      cases hmem
  have hpresent : (∃ m ∈ members s.players, m.id = self.networkId ∧ m.present = true) ↔
      self.spawned = true := by
    constructor
    · rintro ⟨m, hm, hid, hp⟩
      rcases List.mem_map.1 hm with ⟨q, hq, rfl⟩
      exact hinv.eq_of_networkId hq hself hid ▸ hp
    · intro hspawned
      exact ⟨self.member, List.mem_map_of_mem hself, rfl, hspawned⟩
  exact and_congr hpresent hpeers

theorem reannounces_iff (hinv : ServerInv config s) (event : Event) :
    Reannounces s event ↔ Lobby.Repeats (members s.players) (act s event) := by
  constructor
  · intro h
    cases event with
    | packet packet tickMs handlerMs =>
      rcases h with ⟨hkind, hlen, self, hfind, hspawned, hadmits, hothers⟩
      have hmem := findByAddress_mem hfind
      have hpeer : s.peer = true := by
        cases hpeer : s.peer with
        | true => rfl
        | false =>
          rw [hinv.stopped hpeer] at hmem
          cases hmem
      have haccepted : (s.bookkeep packet tickMs).2 = true := by
        rw [bookkeep_of_find hfind]
        exact (account_accepts self tickMs).2 hadmits
      have hact : act s (.packet packet tickMs handlerMs) =
          .announce self.networkId (readCreateNetPlayer packet).2.1 := by
        have hdispatch := dispatchAct_announce (find_bookkeep hfind tickMs) hkind hlen
        rw [account_networkId] at hdispatch
        simp [act, hpeer, haccepted, hdispatch]
      rw [hact, repeats_iff hinv.table hmem]
      exact ⟨hspawned, hothers⟩
    | tickEnd nowMs persistMs writable => exact h.elim
    | stop writable => exact h.elim
  · intro hrepeats
    have hwhy := acted s event
    generalize act s event = did at hwhy hrepeats
    cases hwhy with
    | idle => exact hrepeats.elim
    | stop writable peer => exact hrepeats.elim
    | @packet packet tickMs handlerMs _ peer accepted dispatched =>
      cases dispatched with
      | announce known kind long =>
        -- The record the handler finds has the id of the one before.
        rcases exists_of_find_bookkeep known with ⟨self, hfind, rfl⟩
        rw [account_networkId, repeats_iff hinv.table (findByAddress_mem hfind)] at hrepeats
        rw [bookkeep_of_find hfind] at accepted
        exact ⟨kind, long, self, hfind, hrepeats.1, (account_accepts self tickMs).1 accepted,
          hrepeats.2⟩
      | _ => exact hrepeats.elim

end Repeats

/-- The notes of a run are fresh exactly when no step announces anybody again. -/
theorem fresh_iff (config : Config) (nowMs : Int) (restored : Option Vec3) (events : List Event) :
    Lobby.Fresh (notes (server.log (start config nowMs restored) events)) ↔
      server.StepsSatisfy (fun s event => ¬ Reannounces s event) (start config nowMs restored)
        events := by
  induction events using List.reverseRecOn with
  | nil =>
    constructor
    · intro _
      exact Machine.stepsSatisfy_nil _ _ _
    · intro _ a
      exact every_nil _
  | append_singleton events event ih =>
    have hinv := channelInv_run config nowMs restored events
    have hstep := (stepsLobby_step hinv.roster.inv.table event).step
    rw [Machine.log_snoc, notes_append, server_step, hinv.roster.agrees.fresh_step hstep, ih,
      ← reannounces_iff hinv.roster.inv]
    exact (Machine.stepsSatisfy_snoc _).symm

/-! ## What the clients make of it -/

section Clients

variable {config : Config} {s : RelayServer} {calls : List PeerCall} {σ : Type}
  {E : Mod.Engine σ} {Holds : σ → Int → Int32 → Prop}

theorem messageNote_assign {m : Message} {k : Int32} (h : messageNote m = some (.assign k)) :
    m.isAssignment = true := by
  cases m <;> cases h
  rfl

theorem oneAvatarPerId_of_follows {client : Mod.Session σ} {l : Mod.Session.LobbyListener}
    (h : Mod.Session.Follows Holds client l) (hdistinct : l.Distinct) :
    client.OneAvatarPerId := by
  rw [Mod.Session.oneAvatarPerId_iff, Mod.Session.networkIds_eq]
  rcases h.localNetPlayer with ⟨p, _, hp, hown, _⟩
  rw [hp, h.ids]
  exact List.nodup_cons.2 ⟨hdistinct.notOwn p.networkId hown, hdistinct.nodup⟩

/-- A client that handles the messages of one of its sessions holds everybody once. -/
theorem client_holds_one (h : ChannelInv config s calls) (hfresh : Lobby.Fresh (notes calls))
    (hE : E.Lawful Holds) {client : Mod.Session σ} (hready : client.Ready Holds)
    (host : SystemAddress) {a : SystemAddress} {earlier seen later : List Message}
    {id : Int32} {position : Vec3}
    (hsplit : orderedMessages a calls =
      earlier ++ .createLocalNetPlayer id position :: (seen ++ later))
    (hsession : ∀ m ∈ seen, m.isAssignment = false) :
    ∃ client', client.handleAll E host (.createLocalNetPlayer id position :: seen) = .ok client' ∧
      client'.OneAvatarPerId := by
  have hadmits := h.every_admits hfresh a
  have hknown := h.every_known a
  have hnotes : (orderedMessages a calls).filterMap messageNote =
      (earlier.filterMap messageNote ++ .assign id :: seen.filterMap messageNote) ++
        later.filterMap messageNote := by
    simp [hsplit, List.filterMap_append, messageNote]
  rw [hnotes] at hadmits hknown
  have hbefore := (every_append.1 hadmits).1
  have hmem : ∀ m ∈ seen, m ∈ orderedMessages a calls := by
    intro m hm
    simp [hsplit, hm]
  -- The first message is the assignment; nothing later is about the client itself.
  rcases hready.assign hE host id position with ⟨started, hassigned, hfollows, hactive⟩
  have hforeign : ∀ m ∈ seen, ∀ k, messageNote m ≠ some (.assign k) ∧
      (messageNote m = some (.destroy k) → (some id : Option Int32) ≠ some k) := by
    intro m hm k
    refine ⟨?_, ?_⟩
    · intro hsaid
      have hassign := messageNote_assign hsaid
      rw [hsession m hm] at hassign
      cases hassign
    · intro hsaid heq
      obtain rfl := Option.some.inj heq
      rcases List.mem_iff_append.1 hm with ⟨front, back, hseen⟩
      have hnow : seen.filterMap messageNote =
          front.filterMap messageNote ++ .destroy id :: back.filterMap messageNote := by
        simp [hseen, List.filterMap_append, hsaid]
      have hfront := (every_append.1 hknown).1 (earlier.filterMap messageNote ++
        .assign id :: front.filterMap messageNote) (.destroy id) (back.filterMap messageNote)
        (by rw [hnow]; simp) id rfl
      have hpart : Every Lobby.Listener.Admits
          (earlier.filterMap messageNote ++ .assign id :: front.filterMap messageNote) := by
        rw [hnow] at hbefore
        have hregroup : earlier.filterMap messageNote ++ .assign id ::
            (front.filterMap messageNote ++ .destroy id :: back.filterMap messageNote) =
            (earlier.filterMap messageNote ++ .assign id :: front.filterMap messageNote) ++
              .destroy id :: back.filterMap messageNote := by simp
        rw [hregroup] at hbefore
        exact (every_append.1 hbefore).1
      rcases Lobby.Listener.distinct_of_admits hpart with ⟨hdistinct, hids⟩
      have hown : (Lobby.Listener.after (earlier.filterMap messageNote ++
          .assign id :: front.filterMap messageNote)).own = some id := by
        rw [Lobby.Listener.after_assign, Lobby.Listener.foldl_hear_own]
        intro k' hk'
        rcases List.mem_filterMap.1 hk' with ⟨m', hm', hsaid'⟩
        have hassign := messageNote_assign hsaid'
        rw [hsession m' (by simp [hseen, hm'])] at hassign
        cases hassign
      exact hdistinct.notOwn id hown ((hids id).2 hfront)
  rcases hfollows.handleAll hE hactive host (fun m hm => mem_orderedMessages h.roster.sends
    (hmem m hm)) hforeign with ⟨client', hrun, hfollows', _⟩
  refine ⟨client', ?_, ?_⟩
  · have hfirst := (Mod.Session.update_packetFrom (E := E) hready.active
      (m := .createLocalNetPlayer id position) trivial host).trans hassigned
    exact Fallible.run_cons_ok.2 ⟨started, hfirst, hrun⟩
  · apply oneAvatarPerId_of_follows hfollows'
    rw [← Lobby.Listener.after_assign (earlier.filterMap messageNote)]
    exact (Lobby.Listener.distinct_of_admits hbefore).1

/-- Every mod client, in whatever game that keeps its laws, that handles the messages sent to an
address in one session holds everybody once at every moment. -/
def ClientsHoldOne (calls : List PeerCall) : Prop :=
  ∀ {σ : Type} (E : Mod.Engine σ) (Holds : σ → Int → Int32 → Prop), E.Lawful Holds →
    ∀ client : Mod.Session σ, client.Ready Holds →
      ∀ (host a : SystemAddress) (earlier seen later : List Message) (id : Int32)
        (position : Vec3),
        orderedMessages a calls =
            earlier ++ .createLocalNetPlayer id position :: (seen ++ later) →
          (∀ m ∈ seen, m.isAssignment = false) →
          ∃ client',
            client.handleAll E host (.createLocalNetPlayer id position :: seen) = .ok client' ∧
              client'.OneAvatarPerId

end Clients

/-- In every run each peer is announced to each client at most once between two of its
destructions, and no mod client ever holds it twice, exactly when no player that has spawned
announces itself again while another one has spawned. -/
theorem announced_once_iff (config : Config) (nowMs : Int) (restored : Option Vec3)
    (events : List Event) :
    let s₀ := start config nowMs restored
    let calls := server.log s₀ events
    (∀ a, Separated (orderedMessages a calls)) ∧ ClientsHoldOne calls ↔
      server.StepsSatisfy (fun s event => ¬ Reannounces s event) s₀ events := by
  intro s₀ calls
  have h : ChannelInv config (server.state s₀ events) calls :=
    channelInv_run config nowMs restored events
  have hfresh : (∀ a, Separated (orderedMessages a calls)) ↔ Lobby.Fresh (notes calls) :=
    forall_congr' fun a => separated_iff h.roster.sends a
  rw [← fresh_iff config nowMs restored events, hfresh]
  constructor
  · exact fun hboth => hboth.1
  · intro hnotes
    refine ⟨hnotes, ?_⟩
    intro σ E Holds hE client hready host a earlier seen later id position hsplit hsession
    exact client_holds_one h hnotes hE hready host hsplit hsession

/-! ## A player that announces itself twice -/

section Repetition

def firstAddress : SystemAddress :=
  { ip := 0x0A000001, port := 4000 }

def secondAddress : SystemAddress :=
  { ip := 0x0A000002, port := 4000 }

/-- A client's message reaches the server. -/
def messageEvent (address : SystemAddress) (m : Message) : Event :=
  .packet (Mod.Session.packetFrom address m) 0 0

/-- Two clients join and spawn, then the first one announces itself again. -/
def repetition : List Event :=
  [messageEvent firstAddress .connectionNotification,
    messageEvent secondAddress .connectionNotification,
    messageEvent firstAddress (.createNetPlayer 1 2000 {}),
    messageEvent secondAddress (.createNetPlayer 2 2001 {}),
    messageEvent firstAddress (.createNetPlayer 1 2000 {})]

/-- What the second client receives. -/
def repeatedMessages : List Message :=
  [.createLocalNetPlayer 2 {}, .createNetPlayers [⟨1, 2000, {}⟩], .createNetPlayer 1 2000 {}]

/-- A mod client that has connected, with its own hero in the game. -/
def waitingClient : Mod.Session Mod.Engine.Table where
  engine := [(0, 1000)]
  network := { active := true }

/-- The second client is told of the first one twice and then holds it twice. -/
theorem repetition_doubles :
    let calls := server.log (start {} 0 none) repetition
    ¬ Separated (orderedMessages secondAddress calls) ∧ ¬ ClientsHoldOne calls := by
  intro calls
  have hmessages : orderedMessages secondAddress calls = repeatedMessages := by decide +kernel
  refine ⟨?_, ?_⟩
  · intro h
    rcases h.between [.createLocalNetPlayer 2 {}] (.createNetPlayers [⟨1, 2000, {}⟩]) []
      (.createNetPlayer 1 2000 {}) [] 1 hmessages (by decide) (by decide) with ⟨m, hm, _⟩
    cases hm
  · intro h
    let E := Mod.Engine.table fun _ port => { ip := 0x0A000003, port := port }
    have hE : E.Lawful Mod.Engine.Table.Holds := Mod.Engine.table_lawful _
    have hready : waitingClient.Ready Mod.Engine.Table.Holds :=
      ⟨rfl, rfl, rfl, 1000, by decide, rfl⟩
    let rest : List Message := [.createNetPlayers [⟨1, 2000, {}⟩], .createNetPlayer 1 2000 {}]
    rcases h E Mod.Engine.Table.Holds hE waitingClient hready firstAddress secondAddress [] rest []
      2 {} (by rw [hmessages]; rfl) (by decide) with ⟨client', hrun, hone⟩
    -- The simulation says which ids the client ends up with.
    rcases Fallible.run_cons_ok.1 hrun with ⟨started, hfirst, hrest⟩
    rcases hready.assign hE firstAddress 2 {} with ⟨started', hassigned, hfollows, hactive⟩
    have hsame : started = started' := by
      have hboth := (Mod.Session.update_packetFrom (E := E) hready.active
        (m := .createLocalNetPlayer 2 {}) trivial firstAddress).trans hassigned
      exact Except.ok.inj (hfirst.symm.trans hboth)
    subst hsame
    have hforeign : ∀ m ∈ rest, ∀ k, messageNote m ≠ some (.assign k) ∧
        (messageNote m = some (.destroy k) → (some 2 : Option Int32) ≠ some k) := by
      simp [rest, messageNote]
    have hcount : ∀ m ∈ rest, m.Countable ∧ (messageNote m).isSome = true := by
      simp [rest, messageNote, Message.Countable]
    rcases hfollows.handleAll hE hactive firstAddress hcount hforeign with
      ⟨client'', hrun', hfollows', _⟩
    obtain rfl : client' = client'' := Except.ok.inj (hrest.symm.trans hrun')
    have hids : client'.netPlayers.map Mod.NetPlayer.networkId = [1, 1] := hfollows'.ids
    have hdistinct := hone.distinct
    rw [hids] at hdistinct
    simp at hdistinct

end Repetition

end Server
end Crossover
