import Crossover.Server.Channel
import Crossover.Server.Teardown

/-!
# Gate — nothing is sent to a client before it has spawned

The `spawned` flag is tested wherever the server addresses somebody other than the newcomer of a
join.  So an address hears its own assignment first, and nothing else until the server has handled
an `ID_CREATE_NET_PLAYER` from it.
-/

namespace Crossover
namespace Server

open Wire History

/-- Everything sent to an address, in order. -/
def messagesTo (address : SystemAddress) (calls : List PeerCall) : List Message :=
  calls.filterMap fun call =>
    match call with
    | .send send => if send.address = address then Message.parse send.data else none
    | _ => none

/-- The server processes an `ID_CREATE_NET_PLAYER` from an address: one of full length, from a
player that it knows, let through by the flood guard. -/
def CreateFrom (address : SystemAddress) (s : RelayServer) : Event → Prop
  | .packet packet tickMs _ =>
      packet.systemAddress = address ∧ packet.kind = .createNetPlayer ∧
        kSizeCreateNetPlayer ≤ packet.length ∧
        ∃ self, findByAddress s.players packet.systemAddress = some self ∧ RateAdmits self tickMs
  | _ => False

/-- The address is not used again after its connection has been lost. -/
def OneConnection (address : SystemAddress) (events : List Event) : Prop :=
  ∀ before drop after, events = before ++ drop :: after → DropFrom address drop →
    ∀ event ∈ after, ¬ JoinFrom address event

/-! ## Messages and notes -/

section Messages

variable {calls : List PeerCall} {a : SystemAddress}

theorem messagesTo_append (calls more : List PeerCall) :
    messagesTo a (calls ++ more) = messagesTo a calls ++ messagesTo a more := by
  simp [messagesTo]

/-- The notes to an address are the notes of the messages to it. -/
theorem notes_messagesTo (calls : List PeerCall) (a : SystemAddress) :
    (messagesTo a calls).filterMap messageNote = Lobby.inbox (notes calls) a := by
  induction calls with
  | nil => rfl
  | cons call calls ih =>
    have hsplit : notes (call :: calls) = notes [call] ++ notes calls := notes_append [call] calls
    have hmessages : messagesTo a (call :: calls) = messagesTo a [call] ++ messagesTo a calls :=
      messagesTo_append [call] calls
    rw [hsplit, hmessages, Lobby.inbox_append, List.filterMap_append, ih]
    congr 1
    -- Only a send is a message; it counts for the address it goes to, if it parses.
    cases call with
    | send send =>
      by_cases ha : send.address = a
      · cases hparse : Message.parse send.data with
        | none => simp [messagesTo, notes, note, ha, hparse]
        | some m =>
          cases hsaid : messageNote m <;>
            simp [messagesTo, notes, note, ha, hparse, hsaid]
      · cases hsaid : (Message.parse send.data).bind messageNote <;>
          simp [messagesTo, notes, note, ha, hsaid]
    | closeConnection address notification => rfl
    | shutdown blockDuration => rfl

theorem mem_messagesTo (h : ∀ call ∈ calls, SendsMessage call) {m : Message}
    (hm : m ∈ messagesTo a calls) :
    ∃ said, messageNote m = some said ∧ (a, said) ∈ notes calls := by
  have hsome : (messageNote m).isSome = true := by
    rcases List.mem_filterMap.1 hm with ⟨call, hcall, hsent⟩
    cases call with
    | send send =>
      simp only at hsent
      split at hsent
      · exact ((h (.send send) hcall).of_parse hsent).2
      · cases hsent
    | closeConnection address notification => cases hsent
    | shutdown blockDuration => cases hsent
  rcases Option.isSome_iff_exists.1 hsome with ⟨said, hsaid⟩
  refine ⟨said, hsaid, Lobby.mem_inbox.1 ?_⟩
  rw [← notes_messagesTo]
  exact List.mem_filterMap.2 ⟨m, hm, hsaid⟩

theorem isAssignment_of_note {m : Message} {k : Int32} (h : messageNote m = some (.assign k)) :
    ∃ position, m = .createLocalNetPlayer k position := by
  cases m <;> cases h
  exact ⟨_, rfl⟩

end Messages

/-! ## One step -/

section Steps

variable {config : Config} {s : RelayServer} {event : Event}

/-- What a handled packet does to the lobby, it does to its sender. -/
theorem sender_of_act (hinv : TableInv s) {packet : Packet} {tickMs : Int}
    {m : LobbyMember} (hm : m ∈ members s.players) {self : Player}
    (hself : findByAddress (s.bookkeep packet tickMs).1.players packet.systemAddress = some self)
    (hid : self.networkId = m.id) : packet.systemAddress = m.addr := by
  have hmem : self.member ∈ members s.players := by
    rw [← members_bookkeep s packet tickMs]
    exact List.mem_map_of_mem (findByAddress_mem hself)
  rcases List.mem_map.1 hm with ⟨p, hp, rfl⟩
  rcases List.mem_map.1 hmem with ⟨q, hq, hqself⟩
  have hqid : q.networkId = p.networkId := (congrArg Lobby.Member.id hqself).trans hid
  have hsame := hinv.eq_of_networkId hq hp hqid
  have haddr : q.address = self.address := congrArg Lobby.Member.addr hqself
  rw [← findByAddress_address hself, ← haddr, hsame]
  rfl

/-- Only a long enough `ID_CREATE_NET_PLAYER` of a known player announces. -/
theorem createFrom_of_act (hinv : TableInv s) {m : LobbyMember} (hm : m ∈ members s.players)
    {info : Int32} (h : act s event = .announce m.id info) : CreateFrom m.addr s event := by
  generalize hid : m.id = id at h
  have hwhy := acted s event
  rw [h] at hwhy
  cases hwhy with
  | @packet packet tickMs handlerMs _ peer accepted dispatched =>
    cases dispatched with
    | announce known kind long =>
      rcases exists_of_find_bookkeep known with ⟨p, hfind, _⟩
      rw [bookkeep_of_find hfind] at accepted
      exact ⟨sender_of_act hinv hm known hid.symm, kind, long, p, hfind,
        (account_accepts p tickMs).1 accepted⟩

/-- Only a lost connection takes a player away. -/
theorem dropFrom_of_act (hinv : TableInv s) {m : LobbyMember} (hm : m ∈ members s.players)
    (h : act s event = .leave m.id) : DropFrom m.addr event := by
  generalize hid : m.id = id at h
  have hwhy := acted s event
  rw [h] at hwhy
  cases hwhy with
  | packet peer accepted dispatched =>
    cases dispatched with
    | leave known kind => exact ⟨sender_of_act hinv hm known hid.symm, kind⟩

/-- Nothing closes the lobby but `Stop`. -/
theorem peer_of_close (h : act s event = .close) : (step s event).1.peer = false := by
  have hwhy := acted s event
  rw [h] at hwhy
  cases hwhy with
  | packet peer accepted dispatched => cases dispatched
  | stop writable peer => simp [step, peer, RelayServer.stop]

theorem mem_members {players : List Player} {m : LobbyMember} (hm : m ∈ members players) :
    ∃ p ∈ players, p.member = m :=
  List.mem_map.1 hm

/-- A step tells an address its assignment, or the address belongs to a player that has spawned or
spawns in this step. -/
theorem told_step (hinv : TableInv s) {a : SystemAddress} {m : Message}
    (hm : m ∈ messagesTo a (step s event).2) :
    (m.isAssignment = true ∧ ∃ id info, act s event = .join a id info) ∨
      ∃ p ∈ s.players, p.address = a ∧ (p.spawned = true ∨ CreateFrom a s event) := by
  have hsteps := stepsLobby_step hinv event
  rcases mem_messagesTo hsteps.sends hm with ⟨said, hsaid, hnote⟩
  rcases hsteps.step.told_of_mem hnote with ⟨id, info, hact, hassign⟩ | ⟨q, hq, haddr, hwhy⟩
  · rw [hassign] at hsaid
    rcases isAssignment_of_note hsaid with ⟨position, rfl⟩
    exact Or.inl ⟨rfl, id, info, hact⟩
  · rcases mem_members hq with ⟨p, hp, rfl⟩
    right
    refine ⟨p, hp, haddr, ?_⟩
    rcases hwhy with hpresent | ⟨info, hact⟩
    · exact Or.inl hpresent
    · have hfrom := createFrom_of_act hinv hq hact
      exact Or.inr (haddr ▸ hfrom)

/-- A player that has spawned had spawned before the step or spawns in it. -/
theorem spawned_step (hinv : TableInv s) {p : Player} (hp : p ∈ (step s event).1.players)
    (hspawned : p.spawned = true) :
    ∃ q ∈ s.players, q.address = p.address ∧ (q.spawned = true ∨ CreateFrom p.address s event) := by
  have hsteps := stepsLobby_step hinv event
  have hmem : p.member ∈ members (step s event).1.players := List.mem_map_of_mem hp
  rcases hsteps.step.present_of_mem hmem hspawned with ⟨m, hm, haddr, hwhy⟩
  rcases mem_members hm with ⟨q, hq, rfl⟩
  refine ⟨q, hq, haddr, ?_⟩
  rcases hwhy with hpresent | ⟨info, hact⟩
  · exact Or.inl hpresent
  · have hfrom := createFrom_of_act hinv hm hact
    have hsame : q.member.addr = p.address := haddr
    exact Or.inr (hsame ▸ hfrom)

end Steps

/-! ## Runs -/

section Runs

variable {config : Config} {nowMs : Int} {restored : Option Vec3}

/-- A player's address has been sent something. -/
theorem ChannelInv.told {s : RelayServer} {calls : List PeerCall} (h : ChannelInv config s calls)
    {p : Player} (hp : p ∈ s.players) : messagesTo p.address calls ≠ [] := by
  intro hnil
  have hown := h.owned p.member (List.mem_map_of_mem hp)
  have hempty : Lobby.inbox (notes calls) p.member.addr = [] := by
    rw [← notes_messagesTo]
    exact (congrArg _ hnil : _)
  rw [hempty] at hown
  cases hown

/-- The first message to any address is an assignment. -/
theorem first_message (config : Config) (nowMs : Int) (restored : Option Vec3)
    (events : List Event) (a : SystemAddress) {m : Message} {rest : List Message}
    (h : messagesTo a (server.log (start config nowMs restored) events) = m :: rest) :
    m.isAssignment = true := by
  induction events using List.reverseRecOn generalizing m rest with
  | nil => cases h
  | append_singleton events event ih =>
    have hinv := channelInv_run config nowMs restored events
    rw [Machine.log_snoc, messagesTo_append] at h
    cases hbefore : messagesTo a (server.log (start config nowMs restored) events) with
    | cons first more =>
      rw [hbefore] at h
      obtain rfl := (List.cons.inj h).1
      exact ih hbefore
    | nil =>
      rw [hbefore, List.nil_append, server_step] at h
      have hm : m ∈ messagesTo a (step (server.state (start config nowMs restored) events)
          event).2 := by simp [h]
      rcases told_step hinv.roster.inv.table hm with ⟨hassign, _⟩ | ⟨p, hp, haddr, _⟩
      · exact hassign
      · exact absurd (haddr ▸ hbefore) (hinv.told hp)

/-- What an address that has not spawned has been sent. -/
def HeldBack (a : SystemAddress) (events : List Event) (s : RelayServer) (calls : List PeerCall) :
    Prop :=
  (messagesTo a calls = [] ∧ ∀ p ∈ s.players, p.address ≠ a) ∨
    (∃ id position, messagesTo a calls = [.createLocalNetPlayer id position]) ∧
      (∀ p ∈ s.players, p.address = a → p.spawned = false) ∧
      ((∃ p ∈ s.players, p.address = a) ∨ (∃ event ∈ events, DropFrom a event) ∨ s.peer = false)

section HeldBack

variable {s : RelayServer} {calls : List PeerCall} {events : List Event} {event : Event}
  {a : SystemAddress}

/-- The only note of a join is the assignment. -/
theorem messages_of_join (hinv : ChannelInv config s calls) {id info : Int32}
    (hact : act s event = .join a id info) :
    ∃ id position, messagesTo a (step s event).2 = [.createLocalNetPlayer id position] := by
  have hsteps := stepsLobby_step hinv.roster.inv.table event
  have hstep := hsteps.step
  rw [hact] at hstep
  have hnotes : (messagesTo a (step s event).2).filterMap messageNote = [.assign id] := by
    rw [notes_messagesTo, hstep.of_join.1]
    simp
  have hall : ∀ m ∈ messagesTo a (step s event).2, ∃ said, messageNote m = some said := by
    intro m hm
    rcases mem_messagesTo hsteps.sends hm with ⟨said, hsaid, _⟩
    exact ⟨said, hsaid⟩
  generalize messagesTo a (step s event).2 = messages at hnotes hall
  cases messages with
  | nil => cases hnotes
  | cons m rest =>
    rcases hall m List.mem_cons_self with ⟨said, hsaid⟩
    rw [List.filterMap_cons, hsaid] at hnotes
    rcases List.cons.inj hnotes with ⟨rfl, hrest⟩
    rcases isAssignment_of_note hsaid with ⟨position, rfl⟩
    cases rest with
    | nil => exact ⟨id, position, rfl⟩
    | cons m' rest =>
      rcases hall m' (by simp) with ⟨said', hsaid'⟩
      rw [List.filterMap_cons, hsaid'] at hrest
      cases hrest

/-- An address that nobody has used yet joins. -/
theorem heldBack_join (hinv : ChannelInv config s calls) (hnil : messagesTo a calls = [])
    (hnone : ∀ p ∈ s.players, p.address ≠ a) {id info : Int32}
    (hact : act s event = .join a id info) :
    HeldBack a events (step s event).1 (calls ++ (step s event).2) := by
  have hstep := (stepsLobby_step hinv.roster.inv.table event).step
  rw [hact] at hstep
  rcases hstep.of_join with ⟨_, htable, _⟩
  rcases messages_of_join hinv hact with ⟨id', position, hmessages⟩
  refine Or.inr ⟨⟨id', position, by rw [messagesTo_append, hnil, hmessages]; rfl⟩, ?_, Or.inl ?_⟩
  · intro p hp haddr
    cases hspawned : p.spawned with
    | false => rfl
    | true =>
      rcases spawned_step hinv.roster.inv.table hp hspawned with ⟨q, hq, hqaddr, _⟩
      exact absurd (hqaddr.trans haddr) (hnone q hq)
  · have hmem : { addr := a, id := id, present := false, info := info } ∈
        members (step s event).1.players := by
      rw [htable]
      simp
    rcases mem_members hmem with ⟨p, hp, hpm⟩
    exact ⟨p, hp, congrArg Lobby.Member.addr hpm⟩

/-- An address that nobody uses is sent nothing. -/
theorem heldBack_nobody (hinv : ChannelInv config s calls) (hnil : messagesTo a calls = [])
    (hnone : ∀ p ∈ s.players, p.address ≠ a) (hjoin : ¬ ∃ id info, act s event = .join a id info) :
    HeldBack a events (step s event).1 (calls ++ (step s event).2) := by
  have hsteps := stepsLobby_step hinv.roster.inv.table event
  refine Or.inl ⟨?_, ?_⟩
  · rw [messagesTo_append, hnil, List.nil_append, List.eq_nil_iff_forall_not_mem]
    intro m hm
    rcases told_step hinv.roster.inv.table hm with ⟨_, hact⟩ | ⟨p, hp, haddr, _⟩
    · exact hjoin hact
    · exact hnone p hp haddr
  · intro p hp haddr
    rcases hsteps.step.addr_of_mem (address_mem_members.2 ⟨p, hp, haddr⟩) with hold | hact
    · rcases address_mem_members.1 hold with ⟨q, hq, hqaddr⟩
      exact hnone q hq hqaddr
    · exact hjoin hact

/-- A player who has not spawned is sent nothing more. -/
theorem messagesTo_unspawned (hinv : ChannelInv config s calls)
    (hunspawned : ∀ p ∈ s.players, p.address = a → p.spawned = false)
    (hcreate : ¬ CreateFrom a s event) (hjoin : ¬ ∃ id info, act s event = .join a id info) :
    messagesTo a (step s event).2 = [] := by
  rw [List.eq_nil_iff_forall_not_mem]
  intro m hm
  rcases told_step hinv.roster.inv.table hm with ⟨_, hact⟩ | ⟨p, hp, haddr, hwhy⟩
  · exact hjoin hact
  · rcases hwhy with hspawned | hfrom
    · rw [hunspawned p hp haddr] at hspawned
      cases hspawned
    · exact hcreate hfrom

/-- He spawns with an `ID_CREATE_NET_PLAYER` only. -/
theorem unspawned_step (hinv : ChannelInv config s calls)
    (hunspawned : ∀ p ∈ s.players, p.address = a → p.spawned = false)
    (hcreate : ¬ CreateFrom a s event) :
    ∀ p ∈ (step s event).1.players, p.address = a → p.spawned = false := by
  intro p hp haddr
  cases hspawned : p.spawned with
  | false => rfl
  | true =>
    rcases spawned_step hinv.roster.inv.table hp hspawned with ⟨q, hq, hqaddr, hwhy⟩
    rcases hwhy with hqspawned | hfrom
    · rw [hunspawned q hq (hqaddr.trans haddr)] at hqspawned
      cases hqspawned
    · exact absurd (haddr ▸ hfrom) hcreate

/-- He is in the table until he is dropped or the server closes. -/
theorem whereabouts_step (hinv : ChannelInv config s calls)
    (hwhere : (∃ p ∈ s.players, p.address = a) ∨ (∃ event ∈ events, DropFrom a event) ∨
      s.peer = false) :
    (∃ p ∈ (step s event).1.players, p.address = a) ∨
      (∃ event' ∈ events ++ [event], DropFrom a event') ∨ (step s event).1.peer = false := by
  have hsteps := stepsLobby_step hinv.roster.inv.table event
  rcases hwhere with ⟨p, hp, haddr⟩ | ⟨dropped, hmem, hdropped⟩ | hpeer
  · by_cases hstill : ∃ q ∈ (step s event).1.players, q.address = a
    · exact Or.inl hstill
    · right
      have hgone : ∀ q ∈ members (step s event).1.players, q.addr ≠ p.member.addr := by
        intro q hq heq
        rcases mem_members hq with ⟨r, hr, rfl⟩
        exact hstill ⟨r, hr, heq.trans haddr⟩
      rcases hsteps.step.gone (List.mem_map_of_mem hp) hgone with ⟨q, hq, hact, hid⟩ | hact
      · have hsame := hinv.roster.agrees.wf.eq_of_id hq (List.mem_map_of_mem hp) hid
        have hdrop := dropFrom_of_act hinv.roster.inv.table hq hact
        rw [hsame] at hdrop
        have hpa : p.member.addr = a := haddr
        exact Or.inl ⟨event, by simp, hpa ▸ hdrop⟩
      · exact Or.inr (peer_of_close hact)
  · exact Or.inr (Or.inl ⟨dropped, by simp [hmem], hdropped⟩)
  · refine Or.inr (Or.inr ?_)
    simp [step, hpeer]

theorem heldBack_step (hinv : ChannelInv config s calls) (h : HeldBack a events s calls)
    (hcreate : ¬ CreateFrom a s event)
    (hfresh : (∃ event ∈ events, DropFrom a event) → ¬ JoinFrom a event) :
    HeldBack a (events ++ [event]) (step s event).1 (calls ++ (step s event).2) := by
  rcases h with ⟨hnil, hnone⟩ | ⟨⟨id, position, hone⟩, hunspawned, hwhere⟩
  · by_cases hjoin : ∃ id info, act s event = .join a id info
    · rcases hjoin with ⟨id, info, hact⟩
      exact heldBack_join hinv hnil hnone hact
    · exact heldBack_nobody hinv hnil hnone hjoin
  · have hnojoin : ¬ ∃ id info, act s event = .join a id info := by
      rintro ⟨id', info, hact⟩
      rcases hwhere with ⟨p, hp, haddr⟩ | hdropped | hpeer
      · have hstep := (stepsLobby_step hinv.roster.inv.table event).step
        rw [hact] at hstep
        exact hstep.of_join.2.2 p.member (List.mem_map_of_mem hp) haddr
      · exact hfresh hdropped (joinFrom_of_act hact)
      · simp [act, hpeer] at hact
    have hquiet := messagesTo_unspawned hinv hunspawned hcreate hnojoin
    refine Or.inr ⟨⟨id, position, ?_⟩, unspawned_step hinv hunspawned hcreate,
      whereabouts_step hinv hwhere⟩
    rw [messagesTo_append, hone, hquiet, List.append_nil]

end HeldBack

/-- As long as the server has not processed an `ID_CREATE_NET_PLAYER` from an address that is used
for one connection, the assignment is all that it has been sent. -/
theorem heldBack_run (config : Config) (nowMs : Int) (restored : Option Vec3)
    (events : List Event) (a : SystemAddress)
    (hcreate : server.StepsSatisfy (fun s event => ¬ CreateFrom a s event)
      (start config nowMs restored) events)
    (hone : OneConnection a events) :
    HeldBack a events (server.state (start config nowMs restored) events)
      (server.log (start config nowMs restored) events) := by
  induction events using List.reverseRecOn with
  | nil =>
    refine Or.inl ⟨rfl, ?_⟩
    intro p hp
    cases hp
  | append_singleton events event ih =>
    have hinv := channelInv_run config nowMs restored events
    rcases (Machine.stepsSatisfy_snoc server).1 hcreate with ⟨hcreates, hlast⟩
    -- A drop in the shorter run has the same events behind it, and one more.
    have hbefore : OneConnection a events := by
      intro before drop after hsplit hdrop e he
      exact hone before drop (after ++ [event]) (by simp [hsplit]) hdrop e (by simp [he])
    rw [Machine.log_snoc, Machine.state_snoc, server_step]
    refine heldBack_step hinv (ih hcreates hbefore) hlast ?_
    -- After the loss of its only connection the address sends nothing any more.
    rintro ⟨drop, hmem, hdrop⟩
    rcases List.mem_iff_append.1 hmem with ⟨before, after, hsplit⟩
    exact hone before drop (after ++ [event]) (by simp [hsplit]) hdrop event (by simp)

end Runs

end Server
end Crossover
