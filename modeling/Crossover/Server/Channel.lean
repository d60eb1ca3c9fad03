import Crossover.Lib.Listener
import Crossover.Server.Roster

/-!
# Channel — the messages an address receives in order

The reliable ordered messages to an address are its notes without the motion.  What they announce
and take back is read off the lobby the server keeps.
-/

namespace Crossover

namespace Wire
namespace Message

/-- The ids a message announces. -/
def announced : Message → List Int32
  | .createNetPlayer networkId _ _ => [networkId]
  | .createNetPlayers entries => entries.map RosterEntry.networkId
  | _ => []

/-- The message starts a client's session. -/
def isAssignment : Message → Bool
  | .createLocalNetPlayer _ _ => true
  | _ => false

/-- Behind this message its receiver does not know the id any more. -/
def Retires (networkId : Int32) (m : Message) : Prop :=
  m = .destroyNetPlayer networkId ∨ m.isAssignment = true

end Message
end Wire

namespace Server

open Wire History

/-- The messages sent reliable ordered to an address, in order. -/
def orderedMessages (address : SystemAddress) (calls : List PeerCall) : List Message :=
  (reliableOrderedTo address calls).filterMap Message.parse

/-- No message announces an id twice, and between two announcements of an id in one session of the
receiver there is the message that destroys it. -/
structure Separated (messages : List Message) : Prop where
  once : ∀ m ∈ messages, m.announced.Nodup
  between : ∀ before first between second after networkId,
    messages = before ++ first :: between ++ second :: after →
    networkId ∈ first.announced → networkId ∈ second.announced →
    ∃ m ∈ between, m.Retires networkId

/-! ## Messages and notes -/

section Bridge

variable {calls : List PeerCall} {a : SystemAddress}

theorem orderedMessages_append (calls more : List PeerCall) :
    orderedMessages a (calls ++ more) = orderedMessages a calls ++ orderedMessages a more := by
  simp [orderedMessages, reliableOrderedTo]

theorem orderedMessages_sendTo {m : Message} (hm : m.Countable) (b : SystemAddress) :
    orderedMessages a [m.sendTo b] =
      if b = a ∧ m.reliability = .reliableOrdered then [m] else [] := by
  by_cases hto : b = a ∧ m.reliability = .reliableOrdered
  · simp [orderedMessages, reliableOrderedTo, Message.sendTo, hto, hm.parse_bytes]
  · simp [orderedMessages, reliableOrderedTo, Message.sendTo, hto]

/-- The notes of the ordered messages are the notes that say something. -/
theorem notes_orderedMessages (h : ∀ call ∈ calls, SendsMessage call) (a : SystemAddress) :
    (orderedMessages a calls).filterMap messageNote =
      (Lobby.inbox (notes calls) a).filterMap Lobby.Note.spoken := by
  induction calls using List.reverseRecOn with
  | nil => rfl
  | append_singleton calls call ih =>
    have hcalls := ih fun c hc => h c (List.mem_append_left _ hc)
    rw [orderedMessages_append, notes_append, Lobby.inbox_append, List.filterMap_append,
      List.filterMap_append, hcalls]
    congr 1
    cases call with
    | send send =>
      rcases h (.send send) (by simp) send rfl with ⟨m, hm, heq, _⟩
      rw [heq, orderedMessages_sendTo hm]
      by_cases ha : send.address = a
      · cases m <;> simp [notes, note_sendTo hm, messageNote, Message.reliability, ha,
          Lobby.Note.spoken]
      · cases m <;> simp [notes, note_sendTo hm, messageNote, ha]
    | closeConnection address notification => rfl
    | shutdown blockDuration => rfl

/-- What parses out of a call was encoded by the server, and of its messages each has a note. -/
theorem SendsMessage.of_parse {send : Send} {m : Message} (h : SendsMessage (.send send))
    (hparse : Message.parse send.data = some m) : m.Countable ∧ (messageNote m).isSome = true := by
  rcases h send rfl with ⟨sent, hcountable, heq, hne⟩
  have hbytes : send.data = sent.bytes := by
    injection heq with heq
    exact congrArg Send.data heq
  rw [hbytes, hcountable.parse_bytes] at hparse
  obtain rfl := Option.some.inj hparse
  refine ⟨hcountable, ?_⟩
  cases sent with
  | connectionNotification => exact absurd rfl hne
  | _ => rfl

/-- Every ordered message is one the server can send. -/
theorem mem_orderedMessages (h : ∀ call ∈ calls, SendsMessage call) {m : Message}
    (hm : m ∈ orderedMessages a calls) : m.Countable ∧ (messageNote m).isSome = true := by
  rcases List.mem_filterMap.1 hm with ⟨data, hdata, hparse⟩
  rcases List.mem_filterMap.1 hdata with ⟨call, hcall, hsent⟩
  cases call with
  | send send =>
    simp only at hsent
    split at hsent
    · obtain rfl := Option.some.inj hsent
      exact (h (.send send) hcall).of_parse hparse
    · cases hsent
  | closeConnection address notification => cases hsent
  | shutdown blockDuration => cases hsent

theorem announced_messageNote {m : Message} {said : LobbyNote} (h : messageNote m = some said) :
    said.announced = m.announced := by
  cases m <;> cases h <;> simp [Lobby.Note.announced, Message.announced, Function.comp_def]

/-- What the notes of these messages tell: the ids announced and not retired since. -/
theorem mem_told_iff (messages : List Message) (k : Int32) :
    k ∈ Lobby.told (messages.filterMap messageNote) ↔
      Live (fun k m => k ∈ Message.announced m) (fun k m => m.Retires k) messages k := by
  induction messages using List.reverseRecOn with
  | nil => simp [not_live_nil]
  | append_singleton messages m ih =>
    rw [live_snoc, ← ih, List.filterMap_append, Lobby.told_append]
    cases m with
    | connectionNotification =>
      have hnone : [Message.connectionNotification].filterMap messageNote = [] := rfl
      simp [hnone, Message.announced, Message.Retires, Message.isAssignment]
    | destroyNetPlayer networkId =>
      have hcomm : (¬ k = networkId) ↔ ¬ networkId = k := not_congr eq_comm
      simp [messageNote, Lobby.hear, Message.announced, Message.Retires, Message.isAssignment,
        and_comm, hcomm]
    | _ =>
      simp [messageNote, Lobby.hear, Message.announced, Message.Retires, Message.isAssignment,
        and_comm, or_comm]

/-- The note announces nobody its receiver knows, nor anybody twice. -/
def FreshNote (before : List LobbyNote) (said : LobbyNote) : Prop :=
  said.announced.Nodup ∧ ∀ id ∈ said.announced, id ∉ Lobby.told before

/-- Freshness of the notes is separation of the messages. -/
theorem separated_iff (h : ∀ call ∈ calls, SendsMessage call) (a : SystemAddress) :
    Separated (orderedMessages a calls) ↔ Every FreshNote (Lobby.inbox (notes calls) a) := by
  -- A relayed note announces nobody, so leaving it out changes nothing.
  have hspoken : Every FreshNote (Lobby.inbox (notes calls) a) ↔
      Every FreshNote ((orderedMessages a calls).filterMap messageNote) := by
    rw [notes_orderedMessages h, every_filterMap]
    constructor
    · intro hfresh before note after hsplit said hsaid
      have hat := hfresh before note after hsplit
      cases note <;> cases hsaid <;>
        simpa only [FreshNote, Lobby.told_spoken] using hat
    · intro hfresh before note after hsplit
      have hat := hfresh before note after hsplit
      cases note with
      | relay id => exact ⟨List.nodup_nil, by simp [Lobby.Note.announced]⟩
      | _ => simpa only [FreshNote, Lobby.told_spoken] using hat _ rfl
  have hmessages : Every FreshNote ((orderedMessages a calls).filterMap messageNote) ↔
      (∀ m ∈ orderedMessages a calls, m.announced.Nodup) ∧
      Every (fun before m => ∀ k, k ∈ Message.announced m →
        ¬ Live (fun k m => k ∈ Message.announced m) (fun k m => m.Retires k) before k)
        (orderedMessages a calls) := by
    rw [every_filterMap]
    constructor
    · intro hfresh
      refine ⟨?_, ?_⟩
      · intro m hm
        rcases List.mem_iff_append.1 hm with ⟨before, after, hsplit⟩
        rcases Option.isSome_iff_exists.1 (mem_orderedMessages h hm).2 with ⟨said, hsaid⟩
        rw [← announced_messageNote hsaid]
        exact (hfresh before m after hsplit said hsaid).1
      · intro before m after hsplit k hk
        have hm : m ∈ orderedMessages a calls := by simp [hsplit]
        rcases Option.isSome_iff_exists.1 (mem_orderedMessages h hm).2 with ⟨said, hsaid⟩
        rw [← mem_told_iff]
        rw [← announced_messageNote hsaid] at hk
        exact (hfresh before m after hsplit said hsaid).2 k hk
    · rintro ⟨honce, hlive⟩ before m after hsplit said hsaid
      have hm : m ∈ orderedMessages a calls := by simp [hsplit]
      rw [FreshNote, announced_messageNote hsaid]
      refine ⟨honce m hm, ?_⟩
      intro k hk
      rw [mem_told_iff]
      exact hlive before m after hsplit k hk
  rw [hspoken, hmessages, every_not_live_iff]
  exact ⟨fun hs => ⟨hs.once, hs.between⟩, fun hs => ⟨hs.1, hs.2⟩⟩

end Bridge

/-! ## Runs -/

/-- What every run keeps about the receivers: the roster invariant, that every player's address
has been assigned its id last, and that nobody is announced to itself. -/
structure ChannelInv (config : Config) (s : RelayServer) (calls : List PeerCall) : Prop where
  roster : RosterInv config s calls
  owned : Lobby.Owned (members s.players) (notes calls)
  foreign : Lobby.Foreign (notes calls)

theorem ChannelInv.step {config : Config} {s : RelayServer} {calls : List PeerCall}
    (h : ChannelInv config s calls) (event : Event) :
    ChannelInv config (Server.step s event).1 (calls ++ (Server.step s event).2) := by
  have hstep := (stepsLobby_step h.roster.inv.table event).step
  refine ⟨h.roster.step event, ?_, ?_⟩
  · rw [notes_append]
    exact h.owned.step h.roster.agrees.wf hstep
  · rw [notes_append]
    exact h.foreign.step h.owned h.roster.agrees.wf hstep

theorem channelInv_run (config : Config) (nowMs : Int) (restored : Option Vec3)
    (events : List Event) :
    ChannelInv config (server.state (start config nowMs restored) events)
      (server.log (start config nowMs restored) events) := by
  refine Machine.run_invariant (I := fun _ s calls => ChannelInv config s calls) ?_ ?_ events
  · refine ⟨rosterInv_run config nowMs restored [], ?_, ?_⟩
    · intro m hm
      cases hm
    · intro a
      exact every_nil _
  · intro _ s calls event h
    exact h.step event

section Receivers

variable {config : Config} {s : RelayServer} {calls : List PeerCall}

/-- Every ordered message takes back an id its receiver knows. -/
theorem ChannelInv.every_known (h : ChannelInv config s calls) (a : SystemAddress) :
    Every (fun before said => ∀ k, said = .destroy k → k ∈ Lobby.told before)
      ((orderedMessages a calls).filterMap messageNote) := by
  rw [notes_orderedMessages h.roster.sends, every_filterMap]
  intro before note after hsplit said hsaid k hk
  subst hk
  have hmentioned : note.mentioned = some k := by
    cases note <;> cases hsaid
    rfl
  rw [Lobby.told_spoken]
  exact h.roster.sound a before note after hsplit k hmentioned

/-- With fresh notes the ordered messages never announce somebody to itself or to somebody who
knows it. -/
theorem ChannelInv.every_admits (h : ChannelInv config s calls)
    (hfresh : Lobby.Fresh (notes calls)) (a : SystemAddress) :
    Every Lobby.Listener.Admits ((orderedMessages a calls).filterMap messageNote) := by
  rw [notes_orderedMessages h.roster.sends, every_filterMap]
  intro before note after hsplit said hsaid
  have hsame : said.announced = note.announced := by
    cases note <;> cases hsaid <;> rfl
  have hnew := hfresh a before note after hsplit
  have hforeign := h.foreign a before note after hsplit
  rw [Lobby.Listener.Admits, hsame]
  refine ⟨hnew.1, ?_⟩
  intro id hid
  rw [Lobby.told_spoken, Lobby.Listener.after_spoken]
  exact ⟨hnew.2 id hid, hforeign id hid⟩

end Receivers

end Server
end Crossover
