import Crossover.Lib.Listener
import Crossover.Mod.Effects
import Crossover.Server.Roster
import Crossover.System.WireFormat

/-!
# Client — a mod client is a listener

As long as the game keeps its laws, a session of the mod that handles the messages of a server
holds exactly the players that a listener of the messages' notes holds, each with a creature of the
announced definition.  `Follows` is the relation and `Follows.receive` the simulation step.
-/

namespace Crossover
namespace Mod
namespace Session

open Wire Server

variable {σ : Type}

abbrev LobbyListener := Lobby.Listener Int32 Int32

/-- The net players are the listener's entries, in order, with the creatures announced. -/
def HoldsEntry (Holds : σ → Int → Int32 → Prop) (engine : σ) (netPlayer : NetPlayer)
    (entry : Int32 × Int32) : Prop :=
  netPlayer.networkId = entry.1 ∧ Holds engine netPlayer.localId entry.2

/-- The session holds what its listener holds. -/
structure Follows (Holds : σ → Int → Int32 → Prop) (s : Session σ) (l : LobbyListener) :
    Prop where
  localNetPlayer : ∃ p d, s.localNetPlayer = some p ∧ l.own = some p.networkId ∧
    Holds s.engine p.localId d
  netPlayers : List.Forall₂ (HoldsEntry Holds s.engine) s.netPlayers l.table
  localIds : s.localIds.Nodup

/-- A session that has connected and waits for its id; the game has a hero for local id 0. -/
structure Ready (Holds : σ → Int → Int32 → Prop) (s : Session σ) : Prop where
  active : s.network.active = true
  localNetPlayer : s.localNetPlayer = none
  netPlayers : s.netPlayers = []
  hero : ∃ d, Holds s.engine 0 d

/-! ## The vector and the table -/

section Vectors

variable {Holds : σ → Int → Int32 → Prop} {engine : σ}

theorem forall₂_of_mem {A B : Type} {R S : A → B → Prop} {as : List A} {bs : List B}
    (h : List.Forall₂ R as bs) (himp : ∀ a ∈ as, ∀ b, R a b → S a b) : List.Forall₂ S as bs := by
  induction h with
  | nil => exact .nil
  | cons hfirst _ ih =>
    refine .cons (himp _ List.mem_cons_self _ hfirst) (ih ?_)
    intro a ha b
    exact himp a (List.mem_cons_of_mem _ ha) b

theorem exists_of_forall₂ {A B : Type} {R : A → B → Prop} {as : List A} {bs : List B}
    (h : List.Forall₂ R as bs) {a : A} (ha : a ∈ as) : ∃ b, R a b := by
  induction h with
  | nil => cases ha
  | @cons x b as bs hfirst _ ih =>
    rcases List.mem_cons.1 ha with hx | hrest
    · exact ⟨b, hx ▸ hfirst⟩
    · exact ih hrest

theorem map_networkId {netPlayers : List NetPlayer} {table : List (Int32 × Int32)}
    (h : List.Forall₂ (HoldsEntry Holds engine) netPlayers table) :
    netPlayers.map NetPlayer.networkId = table.map Prod.fst := by
  induction h with
  | nil => rfl
  | cons hfirst _ ih => simp [hfirst.1, ih]

/-- Erasing the first entry for an id on both sides. -/
theorem forall₂_erase {netPlayers : List NetPlayer} {table : List (Int32 × Int32)}
    (h : List.Forall₂ (HoldsEntry Holds engine) netPlayers table) (k : Int32) :
    List.Forall₂ (HoldsEntry Holds engine) (eraseNetPlayer k netPlayers)
      (table.eraseP fun entry => decide (entry.1 = k)) := by
  induction h with
  | nil => exact .nil
  | @cons netPlayer entry rest entries hfirst hrest ih =>
    by_cases hk : netPlayer.networkId = k
    · have hentry : entry.1 = k := hfirst.1.symm.trans hk
      simpa [eraseNetPlayer, hk, hentry] using hrest
    · have hentry : ¬ entry.1 = k := fun heq => hk (hfirst.1.trans heq)
      have hboth := List.Forall₂.cons hfirst ih
      simpa [eraseNetPlayer, hk, hentry] using hboth

/-- The entry a lookup finds is the one an erasure drops. -/
theorem eraseNetPlayer_of_find {netPlayers : List NetPlayer} {k : Int32} {netPlayer : NetPlayer}
    (h : netPlayers.find? (fun p => p.networkId == k) = some netPlayer) :
    ∃ before after, netPlayers = before ++ netPlayer :: after ∧
      eraseNetPlayer k netPlayers = before ++ after := by
  rcases List.find?_eq_some_iff_append.1 h with ⟨hk, before, after, hsplit, hbefore⟩
  refine ⟨before, after, hsplit, ?_⟩
  rw [hsplit, eraseNetPlayer, List.eraseP_append_right _ (by simpa using hbefore)]
  simp [hk]

/-- Without an entry for the id there is nothing to erase. -/
theorem eraseNetPlayer_of_not_mem {netPlayers : List NetPlayer} {k : Int32}
    (h : k ∉ netPlayers.map NetPlayer.networkId) : eraseNetPlayer k netPlayers = netPlayers := by
  apply List.eraseP_of_forall_not
  intro p hp heq
  exact h (List.mem_map.2 ⟨p, hp, by simpa using heq⟩)

end Vectors

namespace Follows

variable {E : Engine σ} {Holds : σ → Int → Int32 → Prop} {s : Session σ} {l : LobbyListener}

theorem ids (h : Follows Holds s l) : s.netPlayers.map NetPlayer.networkId = l.ids :=
  map_networkId h.netPlayers

theorem isSome (h : Follows Holds s l) : s.localNetPlayer.isSome = true := by
  rcases h.localNetPlayer with ⟨p, _, hp, _⟩
  rw [hp]
  rfl

/-- The lookup of an id that is not the own one. -/
theorem lookup (h : Follows Holds s l) {k : Int32} (hown : l.own ≠ some k) :
    s.getLocalIdFromNetworkId k =
      match s.netPlayers.find? fun p => p.networkId == k with
      | some netPlayer => netPlayer.localId
      | none => -1 := by
  rcases h.localNetPlayer with ⟨p, _, hp, hid, _⟩
  have hne : p.networkId ≠ k := fun heq => hown (heq ▸ hid)
  cases hfind : s.netPlayers.find? fun p => p.networkId == k <;>
    simp [getLocalIdFromNetworkId, hp, hne, hfind]

theorem find_eq_none (h : Follows Holds s l) {k : Int32} (hk : k ∉ l.ids) :
    s.netPlayers.find? (fun p => p.networkId == k) = none := by
  rw [List.find?_eq_none]
  intro p hp heq
  exact hk (h.ids ▸ List.mem_map.2 ⟨p, hp, by simpa using heq⟩)

theorem find_isSome (h : Follows Holds s l) {k : Int32} (hk : k ∈ l.ids) :
    ∃ netPlayer, s.netPlayers.find? (fun p => p.networkId == k) = some netPlayer := by
  rw [← h.ids] at hk
  rcases List.mem_map.1 hk with ⟨p, hp, hid⟩
  exact Option.isSome_iff_exists.1 (List.find?_isSome.2 ⟨p, hp, by simpa using hid⟩)

/-- A player held has its creature in the game. -/
theorem held (h : Follows Holds s l) {netPlayer : NetPlayer} (hmem : netPlayer ∈ s.netPlayers) :
    ∃ d, Holds s.engine netPlayer.localId d := by
  rcases exists_of_forall₂ h.netPlayers hmem with ⟨entry, hentry⟩
  exact ⟨entry.2, hentry.2⟩

/-- The relation is about the players and the game only. -/
theorem congr (h : Follows Holds s l) {s' : Session σ}
    (hlocal : s'.localNetPlayer = s.localNetPlayer) (hnet : s'.netPlayers = s.netPlayers)
    (hengine : s'.engine = s.engine) : Follows Holds s' l := by
  refine ⟨?_, ?_, ?_⟩
  · rw [hlocal, hengine]
    exact h.localNetPlayer
  · rw [hnet, hengine]
    exact h.netPlayers
  · rw [Session.localIds, hlocal, hnet]
    exact h.localIds

/-! ## One message -/

/-- The simulation step has a result like this. -/
def Keeps (Holds : σ → Int → Int32 → Prop) (s : Session σ) (l : LobbyListener)
    (result : Except Fault (Session σ)) : Prop :=
  ∃ s', result = .ok s' ∧ Follows Holds s' l ∧ s'.network = s.network

/-- A creation appends an entry on both sides. -/
theorem create (hE : E.Lawful Holds) (h : Follows Holds s l) (k d : Int32) (position : Vec3) :
    Keeps Holds s (l.hear (.create k d)) (s.createNetPlayer E k position d) := by
  rcases createNetPlayer_ok E h.isSome k position d with ⟨s', hok⟩
  rcases createNetPlayer_cases hok with ⟨hlocal, hnetwork, ⟨hnone, _⟩ | ⟨player, hplayer, hengine,
    _, hadded⟩⟩
  · rcases hE.created s.engine s.getFreeLocalId s.getFreeLocalId_nonneg with ⟨player, hplayer⟩
    rw [newPlayer, hplayer] at hnone
    cases hnone
  · have hfree := s.getFreeLocalId_not_mem
    -- The new creature takes no local id that is in use.
    have hother : ∀ i ∈ s.localIds, ∀ d', Holds s.engine i d' → Holds s'.engine i d' := by
      intro i hi d' hheld
      rw [hengine]
      exact hE.spawned_other s.engine _ d position player hplayer i d'
        (fun heq => hfree (heq ▸ hi)) hheld
    have hnew : Holds s'.engine s.getFreeLocalId d := by
      rw [hengine]
      exact hE.spawned s.engine _ d position player hplayer
    refine ⟨s', hok, ⟨?_, ?_, ?_⟩, hnetwork⟩
    · rcases h.localNetPlayer with ⟨p, d', hp, hown, hheld⟩
      refine ⟨p, d', hlocal.trans hp, hown, hother _ ?_ d' hheld⟩
      simp [Session.localIds, hp]
    · rw [hadded]
      refine List.rel_append ?_ (.cons ⟨rfl, hnew⟩ .nil)
      refine forall₂_of_mem h.netPlayers ?_
      intro p hp entry hentry
      exact ⟨hentry.1, hother _ (List.mem_append_right _ (List.mem_map_of_mem hp)) _ hentry.2⟩
    · have hids : s'.localIds = s.localIds ++ [s.getFreeLocalId] := by
        simp [Session.localIds, hlocal, hadded]
      rw [hids]
      simpa using List.Nodup.concat hfree h.localIds

/-- A roster entry is added on both sides or on neither. -/
theorem addNew (hE : E.Lawful Holds) (h : Follows Holds s l) (k d : Int32) (position : Vec3) :
    Keeps Holds s (l.addNew (k, d)) (s.createNetPlayers E k position d) := by
  rcases h.localNetPlayer with ⟨p, d', hp, hown, hheld⟩
  have hskip : Keeps Holds s l (.ok s) := ⟨s, rfl, h, rfl⟩
  simp only [createNetPlayers, hp, Lobby.Listener.addNew, hown]
  by_cases hself : p.networkId = k
  · simpa [hself] using hskip
  · have hnot : l.own ≠ some k := by simpa [hown] using hself
    have hself' : ¬ k = p.networkId := fun heq => hself heq.symm
    by_cases hk : k ∈ l.ids
    · rcases h.find_isSome hk with ⟨netPlayer, hfind⟩
      have hlookup := h.lookup hnot
      simp only [hfind] at hlookup
      rcases h.held (List.mem_of_find?_eq_some hfind) with ⟨d'', hentry⟩
      rcases hE.lookup _ _ _ hentry with ⟨player, _, hplayer, _⟩
      have hne : netPlayer.localId ≠ -1 := by
        intro heq
        rw [heq, hE.getPlayer_neg] at hplayer
        cases hplayer
      simpa [hk, hlookup, hne] using hskip
    · have hlookup := h.lookup hnot
      simp only [h.find_eq_none hk] at hlookup
      have hcreated := h.create hE k d position
      simpa [hself, hself', hk, hlookup, Lobby.Listener.hear, hown] using hcreated

/-- A removal drops an entry on both sides or finds nobody on both. -/
theorem destroy (hE : E.Lawful Holds) (h : Follows Holds s l) {k : Int32}
    (hown : l.own ≠ some k) :
    Keeps Holds s (l.hear (.destroy k)) (s.destroyNetPlayer E k) := by
  rcases destroyNetPlayer_ok E h.isSome k with ⟨s', hok⟩
  have hlookup := h.lookup hown
  have herase := forall₂_erase h.netPlayers k
  by_cases hk : k ∈ l.ids
  · rcases h.find_isSome hk with ⟨netPlayer, hfind⟩
    simp only [hfind] at hlookup
    have hmem := List.mem_of_find?_eq_some hfind
    rcases h.held hmem with ⟨d, hheld⟩
    rcases hE.lookup _ _ _ hheld with ⟨player, creature, hplayer, hcreature, _⟩
    rcases destroyNetPlayer_cases hok with ⟨hnone, _⟩ | ⟨player', hplayer', hlocal, hnetwork,
      hnet, hengine⟩
    · simp [getCreatureFromNetworkId, getCreatureFromLocalId, hlookup, hplayer, hcreature]
        at hnone
    · have hsame : player' = player := by
        rw [hlookup, hplayer] at hplayer'
        exact (Option.some.inj hplayer').symm
      rcases eraseNetPlayer_of_find hfind with ⟨before, after, hsplit, herased⟩
      have hnodup := h.localIds
      simp only [Session.localIds, hsplit, List.map_append, List.map_cons] at hnodup
      -- Everybody else has another local id.
      have hother : ∀ i, i ≠ netPlayer.localId → ∀ d', Holds s.engine i d' →
          Holds s'.engine i d' := by
        intro i hne d' hheld'
        rw [hengine, engineWithout, hsame]
        exact hE.removed_other s.engine _ d player hheld hplayer i d' hne hheld'
      have hperm : (s.localNetPlayer.toList.map LocalNetPlayer.localId ++
          (before.map NetPlayer.localId ++ netPlayer.localId :: after.map NetPlayer.localId)).Perm
          (netPlayer.localId :: (s.localNetPlayer.toList.map LocalNetPlayer.localId ++
            (before.map NetPlayer.localId ++ after.map NetPlayer.localId))) := by
        rw [← List.append_assoc, ← List.append_assoc]
        exact List.perm_middle
      have hrest := List.nodup_cons.1 (hperm.nodup_iff.1 hnodup)
      refine ⟨s', hok, ⟨?_, ?_, ?_⟩, hnetwork⟩
      · rcases h.localNetPlayer with ⟨p, d', hp, hid, hheld'⟩
        refine ⟨p, d', hlocal.trans hp, hid, hother _ ?_ d' hheld'⟩
        intro heq
        exact hrest.1 (by simp [hp, heq])
      · rw [hnet]
        refine forall₂_of_mem herase ?_
        intro p hp entry hentry
        refine ⟨hentry.1, hother _ ?_ _ hentry.2⟩
        intro heq
        rw [herased] at hp
        refine hrest.1 (List.mem_append_right _ ?_)
        rw [← List.map_append, ← heq]
        exact List.mem_map_of_mem hp
      · have hids : s'.localIds = s.localNetPlayer.toList.map LocalNetPlayer.localId ++
            (before.map NetPlayer.localId ++ after.map NetPlayer.localId) := by
          simp [Session.localIds, hlocal, hnet, herased]
        rw [hids]
        exact hrest.2
  · simp only [h.find_eq_none hk] at hlookup
    have hsame : s' = s := by
      rcases destroyNetPlayer_cases hok with ⟨_, hsame⟩ | ⟨player, hplayer, _⟩
      · exact hsame
      · rw [hlookup, hE.getPlayer_neg] at hplayer
        cases hplayer
    have hkept : eraseNetPlayer k s.netPlayers = s.netPlayers :=
      eraseNetPlayer_of_not_mem (h.ids ▸ hk)
    rw [hkept] at herase
    exact ⟨s', hok, hsame ▸ ⟨h.localNetPlayer, herase, h.localIds⟩, by rw [hsame]⟩

theorem roster (hE : E.Lawful Holds) (h : Follows Holds s l) (entries : List RosterEntry) :
    Keeps Holds s ((entries.map fun entry => (entry.networkId, entry.defGlobalIndex)).foldl
      Lobby.Listener.addNew l) (createEach E entries s) := by
  induction entries generalizing s l with
  | nil => exact ⟨s, rfl, h, rfl⟩
  | cons entry entries ih =>
    rcases h.addNew hE entry.networkId entry.defGlobalIndex entry.position with
      ⟨s', hok, hfollows, hnetwork⟩
    rcases ih hfollows with ⟨s'', hrest, hfollows', hnetwork'⟩
    refine ⟨s'', ?_, hfollows', hnetwork'.trans hnetwork⟩
    simp [createEach, hok, hrest]

/-- What motion leaves alone is all that matters here. -/
theorem motion (h : Follows Holds s l) {s' : Session σ}
    (hsame : s'.localNetPlayer = s.localNetPlayer ∧ s'.network = s.network ∧
      s'.engine = s.engine ∧ s'.netPlayers.map NetPlayer.ids = s.netPlayers.map NetPlayer.ids) :
    Keeps Holds s l (.ok s') := by
  rcases hsame with ⟨hlocal, hnetwork, hengine, hids⟩
  refine ⟨s', rfl, ⟨?_, ?_, ?_⟩, hnetwork⟩
  · rw [hlocal, hengine]
    exact h.localNetPlayer
  · have hall : List.Forall₂ (fun ids entry => ids.1 = entry.1 ∧ Holds s.engine ids.2 entry.2)
        (s.netPlayers.map NetPlayer.ids) l.table := by
      rw [List.forall₂_map_left_iff]
      exact h.netPlayers
    rw [← hids, List.forall₂_map_left_iff] at hall
    rw [hengine]
    exact hall
  · have hsame : s'.localIds = s.localIds := by
      have hmap := congrArg (List.map Prod.snd) hids
      simp only [List.map_map] at hmap
      simp only [Session.localIds, hlocal]
      exact congrArg _ hmap
    rw [hsame]
    exact h.localIds

/-- A message that is neither a second assignment nor about the client itself. -/
theorem receive (hE : E.Lawful Holds) (h : Follows Holds s l) {m : Message} {said : LobbyNote}
    (hsaid : messageNote m = some said) (hassign : ∀ k, said ≠ .assign k)
    (hown : ∀ k, said = .destroy k → l.own ≠ some k) (address : SystemAddress) :
    Keeps Holds s (l.hear said) (s.receive E address m) := by
  cases m with
  | connectionNotification => cases hsaid
  | createLocalNetPlayer networkId position =>
    cases hsaid
    exact absurd rfl (hassign networkId)
  | createNetPlayer networkId defGlobalIndex position =>
    cases hsaid
    exact h.create hE networkId defGlobalIndex position
  | createNetPlayers entries =>
    cases hsaid
    exact h.roster hE entries
  | destroyNetPlayer networkId =>
    cases hsaid
    exact h.destroy hE (hown networkId rfl)
  | playerMovement networkId position acceleration =>
    cases hsaid
    exact h.motion (receiveNetPlayerMovement_ids s networkId position acceleration)
  | playerRotation networkId up forward =>
    cases hsaid
    exact h.motion (receiveNetPlayerRotation_ids s networkId up forward)

end Follows

/-! ## A client's whole session -/

/-- The packet that brings a message from an address. -/
def packetFrom (address : SystemAddress) (m : Message) : Packet where
  systemAddress := address
  guid := 0
  data := m.bytes
  nonempty := by cases m <;> simp [Message.bytes]

/-- The session after the dispatcher has handled these messages from the server. -/
def handleAll (E : Engine σ) (address : SystemAddress) (s : Session σ) (messages : List Message) :
    Except Fault (Session σ) :=
  Fallible.run (fun s m => s.update E 0 (packetFrom address m)) s messages

section Sessions

variable {E : Engine σ} {Holds : σ → Int → Int32 → Prop} {s : Session σ}

theorem update_packetFrom (hactive : s.network.active = true) {m : Message} (hm : m.Countable)
    (address : SystemAddress) :
    s.update E 0 (packetFrom address m) = s.receive E address m :=
  update_of_bytes E 0 hactive rfl hm

/-- The assignment creates the local player for the hero. -/
theorem Ready.assign (hE : E.Lawful Holds) (h : Ready Holds s) (address : SystemAddress)
    (networkId : Int32) (position : Vec3) :
    ∃ s', s.receive E address (.createLocalNetPlayer networkId position) = .ok s' ∧
      Follows Holds s' { own := some networkId } ∧ s'.network.active = true := by
  rcases h.hero with ⟨d, hhero⟩
  simp only [Session.receive]
  generalize hstart : (Session.mk _ _ _ _ _ _ _ _ : Session σ) = s₀
  have hs₀ : s₀.engine = s.engine ∧ s₀.netPlayers = [] ∧ s₀.localNetPlayer = none ∧
      s₀.network.active = true := by
    rw [← hstart]
    exact ⟨rfl, h.netPlayers, h.localNetPlayer, h.active⟩
  rcases hs₀ with ⟨hengine, hnet, hlocal, hactive⟩
  -- No local id is in use, so the hero's is the free one.
  have hzero : s₀.getFreeLocalId = 0 := by
    simp [getFreeLocalId, localIds, hnet, hlocal, FirstFree.search]
  rcases hE.lookup _ _ _ hhero with ⟨player, creature, hplayer, hcreature, _⟩
  rcases createLocalNetPlayer_cases E s₀ networkId position with ⟨hnone, _⟩ | ⟨_, hset, hgame⟩
  · rw [hzero] at hnone
    simp [getCreatureFromLocalId, hengine, hplayer, hcreature] at hnone
  · have hkept : Holds (s₀.createLocalNetPlayer E networkId position).engine 0 d := by
      rcases hgame with hsame | ⟨angle, hloading⟩
      · rw [hsame, hengine]
        exact hhero
      · rw [hloading, hengine]
        exact hE.loading s.engine position angle 0 d hhero
    have hlocal' := hset.localNetPlayer
    have hnet' := hset.netPlayers.trans hnet
    refine ⟨_, rfl, ⟨⟨_, d, hlocal', rfl, ?_⟩, ?_, ?_⟩, ?_⟩
    · rw [hzero]
      exact hkept
    · rw [hnet']
      exact .nil
    · simp [localIds, hlocal', hnet']
    · rw [hset.network]
      exact hactive

theorem Follows.handleAll (hE : E.Lawful Holds) {l : LobbyListener} (h : Follows Holds s l)
    (hactive : s.network.active = true) (address : SystemAddress) {messages : List Message}
    (hcount : ∀ m ∈ messages, m.Countable ∧ (messageNote m).isSome = true)
    (hforeign : ∀ m ∈ messages, ∀ k, messageNote m ≠ some (.assign k) ∧
      (messageNote m = some (.destroy k) → l.own ≠ some k)) :
    Keeps Holds s ((messages.filterMap messageNote).foldl Lobby.Listener.hear l)
      (s.handleAll E address messages) := by
  induction messages generalizing s l with
  | nil => exact ⟨s, rfl, h, rfl⟩
  | cons m messages ih =>
    have hm := hcount m List.mem_cons_self
    rcases Option.isSome_iff_exists.1 hm.2 with ⟨said, hsaid⟩
    have hfirst := hforeign m List.mem_cons_self
    rw [hsaid] at hfirst
    have hassign : ∀ k, said ≠ .assign k := fun k heq => (hfirst k).1 (by rw [heq])
    rcases h.receive hE hsaid hassign (fun k heq => (hfirst k).2 (by rw [heq])) address with
      ⟨s', hok, hfollows, hnetwork⟩
    -- Only an assignment changes the own id, and there is none among the messages.
    have hown : (l.hear said).own = l.own := by
      rw [Lobby.Listener.hear_own]
      cases said with
      | assign k => exact absurd rfl (hassign k)
      | _ => rfl
    have hrest := ih hfollows (by rw [hnetwork]; exact hactive)
      (fun m' hm' => hcount m' (List.mem_cons_of_mem _ hm'))
      (fun m' hm' => hown ▸ hforeign m' (List.mem_cons_of_mem _ hm'))
    rcases hrest with ⟨s'', hrun, hfollows', hnetwork'⟩
    refine ⟨s'', ?_, ?_, hnetwork'.trans hnetwork⟩
    · have hupdate := (update_packetFrom (E := E) hactive hm.1 address).trans hok
      exact Fallible.run_cons_ok.2 ⟨s', hupdate, hrun⟩
    · simpa [List.filterMap_cons, hsaid] using hfollows'

end Sessions

end Session
end Mod
end Crossover
