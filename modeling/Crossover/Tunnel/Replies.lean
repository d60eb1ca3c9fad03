import Crossover.Tunnel.Deframing

/-!
# Replies — whom the player's end sends to

`crossover-tunnel` takes the address of the first datagram it ever gets for the game's and keeps it.
Here the pump loop carries that address; without it, it is `Client`.  A game that connects again
does so from another port, and then the replies go to a socket that nobody reads.
-/

namespace Crossover
namespace Tunnel

open History

/-- `sockaddr_in`, as far as it is set. -/
structure SockaddrIn where
  sin_addr : UInt32 := 0
  sin_port : UInt16 := 0
  deriving DecidableEq, Repr

/-- The pump loop's state with `game`. -/
structure GameClient where
  client : Client := {}
  game : SockaddrIn := {}

/-- What `select` comes to, with the sender of the datagram that has been read. -/
inductive GameEvent
  | selectFailed
  | idle
  | ready (udp : Option (SockaddrIn × Datagram × List SendResult)) (tcp : Option RecvResult)

/-- A system call, with the address of the datagram that it takes or sends. -/
inductive GameIo
  | recvfrom (sender : SockaddrIn) (datagram : Datagram)
  | write (written : Written)
  | recv (chunk : List UInt8)
  | sendto (payload : List UInt8) (receiver : SockaddrIn)

/-- A call of the half of a round that does not read datagrams. -/
def GameIo.of (game : SockaddrIn) : Io → GameIo
  | .recvfrom datagram => .recvfrom game datagram
  | .write written => .write written
  | .recv chunk => .recv chunk
  | .sendto payload => .sendto payload game

namespace GameClient

/-- The game to server half of a round: `if (!gameKnown) game = from`. -/
def fromUdp (c : GameClient) :
    Option (SockaddrIn × Datagram × List SendResult) → GameClient × List GameIo
  | none => (c, [])
  | some (sender, datagram, results) =>
      let written := sendAll results (frame datagram)
      ({ client := (c.client.fromUdp (some (datagram, results))).1
         game := if !c.client.gameKnown then sender else c.game },
        [.recvfrom sender datagram, .write written])

/-- The server to game half of a round. -/
def fromTcp (c : GameClient) (result : Option RecvResult) : GameClient × List GameIo :=
  let round := c.client.fromTcp result
  ({ c with client := round.1 }, round.2.map (.of c.game))

/-- One round of the loop. -/
def step (c : GameClient) (event : GameEvent) : GameClient × List GameIo :=
  if !c.client.running then (c, [])
  else
    match event with
    | .selectFailed => ({ c with client := { c.client with running := false } }, [])
    | .idle => (c, [])
    | .ready udp tcp =>
        let first := c.fromUdp udp
        if first.1.client.running then
          let second := first.1.fromTcp tcp
          (second.1, first.2 ++ second.2)
        else first

end GameClient

/-- The pump loop of `crossover-tunnel` with its addresses. -/
def gameClient : Machine GameClient GameEvent GameIo where
  step := GameClient.step

/-! ## Without the addresses -/

def GameEvent.forget : GameEvent → ClientEvent
  | .selectFailed => .selectFailed
  | .idle => .idle
  | .ready udp tcp => .ready (udp.map Prod.snd) tcp

def GameIo.forget : GameIo → Io
  | .recvfrom _ datagram => .recvfrom datagram
  | .write written => .write written
  | .recv chunk => .recv chunk
  | .sendto payload _ => .sendto payload

@[simp] theorem GameIo.forget_of (game : SockaddrIn) (io : Io) :
    (GameIo.of game io).forget = io := by
  cases io <;> rfl

theorem forget_step (c : GameClient) (event : GameEvent) :
    client.step c.client event.forget =
      ((gameClient.step c event).1.client, (gameClient.step c event).2.map GameIo.forget) := by
  have hclient : client.step c.client event.forget = Client.step c.client event.forget := rfl
  have hgame : gameClient.step c event = GameClient.step c event := rfl
  rw [hclient, hgame]
  cases hrunning : c.client.running with
  | false => simp [Client.step, GameClient.step, hrunning]
  | true =>
    cases event with
    | selectFailed => simp [Client.step, GameClient.step, GameEvent.forget, hrunning]
    | idle => simp [Client.step, GameClient.step, GameEvent.forget, hrunning]
    | ready udp tcp =>
      have hfirst : ∀ udp : Option (SockaddrIn × Datagram × List SendResult),
          c.client.fromUdp (udp.map Prod.snd) =
            ((c.fromUdp udp).1.client, (c.fromUdp udp).2.map GameIo.forget) := by
        intro udp
        cases udp <;> rfl
      simp only [Client.step, GameClient.step, GameEvent.forget, hrunning, hfirst, Bool.not_true,
        Bool.false_eq_true, if_false]
      split
      · simp [GameClient.fromTcp, Function.comp_def]
      · rfl

/-! ## The first sender -/

/-- The senders of the datagrams taken from the UDP socket. -/
def senders (log : List GameIo) : List SockaddrIn :=
  log.filterMap fun io =>
    match io with
    | .recvfrom sender _ => some sender
    | _ => none

@[simp] theorem senders_append (log more : List GameIo) :
    senders (log ++ more) = senders log ++ senders more := by
  simp [senders]

/-- Every datagram goes to whoever has sent the first one. -/
def ToFirst (log : List GameIo) : Prop :=
  Every (fun before io => ∀ payload receiver, io = .sendto payload receiver →
    (senders before).head? = some receiver) log

/-- The game's address is the first sender's. -/
structure Latched (c : GameClient) (log : List GameIo) : Prop where
  game : c.client.gameKnown = true → (senders log).head? = some c.game
  unknown : c.client.gameKnown = false → senders log = []
  sends : ToFirst log

/-- More calls: what they send goes to a sender that is known already. -/
theorem toFirst_append {log more : List GameIo} (h : ToFirst log)
    (hmore : ∀ payload receiver, .sendto payload receiver ∈ more →
      (senders log).head? = some receiver) : ToFirst (log ++ more) := by
  refine every_append.2 ⟨h, ?_⟩
  intro before io after hsplit payload receiver hio
  have hfirst := hmore payload receiver (by rw [hsplit, hio]; simp)
  rw [senders_append, List.head?_append, hfirst]
  rfl

/-- The TCP half of a round sends only to a game that is known, and takes no datagram. -/
theorem fromTcp_quiet (client : Client) (result : Option RecvResult) :
    (client.fromTcp result).1.gameKnown = client.gameKnown ∧
      (∀ payload, Io.sendto payload ∈ (client.fromTcp result).2 → client.gameKnown = true) ∧
      ∀ datagram, Io.recvfrom datagram ∉ (client.fromTcp result).2 := by
  cases result with
  | none => exact ⟨rfl, by simp [Client.fromTcp], by simp [Client.fromTcp]⟩
  | some result =>
    cases result with
    | again => exact ⟨rfl, by simp [Client.fromTcp], by simp [Client.fromTcp]⟩
    | failed => exact ⟨rfl, by simp [Client.fromTcp], by simp [Client.fromTcp]⟩
    | bytes available =>
      simp only [Client.fromTcp]
      split
      · exact ⟨rfl, by simp, by simp⟩
      · cases hgame : client.gameKnown with
        | true => exact ⟨rfl, fun _ _ => rfl, by simp⟩
        | false => exact ⟨rfl, by simp, by simp⟩

namespace Latched

variable {c : GameClient} {log : List GameIo}

theorem stop (h : Latched c log) :
    Latched { c with client := { c.client with running := false } } log :=
  ⟨h.game, h.unknown, h.sends⟩

theorem fromUdp (h : Latched c log)
    (udp : Option (SockaddrIn × Datagram × List SendResult)) :
    Latched (c.fromUdp udp).1 (log ++ (c.fromUdp udp).2) := by
  cases udp with
  | none => simpa [GameClient.fromUdp] using h
  | some received =>
    rcases received with ⟨sender, datagram, results⟩
    refine ⟨?_, ?_, ?_⟩
    · intro _
      rw [senders_append]
      cases hknown : c.client.gameKnown with
      -- The address is latched: a later sender does not replace the first.
      | true =>
        have hfirst := h.game hknown
        simp [GameClient.fromUdp, hknown, List.head?_append, hfirst]
      | false =>
        rw [h.unknown hknown]
        simp [GameClient.fromUdp, hknown, senders]
    · intro hunknown
      simp [GameClient.fromUdp, Client.fromUdp] at hunknown
    · refine toFirst_append h.sends ?_
      simp [GameClient.fromUdp]

theorem fromTcp (h : Latched c log) (result : Option RecvResult) :
    Latched (c.fromTcp result).1 (log ++ (c.fromTcp result).2) := by
  rcases fromTcp_quiet c.client result with ⟨hknown, hsent, hnothing⟩
  have hsenders : senders (log ++ (c.fromTcp result).2) = senders log := by
    -- The server's end brings no datagram of the game.
    have hquiet : senders (c.fromTcp result).2 = [] := by
      apply List.filterMap_eq_nil_iff.2
      intro io hio
      rcases List.mem_map.1 hio with ⟨call, hcall, rfl⟩
      cases call with
      | recvfrom datagram => exact absurd hcall (hnothing datagram)
      | _ => rfl
    rw [senders_append, hquiet, List.append_nil]
  refine ⟨?_, ?_, ?_⟩
  · intro hgame
    rw [hsenders]
    exact h.game (hknown.symm.trans hgame)
  · intro hgame
    rw [hsenders]
    exact h.unknown (hknown.symm.trans hgame)
  · refine toFirst_append h.sends ?_
    intro payload receiver hmem
    rcases List.mem_map.1 hmem with ⟨call, hcall, heq⟩
    cases call with
    | sendto payload' =>
      cases heq
      exact h.game (hsent payload hcall)
    | _ => cases heq

theorem step (h : Latched c log) (event : GameEvent) :
    Latched (c.step event).1 (log ++ (c.step event).2) := by
  cases hrunning : c.client.running with
  | false => simpa [GameClient.step, hrunning] using h
  | true =>
    simp only [GameClient.step, hrunning, Bool.not_true, Bool.false_eq_true, if_false]
    cases event with
    | selectFailed => simpa using h.stop
    | idle => simpa using h
    | ready udp tcp =>
      have hfirst := h.fromUdp udp
      simp only
      split
      · have hsecond := hfirst.fromTcp tcp
        simpa using hsecond
      · exact hfirst

end Latched

theorem latched_run (events : List GameEvent) :
    Latched (gameClient.state {} events) (gameClient.log {} events) := by
  refine Machine.run_invariant (I := fun _ state log => Latched state log) ?_
    (fun _ _ _ event h => h.step event) events
  exact ⟨by simp, fun _ => rfl, every_nil _⟩

/-! ## Sessions -/

/-- A session of the game: the address its socket has, and the rounds of the pump loop until the
next session. -/
structure GameSession where
  address : SockaddrIn
  rounds : List ClientEvent

def ClientEvent.sentFrom (address : SockaddrIn) : ClientEvent → GameEvent
  | .selectFailed => .selectFailed
  | .idle => .idle
  | .ready udp tcp => .ready (udp.map fun received => (address, received)) tcp

def GameSession.events (session : GameSession) : List GameEvent :=
  session.rounds.map (ClientEvent.sentFrom session.address)

/-- What the tunnel does behind these sessions and then in this one. -/
def sessionLog (before : List GameSession) (session : GameSession) : List GameIo :=
  gameClient.log (gameClient.state {} (before.flatMap GameSession.events)) session.events

/-- Once a datagram of the session has been received, every frame from the server goes to the
session's address. -/
def RepliesReach (before : List GameSession) (session : GameSession) : Prop :=
  Every (fun earlier io => ∀ payload receiver, io = .sendto payload receiver →
    (∃ sender datagram, GameIo.recvfrom sender datagram ∈ earlier) → receiver = session.address)
    (sessionLog before session)

/-- A frame from the server is handed on behind a datagram of the session. -/
def Served (before : List GameSession) (session : GameSession) : Prop :=
  let rounds := before.flatMap GameSession.rounds
  ∃ earlier payload later datagram,
    client.log (client.state {} rounds) session.rounds = earlier ++ .sendto payload :: later ∧
      .recvfrom datagram ∈ earlier

/-- Who has sent the first datagram in these sessions. -/
def firstSender (sessions : List GameSession) : Option SockaddrIn :=
  (senders (gameClient.log {} (sessions.flatMap GameSession.events))).head?

section Sessions

variable {before : List GameSession} {session : GameSession}

theorem forget_sentFrom (address : SockaddrIn) (event : ClientEvent) :
    (event.sentFrom address).forget = event := by
  cases event with
  | ready udp tcp => simp [ClientEvent.sentFrom, GameEvent.forget, Function.comp_def]
  | _ => rfl

theorem forget_events (session : GameSession) :
    session.events.map GameEvent.forget = session.rounds := by
  simp [GameSession.events, Function.comp_def, forget_sentFrom]

/-- Without its addresses, the log of a session is the one of `client`. -/
theorem forget_sessionLog (before : List GameSession) (session : GameSession) :
    (sessionLog before session).map GameIo.forget =
      client.log (client.state {} (before.flatMap GameSession.rounds)) session.rounds := by
  have hbefore := Machine.run_map forget_step {} (before.flatMap GameSession.events)
  have hrounds : (before.flatMap GameSession.events).map GameEvent.forget =
      before.flatMap GameSession.rounds := by
    rw [List.map_flatMap]
    simp only [forget_events]
  rw [hrounds] at hbefore
  have hsession := Machine.run_map forget_step
    (gameClient.state {} (before.flatMap GameSession.events)) session.events
  rw [forget_events] at hsession
  have hstate : client.state {} (before.flatMap GameSession.rounds) =
      (gameClient.state {} (before.flatMap GameSession.events)).client := congrArg Prod.fst hbefore
  rw [hstate]
  exact (congrArg Prod.snd hsession).symm

theorem log_sessions (before : List GameSession) (session : GameSession) :
    gameClient.log {} ((before ++ [session]).flatMap GameSession.events) =
      gameClient.log {} (before.flatMap GameSession.events) ++ sessionLog before session := by
  rw [List.flatMap_append, List.flatMap_singleton, Machine.log_append]
  rfl

/-- Every frame that a session is sent goes to the first sender of all. -/
theorem receiver_eq {earlier later : List GameIo} {payload : List UInt8} {receiver : SockaddrIn}
    (hsplit : sessionLog before session = earlier ++ .sendto payload receiver :: later) :
    firstSender (before ++ [session]) = some receiver := by
  have hsends := (latched_run ((before ++ [session]).flatMap GameSession.events)).sends
  rw [log_sessions, hsplit] at hsends
  have hfirst := hsends (gameClient.log {} (before.flatMap GameSession.events) ++ earlier)
    (.sendto payload receiver) later (by simp) payload receiver rfl
  rw [firstSender, log_sessions, hsplit, ← List.append_assoc, senders_append, List.head?_append,
    hfirst]
  rfl

theorem served_iff : Served before session ↔
    ∃ earlier payload receiver later sender datagram,
      sessionLog before session = earlier ++ .sendto payload receiver :: later ∧
        .recvfrom sender datagram ∈ earlier := by
  rw [Served, ← forget_sessionLog]
  constructor
  · rintro ⟨earlier, payload, later, datagram, hsplit, hmem⟩
    -- Forgetting the addresses keeps every call in its place, so the split carries over.
    rcases List.map_eq_append_iff.1 hsplit with ⟨front, back, hlog, rfl, hback⟩
    rcases List.map_eq_cons_iff.1 hback with ⟨io, rest, rfl, hio, rfl⟩
    rcases List.mem_map.1 hmem with ⟨call, hcall, hforget⟩
    cases io with
    | sendto payload' receiver =>
      cases call with
      | recvfrom sender datagram' =>
        exact ⟨front, payload', receiver, rest, sender, datagram', hlog, hcall⟩
      | _ => cases hforget
    | _ => cases hio
  · rintro ⟨earlier, payload, receiver, later, sender, datagram, hsplit, hmem⟩
    refine ⟨earlier.map GameIo.forget, payload, later.map GameIo.forget, datagram, ?_, ?_⟩
    · rw [hsplit]
      simp [GameIo.forget]
    · exact List.mem_map.2 ⟨_, hmem, rfl⟩

/-- In one session. -/
theorem repliesReach_iff : RepliesReach before session ↔
    (Served before session → firstSender (before ++ [session]) = some session.address) := by
  rw [served_iff]
  constructor
  · rintro hreach ⟨earlier, payload, receiver, later, sender, datagram, hsplit, hmem⟩
    rw [receiver_eq hsplit]
    have hheard := hreach earlier _ later hsplit payload receiver rfl ⟨sender, datagram, hmem⟩
    exact congrArg some hheard
  · rintro hfirst earlier io later hsplit payload receiver rfl ⟨sender, datagram, hmem⟩
    have hsame := hfirst ⟨earlier, payload, receiver, later, sender, datagram, hsplit, hmem⟩
    rw [receiver_eq hsplit] at hsame
    exact Option.some.inj hsame

end Sessions

/-- The replies of every session reach it exactly when each session that is served behind one of its
own datagrams has the address that the very first datagram came from. -/
theorem replies_reach_iff (sessions : List GameSession) :
    Every RepliesReach sessions ↔
      Every (fun before session => Served before session →
        firstSender (before ++ [session]) = some session.address) sessions := by
  constructor
  · intro h
    exact h.mono fun before session => repliesReach_iff.1
  · intro h
    exact h.mono fun before session => repliesReach_iff.2

/-! ### A game that connects again -/

section Reconnect

def helloDatagram : Datagram where
  bytes := [7]
  nonempty := by decide
  bounded := by decide

/-- The game sends a byte, and the server answers with one. -/
def exchange (port : UInt16) : GameSession where
  address := { sin_addr := 0x0100007F, sin_port := port }
  rounds := [.ready (some (helloDatagram, [.wrote 3])) none,
    .ready none (some (.bytes [0, 1, 9]))]

/-- An exchange hands the answer on and leaves nothing in the buffer. -/
theorem exchange_rounds {c : Client} (hrunning : c.running = true)
    (hempty : c.inbound.contents = []) (port : UInt16) :
    (client.state c (exchange port).rounds).running = true ∧
      (client.state c (exchange port).rounds).inbound.contents = [] ∧
      ∃ written, client.log c (exchange port).rounds =
        [.recvfrom helloDatagram, .write written, .recv [0, 1, 9]] ++ [.sendto [9]] := by
  have hnext : tunnelFraming.next [0, 1, 9] = .frame [9] [] := rfl
  have hanswer := Framing.unframe_frame hnext
  rw [Framing.unframe_nil] at hanswer
  let greeted : Client := { c with running := true, gameKnown := true }
  have hfirst : client.step c (.ready (some (helloDatagram, [.wrote 3])) none) =
      (greeted, [.recvfrom helloDatagram, .write (sendAll [.wrote 3] (frame helloDatagram))]) := by
    have hstep : ∀ event, client.step c event = Client.step c event := fun _ => rfl
    have hsent : (sendAll [.wrote 3] (frame helloDatagram)).returned = some true := rfl
    rw [hstep]
    simp [Client.step, hrunning, Client.fromUdp, hsent, Client.fromTcp, greeted]
  have hroom : ([0, 1, 9] : List UInt8).length ≤ greeted.inbound.room := by
    have hlength := c.inbound.length_contents
    rw [hempty] at hlength
    simp only [greeted, Inbound.room, ← hlength, kMaxDatagram]
    decide
  have hready : greeted.running = true := rfl
  rcases step_clientReceives hready rfl (by decide) hroom with
    ⟨hrunning', _, hcontents, hlog⟩
  have hstart : greeted.inbound.contents = [] := hempty
  rw [hstart, List.nil_append, hanswer] at hrunning' hcontents hlog
  refine ⟨?_, ?_, sendAll [.wrote 3] (frame helloDatagram), ?_⟩
  · rw [exchange, Machine.state_cons, hfirst]
    exact hrunning'
  · rw [exchange, Machine.state_cons, hfirst]
    exact hcontents
  · have hsecond : client.log greeted [clientReceives [0, 1, 9]] =
        (client.step greeted (clientReceives [0, 1, 9])).2 ++ [] := rfl
    have hrounds : (exchange port).rounds =
        [.ready (some (helloDatagram, [.wrote 3])) none, clientReceives [0, 1, 9]] := rfl
    rw [hrounds, Machine.log_cons, hfirst, hsecond, hlog]
    rfl

/-- The answer in the second session goes to the first session's port. -/
theorem reconnect_misses : ¬ Every RepliesReach [exchange 50001, exchange 50002] := by
  intro h
  have hreach := repliesReach_iff.1 (h [exchange 50001] (exchange 50002) [] rfl)
  rcases exchange_rounds (c := {}) rfl rfl 50001 with ⟨hrunning, hempty, _⟩
  rcases exchange_rounds hrunning hempty 50002 with ⟨_, _, written, hlog⟩
  have hserved : Served [exchange 50001] (exchange 50002) :=
    ⟨_, [9], [], helloDatagram, hlog, List.mem_cons_self⟩
  -- The very first datagram is the greeting of the first session.
  have hfirst : firstSender ([exchange 50001] ++ [exchange 50002]) =
      some (exchange 50001).address := by
    let greeting : GameEvent :=
      .ready (some ((exchange 50001).address, helloDatagram, [.wrote 3])) none
    have hgreeting : (gameClient.step {} greeting).2 =
        [.recvfrom (exchange 50001).address helloDatagram,
          .write (sendAll [.wrote 3] (frame helloDatagram))] := rfl
    have hevents : ([exchange 50001] ++ [exchange 50002]).flatMap GameSession.events =
        greeting :: ([.ready none (some (.bytes [0, 1, 9]))] ++ (exchange 50002).events) := rfl
    rw [firstSender, hevents, Machine.log_cons, hgreeting]
    rfl
  rw [hreach hserved] at hfirst
  revert hfirst
  decide

end Reconnect

end Tunnel
end Crossover
