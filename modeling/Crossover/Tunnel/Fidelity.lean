import Crossover.Tunnel.Client
import Crossover.Tunnel.Pump

/-!
# Fidelity — datagrams go through the tunnel whole and in order

An end takes the datagrams that come to its UDP socket one after the other (`Takes`).  What its
connection accepts is a beginning of the frames of these datagrams (`Sends`), what it hands on is
what is framed in the bytes it has received (`Receives`).  Between the two ends there is a TCP
connection that delivers a beginning of what it has accepted, in whatever pieces.
-/

namespace Crossover
namespace Tunnel

open History

/-- Given that `receiver` has received a beginning of the bytes that `sender` got accepted, it has
handed on a beginning of its datagrams; and all of them, if all bytes were accepted and received. -/
def Delivers (sender receiver : List Io) : Prop :=
  receivedBytes receiver <+: acceptedBytes sender →
    payloads receiver <+: datagrams sender ∧
      (AllWritten sender → receivedBytes receiver = acceptedBytes sender →
        payloads receiver = datagrams sender)

/-- The datagrams that a round of the server's end finds at its UDP socket.  A connection that has
nothing to read after all sends the loop back to `poll`. -/
def PumpEvent.offered : PumpEvent → List (List UInt8)
  | .ready _ (some .again) _ => []
  | .ready _ _ (some received) => received.map fun entry => entry.1.bytes
  | _ => []

/-- The datagram that a round of the player's end finds at its UDP socket. -/
def ClientEvent.offered : ClientEvent → List (List UInt8)
  | .ready (some (datagram, _)) _ => [datagram.bytes]
  | _ => []

/-- The end has taken the first of the datagrams offered to it, and all of them if its loop goes
on. -/
structure Takes (running : Bool) (log : List Io) (offered : List (List UInt8)) : Prop where
  beginning : datagrams log <+: offered
  whole : running = true → datagrams log = offered

/-- The game has sent a datagram before anything comes from the server. -/
def GameFirst (log : List Io) : Prop :=
  Every (fun before io => ∀ chunk, io = .recv chunk → ∃ datagram, Io.recvfrom datagram ∈ before) log

/-! ## Logs -/

section Logs

variable (log more : List Io) (chunk : List UInt8) (sent : List (List UInt8))

@[simp] theorem datagrams_append : datagrams (log ++ more) = datagrams log ++ datagrams more := by
  simp [datagrams]

@[simp] theorem acceptedBytes_append :
    acceptedBytes (log ++ more) = acceptedBytes log ++ acceptedBytes more := by
  simp [acceptedBytes]

@[simp] theorem receivedBytes_append :
    receivedBytes (log ++ more) = receivedBytes log ++ receivedBytes more := by
  simp [receivedBytes]

@[simp] theorem payloads_append : payloads (log ++ more) = payloads log ++ payloads more := by
  simp [payloads]

@[simp] theorem datagrams_received : datagrams (.recv chunk :: sent.map .sendto) = [] := by
  simp [datagrams]

@[simp] theorem acceptedBytes_received :
    acceptedBytes (.recv chunk :: sent.map .sendto) = [] := by
  simp [acceptedBytes]

@[simp] theorem receivedBytes_received :
    receivedBytes (.recv chunk :: sent.map .sendto) = chunk := by
  simp [receivedBytes, List.flatMap_map]

@[simp] theorem payloads_received : payloads (.recv chunk :: sent.map .sendto) = sent := by
  simp [payloads, List.filterMap_map]

end Logs

/-! ## Taking datagrams -/

namespace Takes

variable {running : Bool} {log more : List Io} {offered next : List (List UInt8)}

/-- An end that takes everything it is offered. -/
theorem all (h : datagrams log = offered) : Takes running log offered :=
  ⟨h ▸ List.prefix_rfl, fun _ => h⟩

/-- An end that stops in front of its socket. -/
theorem none (h : datagrams log = []) (offered : List (List UInt8)) : Takes false log offered :=
  ⟨h ▸ List.nil_prefix, fun hfalse => by cases hfalse⟩

theorem append (h : datagrams log = offered) (hmore : Takes running more next) :
    Takes running (log ++ more) (offered ++ next) := by
  refine ⟨?_, ?_⟩
  · rw [datagrams_append, h]
    exact (List.prefix_append_right_inj offered).2 hmore.beginning
  · intro hrunning
    rw [datagrams_append, h, hmore.whole hrunning]

/-- A machine that takes what each round offers as long as it goes on takes a beginning of what the
whole run offers. -/
theorem run {σ ε : Type} (M : Machine σ ε Io) (running : σ → Bool)
    (offers : ε → List (List UInt8)) (start : σ)
    (hstep : ∀ state event, running state = true →
      Takes (running (M.step state event).1) (M.step state event).2 (offers event))
    (hstopped : ∀ state event, running state = false → M.step state event = (state, []))
    (events : List ε) :
    Takes (running (M.state start events)) (M.log start events) (events.flatMap offers) := by
  induction events using List.reverseRecOn with
  | nil => exact .all rfl
  | append_singleton events event ih =>
    rw [M.state_snoc, M.log_snoc, List.flatMap_append, List.flatMap_singleton]
    cases hrunning : running (M.state start events) with
    | true => exact append (ih.whole hrunning) (hstep _ event hrunning)
    | false =>
      rw [hstopped _ event hrunning, hrunning, List.append_nil]
      exact ⟨ih.beginning.trans (List.prefix_append _ _), fun hfalse => by cases hfalse⟩

theorem drain (received : List (Datagram × List SendResult)) :
    Takes (decide ((Tunnel.drain received).2 = some true)) (Tunnel.drain received).1
      (received.map fun entry => entry.1.bytes) := by
  induction received with
  | nil => exact .all rfl
  | cons first rest ih =>
    rcases first with ⟨datagram, results⟩
    simp only [Tunnel.drain]
    split
    · have hfirst : datagrams [.recvfrom datagram, .write (writeAll results (frame datagram))] =
          [datagram.bytes] := rfl
      exact append hfirst ih
    · rename_i hreturned
      rw [decide_eq_false hreturned]
      -- The datagram has been taken, those behind it have not.
      exact ⟨⟨rest.map fun entry => entry.1.bytes, rfl⟩, fun hfalse => by cases hfalse⟩

end Takes

theorem Pump.datagrams_fromTcp (pump : Pump) (result : Option RecvResult) :
    datagrams (pump.fromTcp result).2.1 = [] := by
  have hhalf := pump.tcpHalf_fromTcp result
  generalize pump.fromTcp result = half at hhalf ⊢
  cases hhalf with
  | unread => rfl
  | again => rfl
  | ends => rfl
  | received chunk => exact datagrams_received _ _

theorem Client.datagrams_fromTcp (client : Client) (result : Option RecvResult) :
    datagrams (client.fromTcp result).2 = [] := by
  cases result with
  | none => rfl
  | some result =>
    cases result with
    | again => rfl
    | failed => rfl
    | bytes available =>
      simp only [fromTcp]
      split
      · rfl
      · cases client.gameKnown with
        | true => exact datagrams_received _ _
        | false => exact datagrams_received _ []

theorem Pump.takes_fromUdp {pump : Pump} (hrunning : pump.running = true)
    (received : List (Datagram × List SendResult)) :
    Takes (pump.fromUdp (some received)).1.running (pump.fromUdp (some received)).2
      (received.map fun entry => entry.1.bytes) := by
  have hdrained := Takes.drain received
  simp only [fromUdp]
  split
  · rename_i hok
    rw [decide_eq_true hok, ← hrunning] at hdrained
    exact hdrained
  · exact ⟨hdrained.beginning, fun hfalse => by cases hfalse⟩
  · exact ⟨hdrained.beginning, fun hfalse => by cases hfalse⟩

theorem Pump.takes_step {pump : Pump} (hrunning : pump.running = true) (event : PumpEvent) :
    Takes (pump.step event).1.running (pump.step event).2 event.offered := by
  simp only [step, hrunning, Bool.not_true, Bool.false_eq_true, if_false]
  cases event with
  | stopped => exact .all rfl
  | pollFailed => exact .all rfl
  | idle => exact .all rfl
  | ready hungUp tcp udp =>
    cases hungUp with
    | true => exact .none rfl _
    | false =>
      have hquiet := datagrams_fromTcp pump tcp
      simp only [Bool.false_eq_true, if_false]
      split
      · rename_i hon
        have hrunning' := running_of_fromTcp hrunning hon
        have hoffered : (PumpEvent.ready false tcp udp).offered =
            (udp.map fun received => received.map fun entry => entry.1.bytes).getD [] := by
          cases udp <;> cases tcp with
          | none => rfl
          | some result =>
            cases result with
            | again => cases hon
            | _ => rfl
        rw [hoffered]
        cases udp with
        | none => simpa [fromUdp] using Takes.all hquiet
        | some received => exact Takes.append hquiet (takes_fromUdp hrunning' received)
      · rename_i hoff
        rcases Pump.again_or_stopped (Bool.eq_false_iff.2 hoff) with rfl | hstopped
        · exact .all rfl
        · simp only [hstopped]
          exact .none hquiet _

theorem Client.takes_step {client : Client} (hrunning : client.running = true)
    (event : ClientEvent) :
    Takes (client.step event).1.running (client.step event).2 event.offered := by
  simp only [step, hrunning, Bool.not_true, Bool.false_eq_true, if_false]
  cases event with
  | selectFailed => exact .all rfl
  | idle => exact .all rfl
  | ready udp tcp =>
    have hfirst : datagrams (client.fromUdp udp).2 = (ClientEvent.ready udp tcp).offered := by
      cases udp <;> rfl
    refine .all ?_
    simp only
    split
    · rw [datagrams_append, hfirst, datagrams_fromTcp, List.append_nil]
    · exact hfirst

theorem takes_pump (events : List PumpEvent) :
    Takes (pump.state {} events).running (pump.log {} events)
      (events.flatMap PumpEvent.offered) := by
  refine Takes.run pump Pump.running PumpEvent.offered {}
    (fun _ event hrunning => Pump.takes_step hrunning event) ?_ events
  intro state event hstopped
  simp [pump, Pump.step, hstopped]

theorem takes_client (events : List ClientEvent) :
    Takes (client.state {} events).running (client.log {} events)
      (events.flatMap ClientEvent.offered) := by
  refine Takes.run client Client.running ClientEvent.offered {}
    (fun _ event hrunning => Client.takes_step hrunning event) ?_ events
  intro state event hstopped
  simp [client, Client.step, hstopped]

/-! ## Sending -/

/-- The bytes accepted so far against the frames of the datagrams so far. -/
structure Sends (running : Bool) (log : List Io) : Prop where
  beginning : acceptedBytes log <+: tunnelFraming.frames (datagrams log)
  whole : AllWritten log → acceptedBytes log = tunnelFraming.frames (datagrams log)
  running : running = true → AllWritten log

namespace Sends

variable {running running' : Bool} {log : List Io}

theorem nil : Sends true [] := by
  refine ⟨List.nil_prefix, fun _ => rfl, ?_⟩
  intro _ written hmem
  cases hmem

theorem stop (h : Sends running log) : Sends false log :=
  ⟨h.beginning, h.whole, fun hfalse => by cases hfalse⟩

/-- Receiving does not write. -/
theorem received (h : Sends true log) (running' : Bool) (chunk : List UInt8)
    (sent : List (List UInt8)) :
    Sends running' (log ++ .recv chunk :: sent.map .sendto) := by
  have hall : AllWritten (log ++ .recv chunk :: sent.map .sendto) := by
    intro written hmem
    rcases List.mem_append.1 hmem with hold | hnew
    · exact h.running rfl written hold
    · simp at hnew
  have hwhole := h.whole (h.running rfl)
  refine ⟨?_, ?_, fun _ => hall⟩
  · simp [hwhole]
  · simp [hwhole]

/-- The next datagram is written behind the others. -/
theorem write (h : Sends true log) {datagram : Datagram} {written : Written}
    (hwritten : Written.Of (frame datagram) written) :
    Sends (decide (written.returned = some true))
      (log ++ [.recvfrom datagram, .write written]) := by
  have hwhole := h.whole (h.running rfl)
  have haccepted : acceptedBytes (log ++ [.recvfrom datagram, .write written]) =
      tunnelFraming.frames (datagrams log) ++ written.accepted := by
    simp [acceptedBytes] at hwhole ⊢
    exact hwhole
  have hframes : tunnelFraming.frames
      (datagrams (log ++ [.recvfrom datagram, .write written])) =
      tunnelFraming.frames (datagrams log) ++ frame datagram := by
    have hone : datagrams [.recvfrom datagram, .write written] = [datagram.bytes] := rfl
    rw [datagrams_append, hone, Framing.frames, List.flatMap_append, List.flatMap_singleton]
    rfl
  refine ⟨?_, ?_, ?_⟩
  · -- A short write leaves a beginning of the new frame behind the whole earlier ones.
    rw [haccepted, hframes]
    exact (List.prefix_append_right_inj _).2 hwritten.beginning
  · intro hall
    have hreturned := hall written (by simp)
    rw [haccepted, hframes, hwritten.whole hreturned]
  · intro hreturned written' hmem
    rcases List.mem_append.1 hmem with hold | hnew
    · exact h.running rfl written' hold
    · have hsame : written' = written := by simpa using hnew
      rw [hsame]
      exact of_decide_eq_true hreturned

theorem drain (h : Sends true log) (received : List (Datagram × List SendResult)) :
    Sends (decide ((Tunnel.drain received).2 = some true))
      (log ++ (Tunnel.drain received).1) := by
  induction received generalizing log with
  | nil => simpa [Tunnel.drain] using h
  | cons first rest ih =>
    rcases first with ⟨datagram, results⟩
    have hfirst := h.write (written_writeAll results (frame datagram))
    simp only [Tunnel.drain]
    split
    · rename_i hreturned
      rw [decide_eq_true hreturned] at hfirst
      have hrest := ih hfirst
      simpa using hrest
    · rename_i hreturned
      exact hfirst

end Sends

/-! ## Receiving -/

/-- The payloads handed on are those framed in the bytes received; a loop that goes on has the rest
in its buffer. -/
structure Receives (running : Bool) (buffer : List UInt8) (log : List Io) : Prop where
  payloads : payloads log = (tunnelFraming.unframe (receivedBytes log)).payloads
  buffer : running = true → (tunnelFraming.unframe (receivedBytes log)).bad = false ∧
    (tunnelFraming.unframe (receivedBytes log)).rest = buffer

namespace Receives

variable {running : Bool} {buffer : List UInt8} {log : List Io}

theorem nil : Receives true [] [] := by
  refine ⟨?_, fun _ => ?_⟩
  · simp [Tunnel.payloads, receivedBytes]
  · simp [receivedBytes]

theorem stop (h : Receives running buffer log) (buffer' : List UInt8) :
    Receives false buffer' log :=
  ⟨h.payloads, fun hfalse => by cases hfalse⟩

/-- Sending does not receive. -/
theorem sent (h : Receives true buffer log) (running' : Bool) {more : List Io}
    (hreceived : receivedBytes more = []) (hpayloads : Tunnel.payloads more = []) :
    Receives running' buffer (log ++ more) := by
  refine ⟨?_, fun _ => ?_⟩
  · simpa [hreceived, hpayloads] using h.payloads
  · simpa [hreceived] using h.buffer rfl

/-- The next piece of the stream. -/
theorem chunk (h : Receives true buffer log) (piece : List UInt8) :
    Receives (!(tunnelFraming.unframe (buffer ++ piece)).bad)
      (tunnelFraming.unframe (buffer ++ piece)).rest
      (log ++ .recv piece ::
        (tunnelFraming.unframe (buffer ++ piece)).payloads.map .sendto) := by
  rcases h.buffer rfl with ⟨hgood, hrest⟩
  have hall := Framing.unframe_append (receivedBytes log) piece hgood
  rw [hrest] at hall
  refine ⟨?_, ?_⟩
  · rw [receivedBytes_append, receivedBytes_received, hall, payloads_append, payloads_received,
      h.payloads]
  · intro hrunning
    rw [receivedBytes_append, receivedBytes_received, hall]
    exact ⟨by simpa using hrunning, rfl⟩

end Receives

/-! ## The server's end -/

structure PumpInv (pump : Pump) (log : List Io) : Prop where
  sends : Sends pump.running log
  receives : Receives pump.running pump.inbound log

theorem quiet_drain (received : List (Datagram × List SendResult)) :
    receivedBytes (drain received).1 = [] ∧ payloads (drain received).1 = [] := by
  induction received with
  | nil => exact ⟨rfl, rfl⟩
  | cons first rest ih =>
    rcases first with ⟨datagram, results⟩
    simp only [drain]
    split
    · exact ih
    · exact ⟨rfl, rfl⟩

namespace PumpInv

variable {pump : Pump} {log : List Io}

theorem stop (h : PumpInv pump log) : PumpInv { pump with running := false } log :=
  ⟨h.sends.stop, h.receives.stop _⟩

theorem fromTcp (h : PumpInv pump log) (hrunning : pump.running = true)
    (result : Option RecvResult) :
    PumpInv (pump.fromTcp result).1 (log ++ (pump.fromTcp result).2.1) := by
  have hhalf := pump.tcpHalf_fromTcp result
  generalize pump.fromTcp result = half at hhalf ⊢
  cases hhalf with
  | unread => simpa using h
  | again => simpa using h
  | ends => simpa using h.stop
  | received chunk =>
    -- What came in goes through the de-framer, which writes nothing back.
    have hsends := h.sends
    have hreceives := h.receives
    rw [hrunning] at hsends hreceives
    exact ⟨hsends.received _ _ _, hreceives.chunk _⟩

theorem fromUdp (h : PumpInv pump log) (hrunning : pump.running = true)
    (received : Option (List (Datagram × List SendResult))) :
    PumpInv (pump.fromUdp received).1 (log ++ (pump.fromUdp received).2) := by
  cases received with
  | none => simpa [Pump.fromUdp] using h
  | some received =>
    have hsends := h.sends
    have hreceives := h.receives
    rw [hrunning] at hsends hreceives
    have hdrained := hsends.drain received
    have hquiet := quiet_drain received
    simp only [Pump.fromUdp]
    split
    · rename_i hok
      rw [decide_eq_true hok, ← hrunning] at hdrained
      exact ⟨hdrained, hreceives.sent _ hquiet.1 hquiet.2⟩
    · exact ⟨hdrained.stop, hreceives.sent _ hquiet.1 hquiet.2⟩
    · exact ⟨hdrained.stop, hreceives.sent _ hquiet.1 hquiet.2⟩

theorem step (h : PumpInv pump log) (event : PumpEvent) :
    PumpInv (pump.step event).1 (log ++ (pump.step event).2) := by
  cases hrunning : pump.running with
  | false => simpa [Pump.step, hrunning] using h
  | true =>
    simp only [Pump.step, hrunning, Bool.not_true, Bool.false_eq_true, if_false]
    cases event with
    | stopped => simpa using h.stop
    | pollFailed => simpa using h.stop
    | idle => simpa using h
    | ready hungUp tcp udp =>
      cases hungUp with
      | true => simpa using h.stop
      | false =>
        have hfirst := h.fromTcp hrunning tcp
        simp only [Bool.false_eq_true, if_false]
        -- The inbound side may have stopped the pump; then the socket is not read.
        split
        · rename_i hon
          have hsecond := hfirst.fromUdp (Pump.running_of_fromTcp hrunning hon) udp
          simpa using hsecond
        · exact hfirst

end PumpInv

theorem pumpInv_run (events : List PumpEvent) :
    PumpInv (pump.state {} events) (pump.log {} events) :=
  Machine.run_invariant (I := fun _ state log => PumpInv state log) ⟨Sends.nil, Receives.nil⟩
    (fun _ _ _ event h => h.step event) events

/-! ## The player's end -/

/-- As long as the game has sent a datagram first, everything is handed on to it; and less than a
frame stays in the buffer. -/
structure ClientInv (client : Client) (log : List Io) : Prop where
  sends : Sends client.running log
  known : (∃ datagram, Io.recvfrom datagram ∈ log) → client.gameKnown = true
  receives : GameFirst log → Receives client.running client.inbound.contents log
  roomy : client.running = true →
    client.inbound.inboundLen < kFrameHeader + kMaxDatagram

namespace ClientInv

variable {client : Client} {log : List Io}

theorem stop (h : ClientInv client log) : ClientInv { client with running := false } log :=
  ⟨h.sends.stop, h.known, fun hfirst => (h.receives hfirst).stop _, fun hfalse => by cases hfalse⟩

theorem fromUdp (h : ClientInv client log) (hrunning : client.running = true)
    (received : Option (Datagram × List SendResult)) :
    ClientInv (client.fromUdp received).1 (log ++ (client.fromUdp received).2) := by
  cases received with
  | none => simpa [Client.fromUdp] using h
  | some received =>
    rcases received with ⟨datagram, results⟩
    have hsends := h.sends
    rw [hrunning] at hsends
    refine ⟨hsends.write (written_sendAll results (frame datagram)), fun _ => rfl, ?_,
      fun _ => h.roomy hrunning⟩
    intro hfirst
    have hreceives := h.receives (every_append.1 hfirst).1
    rw [hrunning] at hreceives
    exact hreceives.sent _ rfl rfl

theorem fromTcp (h : ClientInv client log) (hrunning : client.running = true)
    (result : Option RecvResult) :
    ClientInv (client.fromTcp result).1 (log ++ (client.fromTcp result).2) := by
  cases result with
  | none => simpa [Client.fromTcp] using h
  | some result =>
    cases result with
    | again => simpa [Client.fromTcp] using h.stop
    | failed => simpa [Client.fromTcp] using h.stop
    | bytes available =>
      simp only [Client.fromTcp]
      split
      · simpa using h.stop
      · have hsends := h.sends
        rw [hrunning] at hsends
        rcases deframeInbound_spec (client.inbound.store available) with ⟨hout, hrest, hbad⟩
        rw [client.inbound.contents_store] at hout hrest hbad
        refine ⟨?_, ?_, ?_, ?_⟩
        · cases client.gameKnown with
          | true => exact hsends.received _ _ _
          | false => exact hsends.received _ _ []
        · rintro ⟨datagram, hmem⟩
          rcases List.mem_append.1 hmem with hold | hnew
          · exact h.known ⟨datagram, hold⟩
          · cases hgame : client.gameKnown <;> simp [hgame] at hnew
        · intro hfirst
          have hreceives := h.receives (every_append.1 hfirst).1
          -- The bytes come behind a datagram, so the game is known.
          have hgame : client.gameKnown = true := by
            refine h.known ?_
            exact hfirst log _ _ rfl _ rfl
          rw [hrunning] at hreceives
          have hchunk := hreceives.chunk (available.take client.inbound.room)
          rw [← hout, ← hrest, ← hbad] at hchunk
          simpa [hgame] using hchunk
        · intro hgood
          rw [← Inbound.length_contents, hrest]
          rw [hbad] at hgood
          exact Framing.length_rest_lt _ (by simpa using hgood)

theorem step (h : ClientInv client log) (event : ClientEvent) :
    ClientInv (client.step event).1 (log ++ (client.step event).2) := by
  cases hrunning : client.running with
  | false => simpa [Client.step, hrunning] using h
  | true =>
    simp only [Client.step, hrunning, Bool.not_true, Bool.false_eq_true, if_false]
    cases event with
    | selectFailed => simpa using h.stop
    | idle => simpa using h
    | ready udp tcp =>
      have hfirst := h.fromUdp hrunning udp
      simp only
      split
      · rename_i hon
        have hsecond := hfirst.fromTcp hon tcp
        simpa using hsecond
      · exact hfirst

end ClientInv

theorem clientInv_run (events : List ClientEvent) :
    ClientInv (client.state {} events) (client.log {} events) := by
  refine Machine.run_invariant (I := fun _ state log => ClientInv state log) ?_
    (fun _ _ _ event h => h.step event) events
  refine ⟨Sends.nil, ?_, fun _ => Receives.nil, fun _ => by decide⟩
  rintro ⟨datagram, hmem⟩
  cases hmem

/-- The buffer has always room for a whole frame, so `recv` returns nothing at the end of the stream
only. -/
theorem room_run (events : List ClientEvent) (hrunning : (client.state {} events).running = true) :
    kFrameHeader + kMaxDatagram ≤ (client.state {} events).inbound.room := by
  have hroomy := (clientInv_run events).roomy hrunning
  simp only [Inbound.room, kFrameHeader, kMaxDatagram] at hroomy ⊢
  omega

/-! ## Both ends together -/

theorem fits_of_mem_datagrams {log : List Io} :
    ∀ payload ∈ datagrams log, tunnelFraming.Fits payload := by
  intro payload hmem
  rcases List.mem_filterMap.1 hmem with ⟨io, _, hio⟩
  cases io with
  | recvfrom datagram =>
    obtain rfl := Option.some.inj hio
    exact datagram.fits
  | write written => cases hio
  | recv chunk => cases hio
  | sendto payload' => cases hio

theorem delivers_of {sender receiver : List Io} {sending receiving : Bool}
    {buffer : List UInt8} (hsends : Sends sending sender)
    (hreceives : Receives receiving buffer receiver) : Delivers sender receiver := by
  intro harrived
  have hframes := harrived.trans hsends.beginning
  rw [hreceives.payloads]
  refine ⟨(Framing.unframe_of_isPrefix fits_of_mem_datagrams hframes).2, ?_⟩
  intro hall hreceived
  rw [hreceived, hsends.whole hall]
  exact Framing.unframe_all fits_of_mem_datagrams

/-- Whatever the sockets do at the two ends, each of them takes the datagrams offered to it in their
order, and the datagrams that it hands on are the first of those that the other has taken. -/
theorem tunnel_fidelity (clientEvents : List ClientEvent) (pumpEvents : List PumpEvent) :
    Takes (client.state {} clientEvents).running (client.log {} clientEvents)
        (clientEvents.flatMap ClientEvent.offered) ∧
      Takes (pump.state {} pumpEvents).running (pump.log {} pumpEvents)
        (pumpEvents.flatMap PumpEvent.offered) ∧
      Delivers (client.log {} clientEvents) (pump.log {} pumpEvents) ∧
      (GameFirst (client.log {} clientEvents) →
        Delivers (pump.log {} pumpEvents) (client.log {} clientEvents)) := by
  have hclient := clientInv_run clientEvents
  have hpump := pumpInv_run pumpEvents
  refine ⟨takes_client clientEvents, takes_pump pumpEvents,
    delivers_of hclient.sends hpump.receives, ?_⟩
  intro hgame
  exact delivers_of hpump.sends (hclient.receives hgame)

end Tunnel
end Crossover
