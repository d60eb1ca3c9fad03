import Crossover.Lib.Machine
import Crossover.Tunnel.Socket

/-!
# Pump — the server's end of the tunnel

`TunnelServer::PumpConnection` behind its setup: one event is one round of its loop.
-/

namespace Crossover
namespace Tunnel

/-- `PumpConnection`'s buffer, and whether its loop goes on. -/
structure Pump where
  running : Bool := true
  /-- It is in a `WriteAll` that has not returned, so it goes neither on nor out of its loop. -/
  writing : Bool := false
  inbound : List UInt8 := []

/-- What the loop's condition and `poll` come to.  `tcp` and `udp` are there if the socket is
readable: what `recv` comes to, and the datagrams that `recvfrom` returns one after the other with
how the calls of `send` go for each. -/
inductive PumpEvent
  | stopped
  | pollFailed
  | idle
  | ready (hungUp : Bool) (tcp : Option RecvResult)
      (udp : Option (List (Datagram × List SendResult)))

/-- The loop that de-frames `inbound`: the payloads for `sendto`, what stays in the buffer, and
`fatal`. -/
def deframe (inbound : List UInt8) : List (List UInt8) × List UInt8 × Bool :=
  if inbound.length ≥ kFrameHeader then
    let len := frameLength inbound
    if len = 0 ∨ len > kMaxDatagram then ([], inbound, true)
    else if inbound.length < kFrameHeader + len then ([], inbound, false)
    else
      let rest := deframe (inbound.drop (kFrameHeader + len))
      ((inbound.drop kFrameHeader).take len :: rest.1, rest.2)
  else ([], inbound, false)
termination_by inbound.length
decreasing_by
  simp only [List.length_drop, kFrameHeader] at *
  omega

/-- The loop takes off what is framed. -/
theorem deframe_eq (inbound : List UInt8) :
    deframe inbound = ((tunnelFraming.unframe inbound).payloads,
      (tunnelFraming.unframe inbound).rest, (tunnelFraming.unframe inbound).bad) := by
  have hnext := next_tunnelFraming inbound
  rw [deframe]
  by_cases hshort : inbound.length < kFrameHeader
  · rw [if_pos hshort] at hnext
    rw [if_neg (Nat.not_le.2 hshort), Framing.unframe_incomplete hnext]
  · rw [if_neg hshort] at hnext
    rw [if_pos (Nat.not_lt.1 hshort)]
    by_cases hbad : frameLength inbound = 0 ∨ frameLength inbound > kMaxDatagram
    · rw [if_pos hbad] at hnext
      simp only [Framing.unframe_bad hnext, if_pos hbad]
    · rw [if_neg hbad] at hnext
      by_cases hpartial : inbound.length < kFrameHeader + frameLength inbound
      · rw [if_pos hpartial] at hnext
        simp only [Framing.unframe_incomplete hnext, if_neg hbad, if_pos hpartial]
      · rw [if_neg hpartial] at hnext
        have hlt := Framing.next_length_lt tunnelFraming hnext
        have hrest := deframe_eq (inbound.drop (kFrameHeader + frameLength inbound))
        simp only [Framing.unframe_frame hnext, if_neg hbad, if_neg hpartial, hrest]
termination_by inbound.length

/-- The `recvfrom` loop, and what its writes come to: all have succeeded, the last one has failed,
or the last one has not returned and holds the loop up for good. -/
def drain : List (Datagram × List SendResult) → List Io × Option Bool
  | [] => ([], some true)
  | (datagram, results) :: rest =>
      let written := writeAll results (frame datagram)
      if written.returned = some true then
        (.recvfrom datagram :: .write written :: (drain rest).1, (drain rest).2)
      else ([.recvfrom datagram, .write written], written.returned)

namespace Pump

/-- The TCP to UDP half of a round, and whether the other half follows. -/
def fromTcp (pump : Pump) : Option RecvResult → Pump × List Io × Bool
  | none => (pump, [], true)
  | some .again => (pump, [], false)
  | some .failed => ({ pump with running := false }, [], false)
  | some (.bytes available) =>
      let chunk := available.take (kMaxDatagram + kFrameHeader)
      if chunk = [] then ({ pump with running := false }, [], false)
      else
        let deframed := deframe (pump.inbound ++ chunk)
        ({ pump with running := !deframed.2.2, inbound := deframed.2.1 },
          .recv chunk :: deframed.1.map .sendto, !deframed.2.2)

/-- What the TCP to UDP half of a round comes to. -/
inductive TcpHalf (pump : Pump) : Option RecvResult → Pump × List Io × Bool → Prop
  | unread : TcpHalf pump none (pump, [], true)
  | again : TcpHalf pump (some .again) (pump, [], false)
  /-- The connection has failed or ended. -/
  | ends {result : RecvResult} :
      TcpHalf pump (some result) ({ pump with running := false }, [], false)
  | received {result : RecvResult} (chunk : List UInt8) :
      TcpHalf pump (some result)
        ({ pump with
            running := !(tunnelFraming.unframe (pump.inbound ++ chunk)).bad
            inbound := (tunnelFraming.unframe (pump.inbound ++ chunk)).rest },
          .recv chunk ::
            (tunnelFraming.unframe (pump.inbound ++ chunk)).payloads.map .sendto,
          !(tunnelFraming.unframe (pump.inbound ++ chunk)).bad)

theorem tcpHalf_fromTcp (pump : Pump) (result : Option RecvResult) :
    TcpHalf pump result (pump.fromTcp result) := by
  cases result with
  | none => exact .unread
  | some result =>
    cases result with
    | again => exact .again
    | failed => exact .ends
    | bytes available =>
      simp only [fromTcp, deframe_eq]
      split
      · exact .ends
      · exact .received _

/-- A round that goes on to its other half has not ended the loop. -/
theorem running_of_fromTcp {pump : Pump} {result : Option RecvResult}
    (hrunning : pump.running = true) (hon : (pump.fromTcp result).2.2 = true) :
    (pump.fromTcp result).1.running = true := by
  have hhalf := pump.tcpHalf_fromTcp result
  generalize pump.fromTcp result = half at hhalf hon ⊢
  cases hhalf with
  | unread => exact hrunning
  | again => cases hon
  | ends => cases hon
  | received chunk => exact hon

/-- A round ends behind its first half if there was nothing to read, or if the loop ends. -/
theorem again_or_stopped {pump : Pump} {result : Option RecvResult}
    (hoff : (pump.fromTcp result).2.2 = false) :
    result = some .again ∨ (pump.fromTcp result).1.running = false := by
  have hhalf := pump.tcpHalf_fromTcp result
  generalize pump.fromTcp result = half at hhalf hoff ⊢
  cases hhalf with
  | unread => cases hoff
  | again => exact Or.inl rfl
  | ends => exact Or.inr rfl
  | received chunk => exact Or.inr hoff

/-- The UDP to TCP half of a round. -/
def fromUdp (pump : Pump) : Option (List (Datagram × List SendResult)) → Pump × List Io
  | none => (pump, [])
  | some received =>
      let drained := drain received
      match drained.2 with
      | some true => (pump, drained.1)
      | some false => ({ pump with running := false }, drained.1)
      | none => ({ pump with running := false, writing := true }, drained.1)

/-- One round of the loop. -/
def step (pump : Pump) (event : PumpEvent) : Pump × List Io :=
  if !pump.running then (pump, [])
  else
    match event with
    | .stopped => ({ pump with running := false }, [])
    | .pollFailed => ({ pump with running := false }, [])
    | .idle => (pump, [])
    | .ready hungUp tcp udp =>
        if hungUp then ({ pump with running := false }, [])
        else
          let first := pump.fromTcp tcp
          if first.2.2 then
            let second := first.1.fromUdp udp
            (second.1, first.2.1 ++ second.2)
          else (first.1, first.2.1)

end Pump

/-- `PumpConnection` as a machine. -/
def pump : Machine Pump PumpEvent Io where
  step := Pump.step

end Tunnel
end Crossover
