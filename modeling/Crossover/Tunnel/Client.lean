import Crossover.Lib.Machine
import Crossover.Tunnel.Socket

/-!
# Client — the player's end of the tunnel

The pump loop of `crossover-tunnel`, behind its setup: one event is one round of the loop.  Its
buffer is an array of fixed size that is compacted with `memmove`; `Inbound.contents` is what the
array holds.
-/

namespace Crossover
namespace Tunnel

/-- `inbound` and `inboundLen`. -/
structure Inbound where
  bytes : List UInt8
  inboundLen : Nat
  size : bytes.length = kMaxDatagram * 4
  inside : inboundLen ≤ kMaxDatagram * 4

namespace Inbound

/-- An empty buffer; what an uninitialised array holds does not matter. -/
def empty : Inbound where
  bytes := List.replicate (kMaxDatagram * 4) 0
  inboundLen := 0
  size := List.length_replicate
  inside := Nat.zero_le _

/-- The part of the array that is in use. -/
def contents (inbound : Inbound) : List UInt8 :=
  inbound.bytes.take inbound.inboundLen

/-- `sizeof(inbound) - inboundLen`. -/
def room (inbound : Inbound) : Nat :=
  kMaxDatagram * 4 - inbound.inboundLen

/-- `recv` to `inbound + inboundLen`, of what fits of the bytes that are there, and
`inboundLen += n`. -/
def store (inbound : Inbound) (available : List UInt8) : Inbound where
  bytes := inbound.contents ++ available.take inbound.room ++
    inbound.bytes.drop (inbound.inboundLen + (available.take inbound.room).length)
  inboundLen := inbound.inboundLen + (available.take inbound.room).length
  size := by
    have hsize := inbound.size
    have hinside := inbound.inside
    simp only [contents, room, List.length_append, List.length_take, List.length_drop]
    omega
  inside := by
    have hinside := inbound.inside
    simp only [room, List.length_take]
    omega

/-- `memmove(inbound, inbound + count, inboundLen - count)` and `inboundLen -= count`. -/
def compact (inbound : Inbound) (count : Nat) : Inbound where
  bytes := (inbound.bytes.drop count).take (inbound.inboundLen - count) ++
    inbound.bytes.drop (inbound.inboundLen - count)
  inboundLen := inbound.inboundLen - count
  size := by
    have hsize := inbound.size
    have hinside := inbound.inside
    simp only [List.length_append, List.length_take, List.length_drop]
    omega
  inside := Nat.le_trans (Nat.sub_le _ _) inbound.inside

theorem length_contents (inbound : Inbound) : inbound.contents.length = inbound.inboundLen := by
  have hsize := inbound.size
  have hinside := inbound.inside
  rw [contents, List.length_take]
  omega

theorem contents_store (inbound : Inbound) (available : List UInt8) :
    (inbound.store available).contents = inbound.contents ++ available.take inbound.room := by
  have hlength := inbound.length_contents
  have hboth : (inbound.contents ++ available.take inbound.room).length =
      inbound.inboundLen + (available.take inbound.room).length := by
    rw [List.length_append, hlength]
  exact List.take_left' hboth

/-- Compacting the buffer drops the beginning of its contents. -/
theorem contents_compact (inbound : Inbound) (count : Nat) :
    (inbound.compact count).contents = inbound.contents.drop count := by
  have hsize := inbound.size
  have hinside := inbound.inside
  have hmoved : ((inbound.bytes.drop count).take (inbound.inboundLen - count)).length =
      inbound.inboundLen - count := by
    rw [List.length_take, List.length_drop]
    omega
  have htake : (inbound.compact count).contents =
      (inbound.bytes.drop count).take (inbound.inboundLen - count) :=
    List.take_left' hmoved
  rw [htake, contents, List.drop_take]

end Inbound

structure Client where
  running : Bool := true
  gameKnown : Bool := false
  inbound : Inbound := Inbound.empty

/-- What `select` comes to.  `udp` is there if a datagram has been read, with how the calls of
`send` go for it; `tcp` is there if the connection is readable. -/
inductive ClientEvent
  | selectFailed
  | idle
  | ready (udp : Option (Datagram × List SendResult)) (tcp : Option RecvResult)

/-- The loop that de-frames `inbound`: the payloads that are complete, the buffer behind it, and
whether there was a bad frame. -/
def deframeInbound (inbound : Inbound) : List (List UInt8) × Inbound × Bool :=
  if inbound.inboundLen ≥ kFrameHeader then
    let len := frameLength inbound.bytes
    if len = 0 ∨ len > kMaxDatagram then ([], inbound, true)
    else if inbound.inboundLen < kFrameHeader + len then ([], inbound, false)
    else
      let rest := deframeInbound (inbound.compact (kFrameHeader + len))
      ((inbound.bytes.drop kFrameHeader).take len :: rest.1, rest.2)
  else ([], inbound, false)
termination_by inbound.inboundLen
decreasing_by
  simp only [Inbound.compact, kFrameHeader] at *
  omega

/-- The loop takes off what is framed in the part of the array that is in use. -/
theorem deframeInbound_spec (inbound : Inbound) :
    (deframeInbound inbound).1 = (tunnelFraming.unframe inbound.contents).payloads ∧
      (deframeInbound inbound).2.1.contents = (tunnelFraming.unframe inbound.contents).rest ∧
      (deframeInbound inbound).2.2 = (tunnelFraming.unframe inbound.contents).bad := by
  have hnext := next_tunnelFraming inbound.contents
  rw [inbound.length_contents] at hnext
  rw [deframeInbound]
  by_cases hshort : inbound.inboundLen < kFrameHeader
  · rw [if_pos hshort] at hnext
    rw [if_neg (Nat.not_le.2 hshort), Framing.unframe_incomplete hnext]
    exact ⟨rfl, rfl, rfl⟩
  · -- The array begins with its contents, so the header read from it is theirs.
    have hlength : frameLength inbound.contents = frameLength inbound.bytes :=
      frameLength_take (Nat.not_lt.1 hshort)
    rw [if_neg hshort, hlength] at hnext
    rw [if_pos (Nat.not_lt.1 hshort)]
    by_cases hbad : frameLength inbound.bytes = 0 ∨ frameLength inbound.bytes > kMaxDatagram
    · rw [if_pos hbad] at hnext
      simp only [Framing.unframe_bad hnext, if_pos hbad]
      exact ⟨trivial, trivial, trivial⟩
    · rw [if_neg hbad] at hnext
      by_cases hpartial : inbound.inboundLen < kFrameHeader + frameLength inbound.bytes
      · rw [if_pos hpartial] at hnext
        simp only [Framing.unframe_incomplete hnext, if_neg hbad, if_pos hpartial]
        exact ⟨trivial, trivial, trivial⟩
      · rw [if_neg hpartial] at hnext
        have hpayload : (inbound.contents.drop kFrameHeader).take (frameLength inbound.bytes) =
            (inbound.bytes.drop kFrameHeader).take (frameLength inbound.bytes) := by
          rw [Inbound.contents, List.drop_take, List.take_take, Nat.min_eq_left (by omega)]
        have hlt : (inbound.compact (kFrameHeader + frameLength inbound.bytes)).inboundLen <
            inbound.inboundLen := by
          simp only [Inbound.compact, kFrameHeader] at *
          omega
        have hrest :=
          deframeInbound_spec (inbound.compact (kFrameHeader + frameLength inbound.bytes))
        rw [inbound.contents_compact] at hrest
        simp only [Framing.unframe_frame hnext, if_neg hbad, if_neg hpartial]
        exact ⟨by rw [hrest.1, hpayload], hrest.2.1, hrest.2.2⟩
termination_by inbound.inboundLen

namespace Client

/-- The game to server half of a round. -/
def fromUdp (client : Client) : Option (Datagram × List SendResult) → Client × List Io
  | none => (client, [])
  | some (datagram, results) =>
      let written := sendAll results (frame datagram)
      ({ client with running := decide (written.returned = some true), gameKnown := true },
        [.recvfrom datagram, .write written])

/-- The server to game half of a round. -/
def fromTcp (client : Client) : Option RecvResult → Client × List Io
  | none => (client, [])
  | some (.bytes available) =>
      let chunk := available.take client.inbound.room
      if chunk = [] then ({ client with running := false }, [])
      else
        let deframed := deframeInbound (client.inbound.store available)
        ({ client with running := !deframed.2.2, inbound := deframed.2.1 },
          .recv chunk :: if client.gameKnown then deframed.1.map .sendto else [])
  | some _ => ({ client with running := false }, [])

/-- One round of the loop. -/
def step (client : Client) (event : ClientEvent) : Client × List Io :=
  if !client.running then (client, [])
  else
    match event with
    | .selectFailed => ({ client with running := false }, [])
    | .idle => (client, [])
    | .ready udp tcp =>
        let first := client.fromUdp udp
        if first.1.running then
          let second := first.1.fromTcp tcp
          (second.1, first.2 ++ second.2)
        else first

end Client

/-- The pump loop of `crossover-tunnel` as a machine. -/
def client : Machine Client ClientEvent Io where
  step := Client.step

end Tunnel
end Crossover
