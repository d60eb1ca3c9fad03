import Crossover.Lib.Framing
import Mathlib.Data.Nat.Bitwise

/-!
# Socket — what both ends of the tunnel do with their sockets

The frames of the TCP connection, the loops that write one, and a log of the system calls that
matter: datagrams taken from the UDP socket and handed to it, bytes taken from the TCP connection
and accepted by it.  What a system call returns is an input.
-/

namespace Crossover
namespace Tunnel

def kMaxDatagram : Nat := 2048
def kFrameHeader : Nat := 2

/-- What `recvfrom` returns with a positive length: at most the `kMaxDatagram` bytes it is given
room for. -/
structure Datagram where
  bytes : List UInt8
  nonempty : 0 < bytes.length
  bounded : bytes.length ≤ kMaxDatagram

/-! ## Frames -/

/-- `(n >> 8) & 0xFF` and `n & 0xFF`. -/
def frameHeader (n : Nat) : List UInt8 :=
  [UInt8.ofNat ((n >>> 8) &&& 0xFF), UInt8.ofNat (n &&& 0xFF)]

/-- `(inbound[0] << 8) | inbound[1]`. -/
def frameLength (inbound : List UInt8) : Nat :=
  ((inbound.getD 0 0).toNat <<< 8) ||| (inbound.getD 1 0).toNat

theorem frameLength_frameHeader {n : Nat} (h : n ≤ kMaxDatagram) :
    frameLength (frameHeader n) = n := by
  have hbound : n < 2 ^ 16 := Nat.lt_of_le_of_lt h (by decide)
  have hhigh : ((n >>> 8) &&& 0xFF) = n / 256 := by
    rw [Nat.shiftRight_eq_div_pow, Nat.and_two_pow_sub_one_eq_mod _ 8]
    omega
  have hlow : (n &&& 0xFF) = n % 256 := Nat.and_two_pow_sub_one_eq_mod n 8
  have hbyte : (UInt8.ofNat (n / 256)).toNat = n / 256 := by
    rw [UInt8.toNat_ofNat']
    omega
  have hbyte' : (UInt8.ofNat (n % 256)).toNat = n % 256 := by
    rw [UInt8.toNat_ofNat']
    omega
  have hvalue : frameLength (frameHeader n) = (n / 256) <<< 8 ||| n % 256 := by
    simp only [frameLength, frameHeader, List.getD_cons_zero, List.getD_cons_succ, hhigh, hlow,
      hbyte, hbyte']
  rw [hvalue, ← Nat.shiftLeft_add_eq_or_of_lt (by omega), Nat.shiftLeft_eq]
  omega

/-- The length is in the first two bytes. -/
theorem frameLength_take {inbound : List UInt8} {count : Nat} (h : kFrameHeader ≤ count) :
    frameLength (inbound.take count) = frameLength inbound := by
  have hfirst : 0 < count := Nat.lt_of_lt_of_le (by decide) h
  have hsecond : 1 < count := Nat.lt_of_lt_of_le (by decide) h
  simp only [frameLength, List.getD_eq_getElem?_getD, List.getElem?_take_of_lt hfirst,
    List.getElem?_take_of_lt hsecond]

/-- `[uint16 big-endian length][datagram]`. -/
def tunnelFraming : Framing UInt8 where
  header := kFrameHeader
  limit := kMaxDatagram
  spell := frameHeader
  lengthOf := frameLength
  header_pos := by decide
  length_spell := fun _ _ => rfl
  lengthOf_spell := fun _ h => frameLength_frameHeader h

/-- What a buffer begins with, in the source's terms. -/
theorem next_tunnelFraming (inbound : List UInt8) :
    tunnelFraming.next inbound =
      if inbound.length < kFrameHeader then .incomplete
      else if frameLength inbound = 0 ∨ frameLength inbound > kMaxDatagram then .bad
      else if inbound.length < kFrameHeader + frameLength inbound then .incomplete
      else
        .frame ((inbound.drop kFrameHeader).take (frameLength inbound))
          (inbound.drop (kFrameHeader + frameLength inbound)) := by
  have htake : frameLength (inbound.take kFrameHeader) = frameLength inbound :=
    frameLength_take (Nat.le_refl _)
  simp only [Framing.next, tunnelFraming, htake]

/-- `scratch` and `frame` once a datagram is in place behind the header. -/
def frame (datagram : Datagram) : List UInt8 :=
  frameHeader datagram.bytes.length ++ datagram.bytes

theorem Datagram.fits (datagram : Datagram) : tunnelFraming.Fits datagram.bytes :=
  ⟨datagram.nonempty, datagram.bounded⟩

/-! ## Writing a frame -/

/-- What a call of `send` comes to.  `wouldBlock` says whether `poll` has found the socket writable
in time. -/
inductive SendResult
  | wrote (count : Nat)
  | interrupted
  | wouldBlock (writable : Bool)
  | failed

/-- The bytes that a write loop's calls have accepted, and what the loop has returned, if it has. -/
structure Written where
  accepted : List UInt8
  returned : Option Bool

/-- `WriteAll` on the bytes that are still to be sent. -/
def writeAll : List SendResult → List UInt8 → Written
  | _, [] => { accepted := [], returned := some true }
  | [], _ => { accepted := [], returned := none }
  | .wrote 0 :: _, _ => { accepted := [], returned := some false }
  | .wrote (count + 1) :: results, data =>
      let more := writeAll results (data.drop (count + 1))
      { more with accepted := data.take (count + 1) ++ more.accepted }
  | .interrupted :: results, data => writeAll results data
  | .wouldBlock true :: results, data => writeAll results data
  | .wouldBlock false :: _, _ => { accepted := [], returned := some false }
  | .failed :: _, _ => { accepted := [], returned := some false }

/-- The client's send loop, which gives up on whatever is not progress. -/
def sendAll : List SendResult → List UInt8 → Written
  | _, [] => { accepted := [], returned := some true }
  | [], _ => { accepted := [], returned := none }
  | .wrote (count + 1) :: results, data =>
      let more := sendAll results (data.drop (count + 1))
      { more with accepted := data.take (count + 1) ++ more.accepted }
  | _ :: _, _ => { accepted := [], returned := some false }

/-- The bytes accepted are the first of the data, and all of it once the loop has returned true. -/
structure Written.Of (data : List UInt8) (written : Written) : Prop where
  beginning : written.accepted <+: data
  whole : written.returned = some true → written.accepted = data

theorem Written.Of.nothing (data : List UInt8) {returned : Option Bool}
    (h : returned ≠ some true) : Written.Of data { accepted := [], returned := returned } :=
  ⟨List.nil_prefix, fun heq => absurd heq h⟩

/-- The next call has accepted the first `count` bytes. -/
theorem Written.Of.advance {data : List UInt8} {count : Nat} {more : Written}
    (h : Written.Of (data.drop count) more) :
    Written.Of data { more with accepted := data.take count ++ more.accepted } := by
  refine ⟨?_, ?_⟩
  · have hboth : data.take count ++ more.accepted <+: data.take count ++ data.drop count :=
      (List.prefix_append_right_inj _).2 h.beginning
    rwa [List.take_append_drop] at hboth
  · intro hreturned
    have hrest := h.whole hreturned
    simp only [hrest, List.take_append_drop]

theorem written_writeAll (results : List SendResult) (data : List UInt8) :
    Written.Of data (writeAll results data) := by
  induction results, data using writeAll.induct with
  | case1 results => exact ⟨by simp [writeAll], fun _ => by simp [writeAll]⟩
  | case2 data hdata => simpa [writeAll] using Written.Of.nothing data (by simp)
  | case3 results data hdata => simpa [writeAll] using Written.Of.nothing data (by simp)
  | case4 count results data hdata ih => simpa [writeAll] using ih.advance
  | case5 results data hdata ih => simpa [writeAll] using ih
  | case6 results data hdata ih => simpa [writeAll] using ih
  | case7 results data hdata => simpa [writeAll] using Written.Of.nothing data (by simp)
  | case8 results data hdata => simpa [writeAll] using Written.Of.nothing data (by simp)

example : writeAll [.wrote 1, .interrupted, .wouldBlock true, .wrote 2] [7, 8, 9] =
    { accepted := [7, 8, 9], returned := some true } := rfl

theorem written_sendAll (results : List SendResult) (data : List UInt8) :
    Written.Of data (sendAll results data) := by
  induction results, data using sendAll.induct with
  | case1 results => exact ⟨by simp [sendAll], fun _ => by simp [sendAll]⟩
  | case2 data hdata => simpa [sendAll] using Written.Of.nothing data (by simp)
  | case3 count results data hdata ih => simpa [sendAll] using ih.advance
  | case4 result results data hdata hother =>
    simpa [sendAll] using Written.Of.nothing data (by simp)

/-! ## The log -/

/-- What a call of `recv` comes to: the bytes that the kernel has for it, none of them at the end of
the stream, or an error, which may be one to try again after. -/
inductive RecvResult
  | bytes (available : List UInt8)
  | again
  | failed

/-- A system call of an end of the tunnel. -/
inductive Io
  | recvfrom (datagram : Datagram)
  | write (written : Written)
  | recv (chunk : List UInt8)
  | sendto (payload : List UInt8)

/-- The datagrams taken from the UDP socket. -/
def datagrams (log : List Io) : List (List UInt8) :=
  log.filterMap fun io =>
    match io with
    | .recvfrom datagram => some datagram.bytes
    | _ => none

/-- The bytes that the TCP connection has accepted. -/
def acceptedBytes (log : List Io) : List UInt8 :=
  log.flatMap fun io =>
    match io with
    | .write written => written.accepted
    | _ => []

/-- The bytes taken from the TCP connection. -/
def receivedBytes (log : List Io) : List UInt8 :=
  log.flatMap fun io =>
    match io with
    | .recv chunk => chunk
    | _ => []

/-- The payloads handed to the UDP socket. -/
def payloads (log : List Io) : List (List UInt8) :=
  log.filterMap fun io =>
    match io with
    | .sendto payload => some payload
    | _ => none

/-- No write has failed or is still going on. -/
def AllWritten (log : List Io) : Prop :=
  ∀ written, Io.write written ∈ log → written.returned = some true

end Tunnel
end Crossover
