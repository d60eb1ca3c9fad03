import Crossover.Tunnel.Fidelity

/-!
# Buffer — the receive buffer as the program has it

In `Client` the buffer carries its bounds with it.  Here it is an array with a `size_t` beside it
whose arithmetic wraps, and every access to the array is logged with the length at that moment.  A
`Receiver` in the state of a `Client` does what the client does, and stays within the bounds.
-/

namespace Crossover
namespace Tunnel

/-! ## The program's arithmetic -/

/-- The two builds that the source's header gives; they differ in the width of `size_t`. -/
inductive Build
  | native
  | i686
  deriving DecidableEq, Repr

namespace Build

def sizeBits : Build → Nat
  | .native => 64
  | .i686 => 32

/-- `a + b` on `size_t`. -/
def add (build : Build) (a b : Nat) : Nat :=
  (a + b) % 2 ^ build.sizeBits

/-- `a - b` on `size_t`, which wraps below zero. -/
def sub (build : Build) (a b : Nat) : Nat :=
  (a + 2 ^ build.sizeBits - b) % 2 ^ build.sizeBits

theorem lt_two_pow (build : Build) {a : Nat} (h : a < 2 ^ 32) : a < 2 ^ build.sizeBits := by
  cases build with
  | native => exact Nat.lt_trans h (by decide)
  | i686 => exact h

theorem add_eq (build : Build) {a b : Nat} (h : a + b < 2 ^ 32) : build.add a b = a + b :=
  Nat.mod_eq_of_lt (build.lt_two_pow h)

theorem sub_eq (build : Build) {a b : Nat} (hle : b ≤ a) (h : a < 2 ^ 32) :
    build.sub a b = a - b := by
  have hfits := build.lt_two_pow h
  have hwrapped : a + 2 ^ build.sizeBits - b = (a - b) + 2 ^ build.sizeBits := by omega
  rw [sub, hwrapped, Nat.add_mod_right]
  exact Nat.mod_eq_of_lt (by omega)

end Build

/-- `(int)a` for a `size_t`. -/
def toInt (a : Nat) : Int :=
  Int.bmod a (2 ^ 32)

theorem toInt_eq {a : Nat} (h : a < 2 ^ 31) : toInt a = a :=
  Int.bmod_eq_of_le (by omega) (by omega)

/-! ## Accesses -/

/-- `sizeof(inbound)`. -/
def sizeofInbound : Nat := kMaxDatagram * 4

/-- What happens to the array, each time with `inboundLen` as it is then. -/
inductive Access
  /-- `recv(tcp, inbound + offset, requested, 0)`. -/
  | recv (inboundLen offset : Nat) (requested : Int)
  /-- `inboundLen += n` is done. -/
  | stored (inboundLen : Nat)
  /-- `inbound[0]` and `inbound[1]` are read. -/
  | header (inboundLen : Nat)
  /-- `sendto(udp, inbound + offset, length, ..)`. -/
  | sendto (inboundLen offset : Nat) (length : Int)
  /-- `memmove(inbound, inbound + source, length)`, and `inboundLen -= source`. -/
  | memmove (inboundLen source length : Nat)
  deriving DecidableEq, Repr

/-- A request asks for something and for no more than there is room for behind what is buffered;
the rest stays within the first `inboundLen` bytes. -/
def Access.InBounds : Access → Prop
  | .recv inboundLen offset requested =>
      inboundLen ≤ kFrameHeader + kMaxDatagram - 1 ∧ offset = inboundLen ∧ 0 < requested ∧
        offset + requested = sizeofInbound
  | .stored inboundLen => inboundLen ≤ sizeofInbound
  | .header inboundLen => kFrameHeader ≤ inboundLen ∧ inboundLen ≤ sizeofInbound
  | .sendto inboundLen offset length => 0 ≤ length ∧ offset + length ≤ inboundLen
  | .memmove inboundLen source length =>
      source ≤ inboundLen ∧ length = inboundLen - source ∧ source + length ≤ inboundLen

/-! ## The loop -/

/-- The variables of `main` that the receiving side uses.  `stuck` is not one of them: it says that
the de-framing loop is still running after as many rounds as there were bytes. -/
structure Receiver where
  running : Bool := true
  gameKnown : Bool := false
  inbound : List UInt8 := List.replicate sizeofInbound 0
  inboundLen : Nat := 0
  stuck : Bool := false

/-- How the de-framing loop is left. -/
inductive LoopEnd
  | waits
  | badFrame
  | unfinished
  deriving DecidableEq, Repr

/-- `memmove` to the beginning of the array. -/
def memmove (array : List UInt8) (source length : Nat) : List UInt8 :=
  (array.drop source).take length ++ array.drop length

namespace Receiver

/-- The de-framing loop, for at most `rounds` rounds. -/
def deframeLoop (build : Build) : Nat → Receiver → Receiver × List Access × LoopEnd
  | 0, receiver =>
      if receiver.inboundLen ≥ kFrameHeader then (receiver, [], .unfinished)
      else (receiver, [], .waits)
  | rounds + 1, receiver =>
      if receiver.inboundLen ≥ kFrameHeader then
        let header := Access.header receiver.inboundLen
        let len := frameLength receiver.inbound
        if len = 0 ∨ len > kMaxDatagram then (receiver, [header], .badFrame)
        else if receiver.inboundLen < build.add kFrameHeader len then (receiver, [header], .waits)
        else
          let source := build.add kFrameHeader len
          let length := build.sub receiver.inboundLen source
          let sent :=
            if receiver.gameKnown then
              [Access.sendto receiver.inboundLen kFrameHeader (toInt len)]
            else []
          let rest := deframeLoop build rounds { receiver with
            inbound := memmove receiver.inbound source length
            inboundLen := length }
          (rest.1, header :: sent ++ .memmove receiver.inboundLen source length :: rest.2.1,
            rest.2.2)
      else (receiver, [], .waits)

/-- The game to server half of a round, which leaves the array alone. -/
def fromUdp (receiver : Receiver) : Option (Datagram × List SendResult) → Receiver
  | none => receiver
  | some (datagram, results) =>
      { receiver with
        running := decide ((sendAll results (frame datagram)).returned = some true)
        gameKnown := true }

/-- The server to game half of a round. -/
def fromTcp (build : Build) (receiver : Receiver) : Option RecvResult → Receiver × List Access
  | none => (receiver, [])
  | some result =>
      let requested := toInt (build.sub sizeofInbound receiver.inboundLen)
      let call := Access.recv receiver.inboundLen receiver.inboundLen requested
      match result with
      | .bytes available =>
          -- A request of no length returns nothing, like the end of the stream.
          let chunk := available.take requested.toNat
          if chunk = [] then ({ receiver with running := false }, [call])
          else
            let inboundLen := build.add receiver.inboundLen chunk.length
            let inbound := receiver.inbound.take receiver.inboundLen ++ chunk ++
              receiver.inbound.drop (receiver.inboundLen + chunk.length)
            let deframed := deframeLoop build inboundLen
              { receiver with inbound := inbound, inboundLen := inboundLen }
            ({ deframed.1 with
                running := decide (deframed.2.2 ≠ .badFrame)
                stuck := decide (deframed.2.2 = .unfinished) },
              call :: .stored inboundLen :: deframed.2.1)
      | _ => ({ receiver with running := false }, [call])

/-- One round of the loop. -/
def step (build : Build) (receiver : Receiver) (event : ClientEvent) : Receiver × List Access :=
  if !receiver.running then (receiver, [])
  else
    match event with
    | .selectFailed => ({ receiver with running := false }, [])
    | .idle => (receiver, [])
    | .ready udp tcp =>
        let first := receiver.fromUdp udp
        if first.running then first.fromTcp build tcp else (first, [])

end Receiver

/-- The pump loop of `crossover-tunnel` with its array. -/
def receiver (build : Build) : Machine Receiver ClientEvent Access where
  step := Receiver.step build

/-! ## What a client does -/

/-- The variables of a client. -/
def Receiver.of (client : Client) : Receiver where
  running := client.running
  gameKnown := client.gameKnown
  inbound := client.inbound.bytes
  inboundLen := client.inbound.inboundLen

theorem Inbound.inboundLen_le (inbound : Inbound) : inbound.inboundLen ≤ 8192 :=
  inbound.inside

/-- A frame that is there takes its header away at least. -/
theorem Inbound.compact_frame_lt {inbound : Inbound} (h : kFrameHeader ≤ inbound.inboundLen)
    (len : Nat) : (inbound.compact (kFrameHeader + len)).inboundLen < inbound.inboundLen :=
  Nat.sub_lt (Nat.lt_of_lt_of_le (by decide) h)
    (Nat.lt_of_lt_of_le (by decide) (Nat.le_add_right kFrameHeader len))

/-- What is done with a frame that is there. -/
theorem inBounds_frame {inboundLen len : Nat} (h : kFrameHeader + len ≤ inboundLen) :
    (Access.sendto inboundLen kFrameHeader len).InBounds ∧
      (Access.memmove inboundLen (kFrameHeader + len)
        (inboundLen - (kFrameHeader + len))).InBounds := by
  refine ⟨⟨Int.natCast_nonneg _, by exact_mod_cast h⟩, h, rfl, ?_⟩
  exact Nat.le_of_eq (Nat.add_sub_cancel' h)

/-- Given as many rounds as there are bytes, the loop does what `deframeInbound` does, and stays
within the bounds. -/
theorem deframeLoop_of (build : Build) (client : Client) (inbound : Inbound) {rounds : Nat}
    (hrounds : inbound.inboundLen ≤ rounds) :
    ∃ accesses, (∀ access ∈ accesses, Access.InBounds access) ∧
      Receiver.deframeLoop build rounds (.of { client with inbound := inbound }) =
        (.of { client with inbound := (deframeInbound inbound).2.1 }, accesses,
          if (deframeInbound inbound).2.2 then .badFrame else .waits) := by
  have hsize := inbound.inboundLen_le
  have hinside : inbound.inboundLen ≤ sizeofInbound := inbound.inside
  have hlen : (Receiver.of { client with inbound := inbound }).inboundLen =
      inbound.inboundLen := rfl
  have hbytes : (Receiver.of { client with inbound := inbound }).inbound = inbound.bytes := rfl
  rw [deframeInbound]
  by_cases hshort : inbound.inboundLen ≥ kFrameHeader
  swap
  -- Not even a header is there.
  · rw [if_neg hshort]
    cases rounds <;> exact ⟨[], by simp, by rw [Receiver.deframeLoop, hlen, if_neg hshort]; rfl⟩
  have hheader : (Access.header inbound.inboundLen).InBounds := ⟨hshort, hinside⟩
  -- A header takes up two bytes, so there is a round left for it.
  cases rounds with
  | zero =>
    have hpos : kFrameHeader ≤ 0 := Nat.le_trans hshort hrounds
    simp [kFrameHeader] at hpos
  | succ rounds =>
    rw [if_pos hshort, Receiver.deframeLoop, hlen, if_pos hshort]
    simp only [hbytes]
    by_cases hbad : frameLength inbound.bytes = 0 ∨ frameLength inbound.bytes > kMaxDatagram
    · simp only [if_pos hbad]
      exact ⟨[.header inbound.inboundLen], by simpa using hheader, rfl⟩
    · have hframe : frameLength inbound.bytes ≤ kMaxDatagram := by omega
      -- The length comes from two bytes and is at most 2048, so nothing wraps around.
      have hadd : build.add kFrameHeader (frameLength inbound.bytes) =
          kFrameHeader + frameLength inbound.bytes :=
        build.add_eq (by simp only [kFrameHeader, kMaxDatagram] at hframe ⊢; omega)
      simp only [if_neg hbad, hadd]
      by_cases hpart : inbound.inboundLen < kFrameHeader + frameLength inbound.bytes
      · simp only [if_pos hpart]
        exact ⟨[.header inbound.inboundLen], by simpa using hheader, rfl⟩
      · simp only [if_neg hpart]
        have hle : kFrameHeader + frameLength inbound.bytes ≤ inbound.inboundLen :=
          Nat.not_lt.1 hpart
        have hsub : build.sub inbound.inboundLen (kFrameHeader + frameLength inbound.bytes) =
            inbound.inboundLen - (kFrameHeader + frameLength inbound.bytes) :=
          build.sub_eq hle (by omega)
        have hint : toInt (frameLength inbound.bytes) = frameLength inbound.bytes :=
          toInt_eq (by simp only [kMaxDatagram] at hframe; omega)
        rw [hsub, hint]
        -- What is moved to the front is the compacted buffer of the client.
        have hsmaller := Inbound.compact_frame_lt hshort (frameLength inbound.bytes)
        have hfewer : (inbound.compact (kFrameHeader + frameLength inbound.bytes)).inboundLen ≤
            rounds :=
          Nat.le_of_lt_succ (Nat.lt_of_lt_of_le hsmaller hrounds)
        rcases deframeLoop_of build client _ hfewer with ⟨accesses, hbounds, hloop⟩
        have hmoved : ({ Receiver.of { client with inbound := inbound } with
              inbound := memmove inbound.bytes (kFrameHeader + frameLength inbound.bytes)
                (inbound.inboundLen - (kFrameHeader + frameLength inbound.bytes))
              inboundLen := inbound.inboundLen - (kFrameHeader + frameLength inbound.bytes) } :
              Receiver) =
            .of { client with
              inbound := inbound.compact (kFrameHeader + frameLength inbound.bytes) } := rfl
        rw [hmoved, hloop]
        refine ⟨_, ?_, rfl⟩
        rcases inBounds_frame hle with ⟨hsent, hmove⟩
        intro access hmem
        simp only [List.cons_append, List.mem_cons, List.mem_append] at hmem
        rcases hmem with rfl | hmem | rfl | hmem
        · exact hheader
        · split at hmem
          · rw [List.mem_singleton.1 hmem]
            exact hsent
          · cases hmem
        · exact hmove
        · exact hbounds access hmem
termination_by inbound.inboundLen

/-- The receiving side of a client that keeps less than a frame. -/
theorem fromTcp_of (build : Build) (client : Client)
    (hroomy : client.inbound.inboundLen < kFrameHeader + kMaxDatagram)
    (result : Option RecvResult) :
    ((Receiver.of client).fromTcp build result).1 = .of (client.fromTcp result).1 ∧
      ∀ access ∈ ((Receiver.of client).fromTcp build result).2, access.InBounds := by
  cases result with
  | none => exact ⟨rfl, by simp [Receiver.fromTcp]⟩
  | some result =>
    have hlt : client.inbound.inboundLen < 2050 := hroomy
    have hroom : build.sub sizeofInbound client.inbound.inboundLen = client.inbound.room :=
      build.sub_eq client.inbound.inside (by decide)
    have hroomLe : client.inbound.room ≤ 8192 := Nat.sub_le _ _
    have hrequest : toInt client.inbound.room = client.inbound.room := toInt_eq (by omega)
    have hcall : (Access.recv client.inbound.inboundLen client.inbound.inboundLen
        client.inbound.room).InBounds := by
      have hsize : sizeofInbound = 8192 := rfl
      have hdef : client.inbound.room = 8192 - client.inbound.inboundLen := rfl
      refine ⟨Nat.le_sub_one_of_lt hroomy, rfl, ?_, ?_⟩ <;> omega
    have hlen : (Receiver.of client).inboundLen = client.inbound.inboundLen := rfl
    have hbytes : (Receiver.of client).inbound = client.inbound.bytes := rfl
    cases result with
    | again =>
      simp only [Receiver.fromTcp, hlen, hroom, hrequest]
      exact ⟨rfl, by simpa using hcall⟩
    | failed =>
      simp only [Receiver.fromTcp, hlen, hroom, hrequest]
      exact ⟨rfl, by simpa using hcall⟩
    | bytes available =>
      simp only [Receiver.fromTcp, Client.fromTcp, hlen, hbytes, hroom, hrequest, Int.toNat_natCast]
      by_cases hempty : available.take client.inbound.room = []
      · simp only [if_pos hempty]
        exact ⟨rfl, by simpa using hcall⟩
      · simp only [if_neg hempty]
        have hchunk : (available.take client.inbound.room).length ≤ client.inbound.room :=
          List.length_take_le _ _
        have hfull := (client.inbound.store available).inboundLen_le
        have hadd : build.add client.inbound.inboundLen
            (available.take client.inbound.room).length =
              (client.inbound.store available).inboundLen := by
          refine build.add_eq ?_
          simp only [Inbound.store] at hfull
          omega
        rw [hadd]
        rcases deframeLoop_of build client (client.inbound.store available) (Nat.le_refl _) with
          ⟨accesses, hbounds, hloop⟩
        have hstored : ({ Receiver.of client with
              inbound := client.inbound.bytes.take client.inbound.inboundLen ++
                available.take client.inbound.room ++ client.inbound.bytes.drop
                  (client.inbound.inboundLen + (available.take client.inbound.room).length)
              inboundLen := (client.inbound.store available).inboundLen } : Receiver) =
            .of { client with inbound := client.inbound.store available } := rfl
        rw [hstored, hloop]
        refine ⟨?_, ?_⟩
        · cases (deframeInbound (client.inbound.store available)).2.2 <;> rfl
        · intro access hmem
          simp only [List.mem_cons] at hmem
          rcases hmem with rfl | rfl | hmem
          · exact hcall
          · exact hfull
          · exact hbounds access hmem

theorem fromUdp_of (client : Client) (received : Option (Datagram × List SendResult)) :
    (Receiver.of client).fromUdp received = .of (client.fromUdp received).1 := by
  cases received with
  | none => rfl
  | some received => rfl

theorem step_of (build : Build) {client : Client} (hroomy : client.running = true →
    client.inbound.inboundLen < kFrameHeader + kMaxDatagram) (event : ClientEvent) :
    ((Receiver.of client).step build event).1 = .of (client.step event).1 ∧
      ∀ access ∈ ((Receiver.of client).step build event).2, access.InBounds := by
  have hsame : (Receiver.of client).running = client.running := rfl
  cases hrunning : client.running with
  | false => simp [Receiver.step, Client.step, hsame, hrunning]
  | true =>
    simp only [Receiver.step, Client.step, hsame, hrunning, Bool.not_true, Bool.false_eq_true,
      if_false]
    cases event with
    | selectFailed => exact ⟨rfl, by simp⟩
    | idle => exact ⟨rfl, by simp⟩
    | ready udp tcp =>
      have hinbound : (client.fromUdp udp).1.inbound = client.inbound := by
        cases udp <;> rfl
      simp only
      rw [fromUdp_of]
      cases hon : (client.fromUdp udp).1.running with
      | false =>
        have hoff : (Receiver.of (client.fromUdp udp).1).running = false := hon
        simp [hoff]
      | true =>
        have hstays : (Receiver.of (client.fromUdp udp).1).running = true := hon
        simp only [hstays, if_true]
        exact fromTcp_of build _ (by rw [hinbound]; exact hroomy hrunning) tcp

/-- The program is always in the state of a client. -/
theorem state_receiver (build : Build) (events : List ClientEvent) :
    (receiver build).state {} events = .of (client.state {} events) ∧
      ∀ access ∈ (receiver build).log {} events, access.InBounds := by
  induction events using List.reverseRecOn with
  | nil =>
    refine ⟨rfl, ?_⟩
    intro access hmem
    cases hmem
  | append_singleton events event ih =>
    rcases ih with ⟨hstate, hlog⟩
    have hstep := step_of build (clientInv_run events).roomy event
    rw [Machine.state_snoc, Machine.state_snoc, Machine.log_snoc, hstate]
    refine ⟨hstep.1, ?_⟩
    intro access hmem
    rcases List.mem_append.1 hmem with hold | hnew
    · exact hlog access hold
    · exact hstep.2 access hnew

/-- Whatever `recv` returns in whatever pieces, there is always less than a frame in the array when
more is asked for, every access is within the bounds, and the de-framing loop ends. -/
theorem receive_buffer_bounded (build : Build) (events : List ClientEvent) :
    (∀ access ∈ (receiver build).log {} events, access.InBounds) ∧
      (receiver build).StatesSatisfy
        (fun state => state.inboundLen ≤ sizeofInbound ∧ state.inbound.length = sizeofInbound ∧
          state.stuck = false) {} events := by
  refine ⟨(state_receiver build events).2, ?_⟩
  intro before _
  rw [(state_receiver build before).1]
  exact ⟨(client.state {} before).inbound.inside, (client.state {} before).inbound.size, rfl⟩

end Tunnel
end Crossover
