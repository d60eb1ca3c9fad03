import Crossover.Tunnel.Fidelity

/-!
# Deframing — the two ends take the same frames off the same bytes

`PumpConnection` keeps what it has received in a vector, `crossover-tunnel` in an array of fixed
size.  Both take the complete frames off the stream, however it is cut, and stop at the first header
that no frame has.
-/

namespace Crossover
namespace Tunnel

open History

/-! ## The loops end -/

/-- The loop of `PumpConnection` as it stands, without a bound: each constructor is a way in which a
round can go. -/
inductive DeframeLoop : List UInt8 → List (List UInt8) → List UInt8 → Bool → Prop
  | short {inbound : List UInt8} (h : inbound.length < kFrameHeader) :
      DeframeLoop inbound [] inbound false
  | fatal {inbound : List UInt8} (h : kFrameHeader ≤ inbound.length)
      (hbad : frameLength inbound = 0 ∨ frameLength inbound > kMaxDatagram) :
      DeframeLoop inbound [] inbound true
  | wait {inbound : List UInt8} (h : kFrameHeader ≤ inbound.length)
      (hgood : ¬ (frameLength inbound = 0 ∨ frameLength inbound > kMaxDatagram))
      (hpart : inbound.length < kFrameHeader + frameLength inbound) :
      DeframeLoop inbound [] inbound false
  | frame {inbound rest : List UInt8} {sent : List (List UInt8)} {fatal : Bool}
      (h : kFrameHeader ≤ inbound.length)
      (hgood : ¬ (frameLength inbound = 0 ∨ frameLength inbound > kMaxDatagram))
      (hwhole : ¬ inbound.length < kFrameHeader + frameLength inbound)
      (hmore : DeframeLoop (inbound.drop (kFrameHeader + frameLength inbound)) sent rest fatal) :
      DeframeLoop inbound ((inbound.drop kFrameHeader).take (frameLength inbound) :: sent) rest
        fatal

/-- The loop of `crossover-tunnel` as it stands. -/
inductive DeframeInboundLoop : Inbound → List (List UInt8) → Inbound → Bool → Prop
  | short {inbound : Inbound} (h : inbound.inboundLen < kFrameHeader) :
      DeframeInboundLoop inbound [] inbound false
  | fatal {inbound : Inbound} (h : kFrameHeader ≤ inbound.inboundLen)
      (hbad : frameLength inbound.bytes = 0 ∨ frameLength inbound.bytes > kMaxDatagram) :
      DeframeInboundLoop inbound [] inbound true
  | wait {inbound : Inbound} (h : kFrameHeader ≤ inbound.inboundLen)
      (hgood : ¬ (frameLength inbound.bytes = 0 ∨ frameLength inbound.bytes > kMaxDatagram))
      (hpart : inbound.inboundLen < kFrameHeader + frameLength inbound.bytes) :
      DeframeInboundLoop inbound [] inbound false
  | frame {inbound rest : Inbound} {sent : List (List UInt8)} {fatal : Bool}
      (h : kFrameHeader ≤ inbound.inboundLen)
      (hgood : ¬ (frameLength inbound.bytes = 0 ∨ frameLength inbound.bytes > kMaxDatagram))
      (hwhole : ¬ inbound.inboundLen < kFrameHeader + frameLength inbound.bytes)
      (hmore : DeframeInboundLoop (inbound.compact (kFrameHeader + frameLength inbound.bytes)) sent
        rest fatal) :
      DeframeInboundLoop inbound
        ((inbound.bytes.drop kFrameHeader).take (frameLength inbound.bytes) :: sent) rest fatal

theorem deframe_ends (inbound : List UInt8) :
    DeframeLoop inbound (deframe inbound).1 (deframe inbound).2.1 (deframe inbound).2.2 := by
  fun_induction deframe inbound with
  | case1 inbound h len hbad => exact .fatal h hbad
  | case2 inbound h len hgood hpart => exact .wait h hgood hpart
  | case3 inbound h len hgood hwhole rest ih => exact .frame h hgood hwhole ih
  | case4 inbound h => exact .short (Nat.not_le.1 h)

theorem deframeInbound_ends (inbound : Inbound) :
    DeframeInboundLoop inbound (deframeInbound inbound).1 (deframeInbound inbound).2.1
      (deframeInbound inbound).2.2 := by
  fun_induction deframeInbound inbound with
  | case1 inbound h len hbad => exact .fatal h hbad
  | case2 inbound h len hgood hpart => exact .wait h hgood hpart
  | case3 inbound h len hgood hwhole rest ih => exact .frame h hgood hwhole ih
  | case4 inbound h => exact .short (Nat.not_le.1 h)

/-! ## What the streams consist of -/

/-- Two bytes spell one length. -/
theorem canonical_tunnelFraming : tunnelFraming.Canonical := by
  intro header hlength hle
  rcases List.length_eq_two.1 hlength with ⟨high, low, rfl⟩
  have hhigh := high.toNat_lt
  have hlow := low.toNat_lt
  have hvalue : frameLength [high, low] = high.toNat * 256 + low.toNat := by
    have hor : frameLength [high, low] = high.toNat <<< 8 ||| low.toNat := rfl
    rw [hor, ← Nat.shiftLeft_add_eq_or_of_lt hlow, Nat.shiftLeft_eq]
  have hfirst : (frameLength [high, low] >>> 8) &&& 0xFF = high.toNat := by
    rw [hvalue, Nat.shiftRight_eq_div_pow, Nat.and_two_pow_sub_one_eq_mod _ 8]
    omega
  have hsecond : frameLength [high, low] &&& 0xFF = low.toNat := by
    rw [hvalue, Nat.and_two_pow_sub_one_eq_mod _ 8]
    omega
  show frameHeader (frameLength [high, low]) = [high, low]
  rw [frameHeader, hfirst, hsecond, UInt8.ofNat_toNat, UInt8.ofNat_toNat]

/-- The payloads in a stream, what is behind them and whether that is an error: the complete frames
before the first header whose length is 0 or exceeds `kMaxDatagram`, and either that header or less
than a frame. -/
structure Parsed (stream : List UInt8) (sent : List (List UInt8)) (rest : List UInt8)
    (bad : Bool) : Prop where
  stream : stream = sent.flatMap (fun payload => frameHeader payload.length ++ payload) ++ rest
  lengths : ∀ payload ∈ sent, 0 < payload.length ∧ payload.length ≤ kMaxDatagram
  error : bad = true → kFrameHeader ≤ rest.length ∧
    (frameLength rest = 0 ∨ frameLength rest > kMaxDatagram)
  incomplete : bad = false → rest.length < kFrameHeader ∨
    ¬ (frameLength rest = 0 ∨ frameLength rest > kMaxDatagram) ∧
      rest.length < kFrameHeader + frameLength rest

theorem parsed_unframe (stream : List UInt8) :
    Parsed stream (tunnelFraming.unframe stream).payloads (tunnelFraming.unframe stream).rest
      (tunnelFraming.unframe stream).bad := by
  have hsplits := Framing.splits_unframe canonical_tunnelFraming stream
  have hstuck := hsplits.stuck
  rw [next_tunnelFraming] at hstuck
  generalize tunnelFraming.unframe stream = split at hsplits hstuck
  refine ⟨hsplits.stream, fun p hp => ⟨(hsplits.fits p hp).nonempty, (hsplits.fits p hp).bounded⟩,
    ?_, ?_⟩
  · intro hbad
    rw [hbad, if_pos rfl] at hstuck
    split_ifs at hstuck with hshort hlength
    exact ⟨Nat.not_lt.1 hshort, hlength⟩
  · intro hgood
    rw [hgood, if_neg Bool.false_ne_true] at hstuck
    split_ifs at hstuck with hshort hlength hpart
    · exact Or.inl hshort
    · exact Or.inr ⟨hlength, hpart⟩

/-! ## Feeding the two ends -/

/-- The server's end finds these bytes on the connection. -/
def pumpReceives (chunk : List UInt8) : PumpEvent :=
  .ready false (some (.bytes chunk)) none

/-- The player's end finds these bytes on the connection. -/
def clientReceives (chunk : List UInt8) : ClientEvent :=
  .ready none (some (.bytes chunk))

/-- The player's end once the game has sent something. -/
def playing : Client where
  gameKnown := true

/-- The chunk fits into `scratch`. -/
def FitsScratch (chunk : List UInt8) : Prop :=
  chunk ≠ [] ∧ chunk.length ≤ kMaxDatagram + kFrameHeader

/-- The chunk fits behind what is in the array, if the loop still runs. -/
def FitsInbound (before : List (List UInt8)) (chunk : List UInt8) : Prop :=
  let state := client.state playing (before.map clientReceives)
  chunk ≠ [] ∧ (state.running = true → chunk.length ≤ state.inbound.room)

/-- An end has handed on what has been taken off. -/
structure Hands (running : Bool) (buffer : List UInt8) (log : List Io)
    (fed : Framing.Unframed UInt8) : Prop where
  running : running = !fed.bad
  buffer : buffer = fed.rest
  payloads : payloads log = fed.payloads

theorem step_pumpReceives {state : Pump} (hrunning : state.running = true) {chunk : List UInt8}
    (h : FitsScratch chunk) :
    pump.step state (pumpReceives chunk) =
      ({ state with
          running := !(tunnelFraming.unframe (state.inbound ++ chunk)).bad
          inbound := (tunnelFraming.unframe (state.inbound ++ chunk)).rest },
        .recv chunk ::
          (tunnelFraming.unframe (state.inbound ++ chunk)).payloads.map .sendto) := by
  have htake : chunk.take (kMaxDatagram + kFrameHeader) = chunk := List.take_of_length_le h.2
  have hstep : pump.step state (pumpReceives chunk) = Pump.step state (pumpReceives chunk) := rfl
  rw [hstep]
  simp only [Pump.step, hrunning, pumpReceives, Pump.fromTcp, htake, if_neg h.1, deframe_eq,
    Pump.fromUdp, Bool.not_true, Bool.false_eq_true, if_false, List.append_nil]
  split <;> rfl

theorem step_clientReceives {state : Client} (hrunning : state.running = true)
    (hgame : state.gameKnown = true) {chunk : List UInt8} (hne : chunk ≠ [])
    (hle : chunk.length ≤ state.inbound.room) :
    let result := client.step state (clientReceives chunk)
    result.1.running = !(tunnelFraming.unframe (state.inbound.contents ++ chunk)).bad ∧
      result.1.gameKnown = true ∧
      result.1.inbound.contents =
        (tunnelFraming.unframe (state.inbound.contents ++ chunk)).rest ∧
      result.2 = .recv chunk ::
        (tunnelFraming.unframe (state.inbound.contents ++ chunk)).payloads.map .sendto := by
  have htake : chunk.take state.inbound.room = chunk := List.take_of_length_le hle
  -- The chunk fits behind what is buffered, so none of it is cut off.
  have hstore := state.inbound.contents_store chunk
  rw [htake] at hstore
  rcases deframeInbound_spec (state.inbound.store chunk) with ⟨hsent, hrest, hbad⟩
  rw [hstore] at hsent hrest hbad
  have hresult : client.step state (clientReceives chunk) =
      ({ state with
          running := !(deframeInbound (state.inbound.store chunk)).2.2
          inbound := (deframeInbound (state.inbound.store chunk)).2.1 },
        .recv chunk :: (deframeInbound (state.inbound.store chunk)).1.map .sendto) := by
    have hstep : client.step state (clientReceives chunk) =
        Client.step state (clientReceives chunk) := rfl
    rw [hstep]
    simp only [Client.step, hrunning, clientReceives, Client.fromUdp, Client.fromTcp, htake,
      if_neg hne, hgame, Bool.not_true, Bool.false_eq_true, if_false, if_true, List.nil_append]
  intro result
  have hsame : result = client.step state (clientReceives chunk) := rfl
  rw [hsame, hresult]
  exact ⟨by rw [hbad], hgame, hrest, by rw [hsent]⟩

theorem pump_hands {chunks : List (List UInt8)} (h : ∀ chunk ∈ chunks, FitsScratch chunk) :
    Hands (pump.state {} (chunks.map pumpReceives)).running
      (pump.state {} (chunks.map pumpReceives)).inbound (pump.log {} (chunks.map pumpReceives))
      (chunks.foldl tunnelFraming.feed (tunnelFraming.unframe [])) := by
  induction chunks using List.reverseRecOn with
  | nil =>
    rw [List.foldl_nil, Framing.unframe_nil]
    exact ⟨rfl, rfl, rfl⟩
  | append_singleton chunks chunk ih =>
    have hbefore := ih fun c hc => h c (List.mem_append_left _ hc)
    have hfits := h chunk (by simp)
    rw [List.map_append, List.map_singleton, Machine.state_snoc, Machine.log_snoc,
      List.foldl_append, List.foldl_cons, List.foldl_nil]
    generalize pump.state {} (chunks.map pumpReceives) = state,
      pump.log {} (chunks.map pumpReceives) = log,
      chunks.foldl tunnelFraming.feed (tunnelFraming.unframe []) = fed at hbefore ⊢
    rcases hbefore with ⟨hrunning, hbuffer, hpayloads⟩
    cases hbad : fed.bad with
    -- A bad header stopped the pump; the rest of the stream is not looked at.
    | true =>
      rw [hbad] at hrunning
      have hstep : pump.step state (pumpReceives chunk) = (state, []) := by
        simp [pump, Pump.step, hrunning]
      rw [hstep, Framing.feed, hbad, if_pos rfl, List.append_nil]
      exact ⟨by rw [hrunning, hbad], hbuffer, hpayloads⟩
    | false =>
      rw [hbad] at hrunning
      rw [step_pumpReceives hrunning hfits, hbuffer, Framing.feed, hbad,
        if_neg Bool.false_ne_true]
      refine ⟨rfl, rfl, ?_⟩
      rw [payloads_append, payloads_received, hpayloads]

theorem client_hands {chunks : List (List UInt8)} (h : Every FitsInbound chunks) :
    Hands (client.state playing (chunks.map clientReceives)).running
        (client.state playing (chunks.map clientReceives)).inbound.contents
        (client.log playing (chunks.map clientReceives))
        (chunks.foldl tunnelFraming.feed (tunnelFraming.unframe [])) ∧
      (client.state playing (chunks.map clientReceives)).gameKnown = true := by
  induction chunks using List.reverseRecOn with
  | nil =>
    rw [List.foldl_nil, Framing.unframe_nil]
    exact ⟨⟨rfl, rfl, rfl⟩, rfl⟩
  | append_singleton chunks chunk ih =>
    rcases every_snoc.1 h with ⟨hearlier, hne, hfits⟩
    have hbefore := ih hearlier
    rw [List.map_append, List.map_singleton, Machine.state_snoc, Machine.log_snoc,
      List.foldl_append, List.foldl_cons, List.foldl_nil]
    generalize client.state playing (chunks.map clientReceives) = state,
      client.log playing (chunks.map clientReceives) = log,
      chunks.foldl tunnelFraming.feed (tunnelFraming.unframe []) = fed at hbefore hfits ⊢
    rcases hbefore with ⟨⟨hrunning, hbuffer, hpayloads⟩, hgame⟩
    cases hbad : fed.bad with
    | true =>
      rw [hbad] at hrunning
      have hstep : client.step state (clientReceives chunk) = (state, []) := by
        simp [client, Client.step, hrunning]
      rw [hstep, Framing.feed, hbad, if_pos rfl, List.append_nil]
      exact ⟨⟨by rw [hrunning, hbad], hbuffer, hpayloads⟩, hgame⟩
    | false =>
      rw [hbad] at hrunning
      -- Room for the chunk is only promised while the client runs.
      rcases step_clientReceives hrunning hgame hne (hfits hrunning) with
        ⟨hrunning', hgame', hbuffer', hsent⟩
      rw [hbuffer] at hrunning' hbuffer' hsent
      rw [Framing.feed, hbad, if_neg Bool.false_ne_true]
      refine ⟨⟨hrunning', hbuffer', ?_⟩, hgame'⟩
      rw [hsent, payloads_append, payloads_received, hpayloads]

/-- There is always room for a whole frame. -/
theorem every_fitsInbound {chunks : List (List UInt8)} (h : ∀ chunk ∈ chunks, FitsScratch chunk) :
    Every FitsInbound chunks := by
  induction chunks using List.reverseRecOn with
  | nil => exact every_nil _
  | append_singleton chunks chunk ih =>
    have hbefore := ih fun c hc => h c (List.mem_append_left _ hc)
    rcases h chunk (by simp) with ⟨hne, hle⟩
    refine every_snoc.2 ⟨hbefore, hne, ?_⟩
    intro hrunning
    have hhands := (client_hands hbefore).1
    have hfed := tunnelFraming.fed_pieces chunks
    rw [hhands.running] at hrunning
    have hgood := Bool.not_eq_true' _ ▸ hrunning
    -- What waits in the buffer is an incomplete frame, shorter than the longest frame.
    have hrest := Framing.length_rest_lt chunks.flatten (hfed.bad.symm.trans hgood)
    rw [← hfed.rest hgood, ← hhands.buffer, Inbound.length_contents] at hrest
    have hlimit : tunnelFraming.header + tunnelFraming.limit = kFrameHeader + kMaxDatagram := rfl
    rw [hlimit] at hrest
    simp only [Inbound.room, kFrameHeader, kMaxDatagram] at hrest hle ⊢
    omega

/-- The same bytes, cut one way for the server's end and another way for the player's: both hand on
the complete frames before the first bad header, stop exactly if there is one, and otherwise keep
the incomplete frame at the end.  The de-framing loops always end. -/
theorem deframers_agree {stream : List UInt8} {pumpChunks clientChunks : List (List UInt8)}
    (hpump : pumpChunks.flatten = stream) (hclient : clientChunks.flatten = stream)
    (hscratch : ∀ chunk ∈ pumpChunks, FitsScratch chunk)
    (hinbound : Every FitsInbound clientChunks) :
    let pumpEvents := pumpChunks.map pumpReceives
    let clientEvents := clientChunks.map clientReceives
    (∃ sent rest bad, Parsed stream sent rest bad ∧
      payloads (pump.log {} pumpEvents) = sent ∧
      payloads (client.log playing clientEvents) = sent ∧
      (pump.state {} pumpEvents).running = !bad ∧
      (client.state playing clientEvents).running = !bad ∧
      (bad = false → (pump.state {} pumpEvents).inbound = rest ∧
        (client.state playing clientEvents).inbound.contents = rest)) ∧
    (∀ inbound, ∃ sent rest fatal, DeframeLoop inbound sent rest fatal) ∧
    ∀ inbound, ∃ sent rest fatal, DeframeInboundLoop inbound sent rest fatal := by
  intro pumpEvents clientEvents
  have hpumpHands := pump_hands hscratch
  have hclientHands := (client_hands hinbound).1
  -- Both have fed their chunks to the same framing, and how a stream is cut is no matter.
  have hpumpFed := tunnelFraming.fed_pieces pumpChunks
  have hclientFed := tunnelFraming.fed_pieces clientChunks
  rw [hpump] at hpumpFed
  rw [hclient] at hclientFed
  refine ⟨⟨_, _, _, parsed_unframe stream, ?_, ?_, ?_, ?_, ?_⟩, ?_, ?_⟩
  · exact hpumpHands.payloads.trans hpumpFed.payloads
  · exact hclientHands.payloads.trans hclientFed.payloads
  · rw [← hpumpFed.bad]
    exact hpumpHands.running
  · rw [← hclientFed.bad]
    exact hclientHands.running
  · intro hgood
    exact ⟨hpumpHands.buffer.trans (hpumpFed.rest (hpumpFed.bad.trans hgood)),
      hclientHands.buffer.trans (hclientFed.rest (hclientFed.bad.trans hgood))⟩
  · intro inbound
    exact ⟨_, _, _, deframe_ends inbound⟩
  · intro inbound
    exact ⟨_, _, _, deframeInbound_ends inbound⟩

/-- One frame and then a header that no frame has. -/
theorem deframers_agree_on_bad :
    let pumpEvents := [[0], [1, 7, 0, 0]].map pumpReceives
    let clientEvents := [[0, 1, 7, 0], [0]].map clientReceives
    (∃ sent rest bad, Parsed [0, 1, 7, 0, 0] sent rest bad ∧
      payloads (pump.log {} pumpEvents) = sent ∧
      payloads (client.log playing clientEvents) = sent ∧
      (pump.state {} pumpEvents).running = !bad ∧
      (client.state playing clientEvents).running = !bad ∧
      (bad = false → (pump.state {} pumpEvents).inbound = rest ∧
        (client.state playing clientEvents).inbound.contents = rest)) ∧
    (∀ inbound, ∃ sent rest fatal, DeframeLoop inbound sent rest fatal) ∧
    ∀ inbound, ∃ sent rest fatal, DeframeInboundLoop inbound sent rest fatal :=
  deframers_agree rfl rfl (by simp [FitsScratch, kMaxDatagram, kFrameHeader])
    (every_fitsInbound (by simp [FitsScratch, kMaxDatagram, kFrameHeader]))

end Tunnel
end Crossover
