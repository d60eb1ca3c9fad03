import Mathlib.Data.List.Basic
import Mathlib.Data.List.Induction
import Mathlib.Tactic.SplitIfs

/-!
# Framing — length-prefixed payloads on a stream

A frame is a payload behind a header that spells its length.  `Framing.unframe` takes the complete
frames off a buffer.  It does not matter in which pieces a stream arrives (`unframe_append`), and
what it takes off a beginning of framed payloads is a beginning of the payloads
(`unframe_of_isPrefix`).
-/

namespace Crossover

universe u

/-- How payloads of at most `limit` symbols spell their length in `header` symbols. -/
structure Framing (β : Type u) where
  header : Nat
  limit : Nat
  spell : Nat → List β
  lengthOf : List β → Nat
  header_pos : 0 < header
  length_spell : ∀ n, n ≤ limit → (spell n).length = header
  lengthOf_spell : ∀ n, n ≤ limit → lengthOf (spell n) = n

namespace Framing

variable {β : Type u} (F : Framing β)

/-- A payload that can be framed. -/
structure Fits (payload : List β) : Prop where
  nonempty : 0 < payload.length
  bounded : payload.length ≤ F.limit

def frame (payload : List β) : List β :=
  F.spell payload.length ++ payload

def frames (payloads : List (List β)) : List β :=
  payloads.flatMap F.frame

/-- What a buffer begins with. -/
inductive Next (β : Type u)
  | incomplete
  | bad
  | frame (payload rest : List β)

def next (buffer : List β) : Next β :=
  if buffer.length < F.header then .incomplete
  else
    let len := F.lengthOf (buffer.take F.header)
    if len = 0 ∨ F.limit < len then .bad
    else if buffer.length < F.header + len then .incomplete
    else .frame ((buffer.drop F.header).take len) (buffer.drop (F.header + len))

theorem next_length_lt {buffer payload rest : List β} (h : F.next buffer = .frame payload rest) :
    rest.length < buffer.length := by
  have hpos := F.header_pos
  simp only [next] at h
  split_ifs at h with hshort _ hpartial
  obtain ⟨_, rfl⟩ := Next.frame.inj h
  rw [List.length_drop]
  omega

/-- The payloads taken off a buffer, what is left of it, and whether that begins with a length that
no frame has. -/
structure Unframed (β : Type u) where
  payloads : List (List β)
  rest : List β
  bad : Bool

def unframe (buffer : List β) : Unframed β :=
  match _h : F.next buffer with
  | .incomplete => { payloads := [], rest := buffer, bad := false }
  | .bad => { payloads := [], rest := buffer, bad := true }
  | .frame payload rest =>
      let more := unframe rest
      { more with payloads := payload :: more.payloads }
termination_by buffer.length
decreasing_by exact F.next_length_lt _h

section Equations

variable {F} {buffer payload rest : List β}

theorem unframe_incomplete (h : F.next buffer = .incomplete) :
    F.unframe buffer = { payloads := [], rest := buffer, bad := false } := by
  rw [unframe]
  split <;> simp_all

theorem unframe_bad (h : F.next buffer = .bad) :
    F.unframe buffer = { payloads := [], rest := buffer, bad := true } := by
  rw [unframe]
  split <;> simp_all

theorem unframe_frame (h : F.next buffer = .frame payload rest) :
    F.unframe buffer =
      { F.unframe rest with payloads := payload :: (F.unframe rest).payloads } := by
  rw [unframe]
  split <;> simp_all

theorem next_nil : F.next ([] : List β) = .incomplete := by
  simp [next, F.header_pos]

@[simp] theorem unframe_nil :
    F.unframe ([] : List β) = { payloads := [], rest := [], bad := false } :=
  unframe_incomplete next_nil

end Equations

/-! ## Pieces of a stream -/

section Pieces

variable {F} {buffer payload rest : List β}

/-- More of the stream does not change the first frame. -/
theorem next_append (h : F.next buffer = .frame payload rest) (more : List β) :
    F.next (buffer ++ more) = .frame payload (rest ++ more) := by
  simp only [next] at h ⊢
  split_ifs at h with hshort hbad hpartial
  obtain ⟨rfl, rfl⟩ := Next.frame.inj h
  have hheader : F.header ≤ buffer.length := Nat.not_lt.1 hshort
  have hlen : F.header + F.lengthOf (buffer.take F.header) ≤ buffer.length :=
    Nat.not_lt.1 hpartial
  have htake : (buffer ++ more).take F.header = buffer.take F.header :=
    List.take_append_of_le_length hheader
  have hlonger : buffer.length ≤ (buffer ++ more).length := by simp
  rw [htake, if_neg (by omega), if_neg hbad, if_neg (by omega),
    List.drop_append_of_le_length hheader, List.drop_append_of_le_length hlen,
    List.take_append_of_le_length (by rw [List.length_drop]; omega)]

/-- Nor does it make a bad length good. -/
theorem next_append_bad (h : F.next buffer = .bad) (more : List β) :
    F.next (buffer ++ more) = .bad := by
  simp only [next] at h ⊢
  split_ifs at h with hshort hbad
  have htake : (buffer ++ more).take F.header = buffer.take F.header :=
    List.take_append_of_le_length (Nat.not_lt.1 hshort)
  have hlonger : buffer.length ≤ (buffer ++ more).length := by simp
  rw [htake, if_neg (by omega), if_pos hbad]

/-- Taking the frames off in two goes is taking them off in one. -/
theorem unframe_append (buffer more : List β) (hgood : (F.unframe buffer).bad = false) :
    F.unframe (buffer ++ more) =
      { F.unframe ((F.unframe buffer).rest ++ more) with
        payloads := (F.unframe buffer).payloads ++
          (F.unframe ((F.unframe buffer).rest ++ more)).payloads } := by
  cases hnext : F.next buffer with
  | incomplete => simp [unframe_incomplete hnext]
  | bad =>
    rw [unframe_bad hnext] at hgood
    cases hgood
  | frame payload rest =>
    have hlt := F.next_length_lt hnext
    rw [unframe_frame hnext] at hgood
    rw [unframe_frame (next_append hnext more), unframe_frame hnext,
      unframe_append rest more hgood]
    rfl
termination_by buffer.length

theorem unframe_append_bad (buffer more : List β) (hbad : (F.unframe buffer).bad = true) :
    (F.unframe (buffer ++ more)).payloads = (F.unframe buffer).payloads := by
  cases hnext : F.next buffer with
  | incomplete =>
    rw [unframe_incomplete hnext] at hbad
    cases hbad
  | bad => rw [unframe_bad hnext, unframe_bad (next_append_bad hnext more)]
  | frame payload rest =>
    have hlt := F.next_length_lt hnext
    rw [unframe_frame hnext] at hbad
    rw [unframe_frame (next_append hnext more), unframe_frame hnext]
    exact congrArg (payload :: ·) (unframe_append_bad rest more hbad)
termination_by buffer.length

/-- What is left of a buffer is less than a frame. -/
theorem length_rest_lt (buffer : List β) (hgood : (F.unframe buffer).bad = false) :
    (F.unframe buffer).rest.length < F.header + F.limit := by
  cases hnext : F.next buffer with
  | incomplete =>
    rw [unframe_incomplete hnext]
    have hpos := F.header_pos
    simp only [next] at hnext
    split_ifs at hnext with hshort hlen hpartial
    · simp only
      omega
    · simp only
      omega
  | bad =>
    rw [unframe_bad hnext] at hgood
    cases hgood
  | frame payload rest =>
    have hlt := F.next_length_lt hnext
    rw [unframe_frame hnext] at hgood ⊢
    exact length_rest_lt rest hgood
termination_by buffer.length

end Pieces

/-! ## Framed payloads -/

section Frames

variable {F} {payload : List β} {payloads : List (List β)}

theorem length_frame (h : F.Fits payload) :
    (F.frame payload).length = F.header + payload.length := by
  rw [frame, List.length_append, F.length_spell _ h.bounded]

theorem next_frame (h : F.Fits payload) (rest : List β) :
    F.next (F.frame payload ++ rest) = .frame payload rest := by
  have hspell := F.length_spell _ h.bounded
  have htake : (F.frame payload ++ rest).take F.header = F.spell payload.length := by
    rw [frame, List.append_assoc, List.take_left' hspell]
  have hdrop : (F.frame payload ++ rest).drop F.header = payload ++ rest := by
    rw [frame, List.append_assoc, List.drop_left' hspell]
  have hlength : (F.frame payload ++ rest).length =
      F.header + payload.length + rest.length := by
    rw [List.length_append, length_frame h]
  have hlen : F.lengthOf (F.spell payload.length) = payload.length :=
    F.lengthOf_spell _ h.bounded
  have hgood : ¬ (payload.length = 0 ∨ F.limit < payload.length) := by
    have hpos := h.nonempty
    have hle := h.bounded
    omega
  simp only [next, htake, hlen]
  rw [if_neg (by omega), if_neg hgood, if_neg (by omega), ← List.drop_drop, hdrop,
    List.take_left, List.drop_left]

/-- Complete frames come off one by one. -/
theorem unframe_frames (h : ∀ payload ∈ payloads, F.Fits payload) (rest : List β) :
    F.unframe (F.frames payloads ++ rest) =
      { F.unframe rest with payloads := payloads ++ (F.unframe rest).payloads } := by
  induction payloads with
  | nil => rfl
  | cons payload payloads ih =>
    have hfits := h payload List.mem_cons_self
    have hrest := ih fun p hp => h p (List.mem_cons_of_mem _ hp)
    have hsplit : F.frames (payload :: payloads) ++ rest =
        F.frame payload ++ (F.frames payloads ++ rest) := by
      simp [frames]
    rw [hsplit, unframe_frame (next_frame hfits _), hrest]
    rfl

/-- A beginning of a frame that is not all of it is incomplete. -/
theorem next_of_isPrefix (h : F.Fits payload) {buffer : List β}
    (hbuffer : buffer <+: F.frame payload) (hshort : buffer.length < (F.frame payload).length) :
    F.next buffer = .incomplete := by
  have hspell := F.length_spell _ h.bounded
  rw [length_frame h] at hshort
  simp only [next]
  by_cases hheader : buffer.length < F.header
  · rw [if_pos hheader]
  · have hle : F.header ≤ buffer.length := Nat.not_lt.1 hheader
    -- The header has arrived whole, so it spells the length of the payload.
    have htake : buffer.take F.header = F.spell payload.length := by
      rw [List.prefix_iff_eq_take.1 hbuffer, List.take_take, Nat.min_eq_left hle, frame,
        List.take_left' hspell]
    have hlen : F.lengthOf (F.spell payload.length) = payload.length :=
      F.lengthOf_spell _ h.bounded
    have hgood : ¬ (payload.length = 0 ∨ F.limit < payload.length) := by
      have hpos := h.nonempty
      have hbound := h.bounded
      omega
    rw [if_neg hheader, htake, hlen, if_neg hgood, if_pos hshort]

/-- A beginning of the frames yields a beginning of the payloads. -/
theorem unframe_of_isPrefix (h : ∀ payload ∈ payloads, F.Fits payload) {buffer : List β}
    (hbuffer : buffer <+: F.frames payloads) :
    (F.unframe buffer).bad = false ∧ (F.unframe buffer).payloads <+: payloads := by
  induction payloads generalizing buffer with
  | nil =>
    obtain rfl : buffer = [] := List.prefix_nil.1 hbuffer
    simp
  | cons payload payloads ih =>
    have hfits := h payload List.mem_cons_self
    have hsplit : F.frames (payload :: payloads) = F.frame payload ++ F.frames payloads := by
      simp [frames]
    rw [hsplit] at hbuffer
    by_cases hshort : buffer.length < (F.frame payload).length
    · have hpart : buffer <+: F.frame payload :=
        List.prefix_of_prefix_length_le hbuffer (List.prefix_append _ _) (Nat.le_of_lt hshort)
      rw [unframe_incomplete (next_of_isPrefix hfits hpart hshort)]
      exact ⟨rfl, List.nil_prefix⟩
    · have hwhole : F.frame payload <+: buffer :=
        List.prefix_of_prefix_length_le (List.prefix_append _ _) hbuffer (Nat.not_lt.1 hshort)
      rcases hwhole with ⟨rest, rfl⟩
      have hrest : rest <+: F.frames payloads := (List.prefix_append_right_inj _).1 hbuffer
      rcases ih (fun p hp => h p (List.mem_cons_of_mem _ hp)) hrest with ⟨hgood, hpayloads⟩
      rw [unframe_frame (next_frame hfits rest)]
      exact ⟨hgood, List.cons_prefix_cons.2 ⟨rfl, hpayloads⟩⟩

/-- All of the frames yield all of the payloads. -/
theorem unframe_all (h : ∀ payload ∈ payloads, F.Fits payload) :
    (F.unframe (F.frames payloads)).payloads = payloads := by
  have hall := unframe_frames h []
  rw [List.append_nil] at hall
  rw [hall]
  simp

end Frames

/-! ## Any stream -/

/-- Only the spelling of a length says it. -/
def Canonical : Prop :=
  ∀ header : List β, header.length = F.header → F.lengthOf header ≤ F.limit →
    F.spell (F.lengthOf header) = header

/-- A stream is complete frames and then something that does not begin with one. -/
structure Splits (stream : List β) (split : Unframed β) : Prop where
  stream : stream = F.frames split.payloads ++ split.rest
  fits : ∀ payload ∈ split.payloads, F.Fits payload
  stuck : F.next split.rest = if split.bad then .bad else .incomplete

section Streams

variable {F} {stream buffer : List β}

/-- A frame that has been taken off was one. -/
theorem eq_frame_of_next (hF : F.Canonical) {payload rest : List β}
    (h : F.next buffer = .frame payload rest) :
    buffer = F.frame payload ++ rest ∧ F.Fits payload := by
  simp only [next] at h
  split_ifs at h with hshort hbad hpartial
  obtain ⟨rfl, rfl⟩ := Next.frame.inj h
  have hheader : (buffer.take F.header).length = F.header := by
    rw [List.length_take]
    omega
  have hlength : ((buffer.drop F.header).take (F.lengthOf (buffer.take F.header))).length =
      F.lengthOf (buffer.take F.header) := by
    rw [List.length_take, List.length_drop]
    omega
  refine ⟨?_, ?_, ?_⟩
  · -- In a canonical format the header of a length is the only way to spell it.
    have hspell := hF _ hheader (by omega)
    calc
      buffer = buffer.take F.header ++ buffer.drop F.header := (List.take_append_drop _ _).symm
      _ = buffer.take F.header ++
            ((buffer.drop F.header).take (F.lengthOf (buffer.take F.header)) ++
              (buffer.drop F.header).drop (F.lengthOf (buffer.take F.header))) :=
            congrArg _ (List.take_append_drop _ _).symm
      _ = F.frame ((buffer.drop F.header).take (F.lengthOf (buffer.take F.header))) ++
            buffer.drop (F.header + F.lengthOf (buffer.take F.header)) := by
            rw [frame, hlength, hspell, List.drop_drop, List.append_assoc]
  · rw [hlength]
    omega
  · rw [hlength]
    omega

theorem splits_unframe (hF : F.Canonical) (stream : List β) :
    F.Splits stream (F.unframe stream) := by
  cases hnext : F.next stream with
  | incomplete =>
    rw [unframe_incomplete hnext]
    exact ⟨rfl, by simp, hnext⟩
  | bad =>
    rw [unframe_bad hnext]
    exact ⟨rfl, by simp, hnext⟩
  | frame payload rest =>
    -- The recursion is on the stream, which a frame makes shorter.
    have hlt := F.next_length_lt hnext
    rcases eq_frame_of_next hF hnext with ⟨hstream, hfits⟩
    have hrest := splits_unframe hF rest
    rw [unframe_frame hnext]
    refine ⟨?_, ?_, hrest.stuck⟩
    · have hframes : F.frames (payload :: (F.unframe rest).payloads) =
          F.frame payload ++ F.frames (F.unframe rest).payloads := by
        simp [frames]
      rw [hframes, List.append_assoc, ← hrest.stream, ← hstream]
    · intro p hp
      rcases List.mem_cons.1 hp with rfl | hp
      · exact hfits
      · exact hrest.fits p hp
termination_by stream.length

end Streams

/-! ## A stream that arrives in pieces -/

/-- The next piece: it goes behind what is left, unless that began with a bad length. -/
def feed (fed : Unframed β) (piece : List β) : Unframed β :=
  if fed.bad then fed
  else
    let more := F.unframe (fed.rest ++ piece)
    { more with payloads := fed.payloads ++ more.payloads }

/-- What has been taken off the pieces so far is what there is to take off the stream so far. -/
structure Fed (stream : List β) (fed : Unframed β) : Prop where
  payloads : fed.payloads = (F.unframe stream).payloads
  bad : fed.bad = (F.unframe stream).bad
  rest : fed.bad = false → fed.rest = (F.unframe stream).rest

section Feeding

variable {F} {stream : List β} {fed : Unframed β}

theorem unframe_append_stays_bad {buffer : List β} (more : List β)
    (hbad : (F.unframe buffer).bad = true) : (F.unframe (buffer ++ more)).bad = true := by
  cases hnext : F.next buffer with
  | incomplete =>
    rw [unframe_incomplete hnext] at hbad
    cases hbad
  | bad => rw [unframe_bad (next_append_bad hnext more)]
  | frame payload rest =>
    have hlt := F.next_length_lt hnext
    rw [unframe_frame hnext] at hbad
    rw [unframe_frame (next_append hnext more)]
    exact unframe_append_stays_bad more hbad
termination_by buffer.length

theorem Fed.feed (h : F.Fed stream fed) (piece : List β) :
    F.Fed (stream ++ piece) (F.feed fed piece) := by
  cases hbad : fed.bad with
  | true =>
    have hwhole : (F.unframe stream).bad = true := h.bad.symm.trans hbad
    simp only [Framing.feed, hbad, if_true]
    refine ⟨?_, ?_, fun hgood => ?_⟩
    · rw [unframe_append_bad stream piece hwhole, h.payloads]
    · rw [hbad, unframe_append_stays_bad piece hwhole]
    · rw [hbad] at hgood
      cases hgood
  | false =>
    have hwhole : (F.unframe stream).bad = false := h.bad.symm.trans hbad
    have hboth := unframe_append stream piece hwhole
    rw [← h.rest hbad, ← h.payloads] at hboth
    simp only [Framing.feed, hbad, Bool.false_eq_true, if_false]
    rw [← hboth]
    exact ⟨rfl, rfl, fun _ => rfl⟩

/-- It does not matter how a stream is cut. -/
theorem fed_pieces (pieces : List (List β)) :
    F.Fed pieces.flatten (pieces.foldl F.feed (F.unframe [])) := by
  induction pieces using List.reverseRecOn with
  | nil => exact ⟨rfl, rfl, fun _ => rfl⟩
  | append_singleton pieces piece ih =>
    rw [List.foldl_append, List.flatten_append, List.flatten_singleton]
    exact ih.feed piece

end Feeding

end Framing
end Crossover
