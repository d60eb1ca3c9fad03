import Mathlib.Data.BitVec
import Mathlib.Data.Set.Function
import Mathlib.Data.Set.Lattice
import Mathlib.Order.CompletePartialOrder

/-!
# Memory — bytes at 32-bit addresses

Addresses wrap around, and so do spans of them.  Words are little-endian.  What a store leaves alone
is said with `Set.EqOn` on the complement of a span; a load only looks at its span.

* `read32_write32_self`, `eqOn_write32`: a word that is stored is loaded again, and nothing else
  changes;
* `copyWords` copies words one after the other, as a loop does (`words_copyWords`);
* `writeBytes` puts code in place (`bytesAt_writeBytes`).
-/

namespace Crossover

abbrev Byte := BitVec 8
abbrev Word := BitVec 32

/-- The contents of the address space. -/
abbrev Memory := Word → Byte

namespace Memory

open Set

/-! ## Spans -/

/-- The `length` addresses from `base` on. -/
def span (base : Word) (length : Nat) : Set Word :=
  {a | (a - base).toNat < length}

variable {base base' a : Word} {length length' : Nat}

theorem mem_span : a ∈ span base length ↔ (a - base).toNat < length :=
  Iff.rfl

instance : Decidable (a ∈ span base length) :=
  inferInstanceAs (Decidable ((a - base).toNat < length))

theorem add_mem_span {i : Nat} (hi : i < length) (hlength : length ≤ 2 ^ 32) :
    base + BitVec.ofNat 32 i ∈ span base length := by
  rw [mem_span, add_sub_cancel_left, BitVec.toNat_ofNat]
  omega

theorem mem_span_self (hlength : 0 < length) : base ∈ span base length := by
  rw [mem_span, BitVec.sub_self]
  exact hlength

/-- A span inside another one. -/
theorem span_subset_span (h : (base' - base).toNat + length' ≤ length) :
    span base' length' ⊆ span base length := by
  intro a ha
  -- Offsets add up, modulo `2 ^ 32`.
  have hsplit : a - base = (a - base') + (base' - base) := by
    rw [sub_add_sub_cancel]
  rw [mem_span] at ha ⊢
  rw [hsplit, BitVec.toNat_add]
  exact Nat.lt_of_le_of_lt (Nat.mod_le _ _) (by omega)

/-- Spans that end before each other begins. -/
theorem disjoint_span (h : length ≤ (base' - base).toNat) (h' : length' ≤ (base - base').toNat) :
    Disjoint (span base length) (span base' length') := by
  rw [Set.disjoint_left]
  intro a ha ha'
  rw [mem_span] at ha ha'
  rw [BitVec.toNat_sub] at ha ha' h h'
  have := a.isLt
  have := base.isLt
  have := base'.isLt
  omega

/-- A span that begins behind another one and does not wrap around. -/
theorem disjoint_span_of_le (h : base.toNat + length ≤ base'.toNat)
    (h' : base'.toNat + length' ≤ 2 ^ 32) : Disjoint (span base length) (span base' length') := by
  rw [Set.disjoint_left]
  intro a ha ha'
  rw [mem_span, BitVec.toNat_sub] at ha ha'
  have := a.isLt
  have := base'.isLt
  omega

/-- Spans one behind the other. -/
theorem disjoint_span_add {i : Nat} (h : i + length' ≤ 2 ^ 32) :
    Disjoint (span base i) (span (base + BitVec.ofNat 32 i) length') := by
  rw [Set.disjoint_left]
  intro a ha ha'
  rw [mem_span] at ha ha'
  rw [← sub_sub, BitVec.toNat_sub, BitVec.toNat_ofNat] at ha'
  have hsmall : i % 2 ^ 32 = i := Nat.mod_eq_of_lt (by omega)
  rw [hsmall] at ha'
  omega

theorem span_mono (h : length ≤ length') : span base length ⊆ span base length' := by
  intro a ha
  exact Nat.lt_of_lt_of_le ha h

/-- A span of `i + length'` addresses at most contains the last `length'` of them. -/
theorem span_add_subset {i : Nat} (h : i + length' ≤ length) :
    span (base + BitVec.ofNat 32 i) length' ⊆ span base length := by
  refine span_subset_span ?_
  rw [add_sub_cancel_left, BitVec.toNat_ofNat]
  have := Nat.mod_le i (2 ^ 32)
  omega

/-- The `length` addresses below `a`. -/
def below (a : Word) (length : Nat) : Set Word :=
  span (a - BitVec.ofNat 32 length) length

theorem below_mono (h : length ≤ length') : below a length ⊆ below a length' := by
  refine span_subset_span ?_
  -- The shorter one begins so much further up.
  have hdistance : a - BitVec.ofNat 32 length - (a - BitVec.ofNat 32 length') =
      BitVec.ofNat 32 (length' - length) := by
    rw [sub_sub_sub_cancel_left, sub_eq_iff_eq_add, ← BitVec.ofNat_add, Nat.sub_add_cancel h]
  rw [hdistance, BitVec.toNat_ofNat]
  have := Nat.mod_le (length' - length) (2 ^ 32)
  omega

theorem sub_ofNat_add (a : Word) (i n : Nat) :
    a - BitVec.ofNat 32 (i + n) + BitVec.ofNat 32 i = a - BitVec.ofNat 32 n := by
  rw [BitVec.ofNat_add, sub_add_eq_sub_sub_swap, sub_add_cancel]

/-- What is below an address that is itself further down. -/
theorem below_sub_subset (a : Word) (i n : Nat) :
    below (a - BitVec.ofNat 32 i) n ⊆ below a (i + n) := by
  have hbase : a - BitVec.ofNat 32 i - BitVec.ofNat 32 n = a - BitVec.ofNat 32 (i + n) := by
    rw [sub_sub, BitVec.ofNat_add]
  rw [below, hbase]
  exact span_mono (by omega)

/-- Nothing is outside a span as long as the address space. -/
theorem lt_of_disjoint_below {n : Nat} (hlength : 0 < length)
    (h : Disjoint (span base length) (below a n)) : n < 2 ^ 32 := by
  by_contra hlong
  have hall : base ∈ below a n := Nat.lt_of_lt_of_le (BitVec.isLt _) (Nat.not_lt.1 hlong)
  exact Set.disjoint_left.1 h (mem_span_self hlength) hall

/-! ## Words -/

/-- The byte of a word that has `i` bytes below it. -/
def byte (v : Word) (i : Nat) : Byte :=
  v.extractLsb' (8 * i) 8

/-- The word of four bytes, the lowest first. -/
def ofBytes (b₀ b₁ b₂ b₃ : Byte) : Word :=
  b₃ ++ b₂ ++ b₁ ++ b₀

theorem ofBytes_byte (v : Word) : ofBytes (byte v 0) (byte v 1) (byte v 2) (byte v 3) = v := by
  -- Neighbouring bytes of a word are a part of it, from the top down.
  have hhigh : byte v 3 ++ byte v 2 = v.extractLsb' 16 16 :=
    BitVec.extractLsb'_append_extractLsb'_eq_extractLsb' rfl
  have hupper : v.extractLsb' 16 16 ++ byte v 1 = v.extractLsb' 8 24 :=
    BitVec.extractLsb'_append_extractLsb'_eq_extractLsb' rfl
  have hall : v.extractLsb' 8 24 ++ byte v 0 = v.extractLsb' 0 32 :=
    BitVec.extractLsb'_append_extractLsb'_eq_extractLsb' rfl
  rw [ofBytes, hhigh, hupper, hall]
  exact BitVec.extractLsb'_eq_self

def read32 (m : Memory) (a : Word) : Word :=
  ofBytes (m a) (m (a + 1)) (m (a + 2)) (m (a + 3))

def write32 (m : Memory) (a v : Word) : Memory :=
  fun x => if (x - a).toNat < 4 then byte v (x - a).toNat else m x

variable {m m' : Memory} {v : Word}

theorem eqOn_write32 (m : Memory) (a v : Word) : EqOn (write32 m a v) m (span a 4)ᶜ := by
  intro x hx
  exact if_neg hx

theorem write32_add (m : Memory) (a v : Word) {i : Nat} (hi : i < 4) :
    write32 m a v (a + BitVec.ofNat 32 i) = byte v i := by
  have hoffset : (a + BitVec.ofNat 32 i - a).toNat = i := by
    rw [add_sub_cancel_left, BitVec.toNat_ofNat]
    omega
  rw [write32, hoffset, if_pos hi]

theorem read32_write32_self (m : Memory) (a v : Word) : read32 (write32 m a v) a = v := by
  have hfirst : write32 m a v a = byte v 0 := by
    have hzero := write32_add m a v (i := 0) (by decide)
    rwa [BitVec.add_zero] at hzero
  have hrest : read32 (write32 m a v) a = ofBytes (byte v 0) (byte v 1) (byte v 2) (byte v 3) := by
    rw [read32, hfirst]
    exact congr (congr (congrArg (ofBytes (byte v 0)) (write32_add m a v (i := 1) (by decide)))
      (write32_add m a v (i := 2) (by decide))) (write32_add m a v (i := 3) (by decide))
  rw [hrest, ofBytes_byte]

/-- A load looks at four bytes. -/
theorem read32_congr (h : EqOn m m' (span a 4)) : read32 m a = read32 m' a := by
  -- `a + 1`, `a + 2` and `a + 3` are instances of this.
  have hmem : ∀ i < 4, a + BitVec.ofNat 32 i ∈ span a 4 :=
    fun i hi => add_mem_span hi (by decide)
  have hfirst : m a = m' a := h (mem_span_self (by decide))
  rw [read32, read32, hfirst]
  exact congr (congr (congrArg (ofBytes (m' a)) (h (hmem 1 (by decide))))
    (h (hmem 2 (by decide)))) (h (hmem 3 (by decide)))

theorem read32_write32_of_disjoint (m : Memory) (v : Word)
    (h : Disjoint (span a 4) (span base 4)) : read32 (write32 m base v) a = read32 m a := by
  refine read32_congr ?_
  intro x hx
  exact eqOn_write32 m base v (Set.disjoint_left.1 h hx)

/-- Two stores one after the other. -/
theorem eqOn_write32_of {s : Set Word} (h : EqOn m' m sᶜ) (hsub : span a 4 ⊆ s) (v : Word) :
    EqOn (write32 m' a v) m sᶜ := by
  intro x hx
  have hkept := eqOn_write32 m' a v (fun hmem => hx (hsub hmem))
  exact hkept.trans (h hx)

/-! ## Arrays of words -/

/-- The `n` words from `a` on. -/
def words (m : Memory) (a : Word) (n : Nat) : List Word :=
  (List.range n).map fun k => read32 m (a + BitVec.ofNat 32 (4 * k))

@[simp] theorem length_words (m : Memory) (a : Word) (n : Nat) : (words m a n).length = n := by
  simp [words]

theorem words_succ (m : Memory) (a : Word) (n : Nat) :
    words m a (n + 1) = words m a n ++ [read32 m (a + BitVec.ofNat 32 (4 * n))] := by
  simp [words, List.range_succ]

theorem words_cons (m : Memory) (a : Word) (n : Nat) :
    words m a (n + 1) = read32 m a :: words m (a + 4) n := by
  rw [words, List.range_succ_eq_map, List.map_cons, List.map_map]
  refine congrArg₂ List.cons ?_ ?_
  · rw [Nat.mul_zero, BitVec.add_zero]
  · refine List.map_congr_left ?_
    intro k _
    have hshift : a + BitVec.ofNat 32 (4 * (k + 1)) = a + 4 + BitVec.ofNat 32 (4 * k) := by
      rw [Nat.mul_succ, Nat.add_comm, BitVec.ofNat_add, add_assoc]
      rfl
    exact congrArg (read32 m) hshift

theorem getLast?_words (m : Memory) (a : Word) {n : Nat} (hn : 0 < n) :
    (words m a n).getLast? = some (read32 m (a + BitVec.ofNat 32 (4 * (n - 1)))) := by
  obtain ⟨k, rfl⟩ := Nat.exists_eq_succ_of_ne_zero (Nat.ne_of_gt hn)
  rw [words_succ, List.getLast?_append]
  rfl

/-- An array is where its words are. -/
theorem words_congr {n : Nat} (h : EqOn m m' (span a (4 * n))) : words m a n = words m' a n := by
  refine List.map_congr_left ?_
  intro k hk
  have hlt : k < n := List.mem_range.1 hk
  refine read32_congr ?_
  exact h.mono (span_add_subset (by omega))

/-- `for (k = 0; k < n; k++) dst[k] = src[k];` -/
def copyWords (m : Memory) (dst src : Word) : Nat → Memory
  | 0 => m
  | n + 1 =>
      let copied := copyWords m dst src n
      copied.write32 (dst + BitVec.ofNat 32 (4 * n))
        (copied.read32 (src + BitVec.ofNat 32 (4 * n)))

theorem eqOn_copyWords (m : Memory) (dst src : Word) (n : Nat) :
    EqOn (copyWords m dst src n) m (span dst (4 * n))ᶜ := by
  induction n with
  | zero => exact fun _ _ => rfl
  | succ n ih =>
    have hwider : EqOn (copyWords m dst src n) m (span dst (4 * (n + 1)))ᶜ :=
      ih.mono (compl_subset_compl.2 (span_mono (by omega)))
    exact eqOn_write32_of hwider (span_add_subset (by omega)) _

/-- A copy beside its source is a copy. -/
theorem words_copyWords {dst src : Word} {n : Nat} (hfits : 4 * n ≤ 2 ^ 32)
    (h : Disjoint (span src (4 * n)) (span dst (4 * n))) :
    words (copyWords m dst src n) dst n = words m src n := by
  induction n with
  | zero => rfl
  | succ n ih =>
    have hsmaller : Disjoint (span src (4 * n)) (span dst (4 * n)) :=
      h.mono (span_mono (by omega)) (span_mono (by omega))
    -- The source is still what it was when its next word is read.
    have hsource : read32 (copyWords m dst src n) (src + BitVec.ofNat 32 (4 * n)) =
        read32 m (src + BitVec.ofNat 32 (4 * n)) := by
      refine read32_congr ?_
      intro x hx
      refine eqOn_copyWords m dst src n ?_
      have hsub : span (src + BitVec.ofNat 32 (4 * n)) 4 ⊆ span src (4 * (n + 1)) :=
        span_add_subset (by omega)
      have hmono : span dst (4 * n) ⊆ span dst (4 * (n + 1)) := span_mono (by omega)
      exact fun hmem => Set.disjoint_left.1 h (hsub hx) (hmono hmem)
    -- The words copied before are below the one that is stored.
    have hbelow : Disjoint (span dst (4 * n)) (span (dst + BitVec.ofNat 32 (4 * n)) 4) :=
      disjoint_span_add (by omega)
    rw [words_succ, words_succ, ← ih (by omega) hsmaller]
    refine congrArg₂ (· ++ ·) ?_ ?_
    · refine words_congr ?_
      intro x hx
      exact eqOn_write32 _ _ _ (Set.disjoint_left.1 hbelow hx)
    · exact congrArg (fun v => [v]) ((read32_write32_self _ _ _).trans hsource)

/-! ## Bytes in a row -/

def bytes (m : Memory) (a : Word) (n : Nat) : List Byte :=
  (List.range n).map fun k => m (a + BitVec.ofNat 32 k)

def write8 (m : Memory) (a : Word) (b : Byte) : Memory :=
  Function.update m a b

def writeBytes : Memory → Word → List Byte → Memory
  | m, _, [] => m
  | m, a, b :: bs => writeBytes (write8 m a b) (a + 1) bs

/-- The list stands in memory from `a` on. -/
def BytesAt (m : Memory) : Word → List Byte → Prop
  | _, [] => True
  | a, b :: bs => m a = b ∧ BytesAt m (a + 1) bs

theorem bytesAt_append {xs ys : List Byte} :
    BytesAt m a (xs ++ ys) ↔
      BytesAt m a xs ∧ BytesAt m (a + BitVec.ofNat 32 xs.length) ys := by
  induction xs generalizing a with
  | nil => simp [BytesAt]
  | cons x xs ih =>
    have hnext : a + 1 + BitVec.ofNat 32 xs.length =
        a + BitVec.ofNat 32 (xs.length + 1) := by
      rw [add_assoc, Nat.add_comm xs.length, BitVec.ofNat_add]
      rfl
    rw [List.cons_append, BytesAt, BytesAt, ih, List.length_cons, hnext, and_assoc]

theorem BytesAt.congr {xs : List Byte} (hat : BytesAt m a xs) (h : EqOn m m' (span a xs.length))
    (hfits : xs.length ≤ 2 ^ 32) : BytesAt m' a xs := by
  induction xs generalizing a with
  | nil => trivial
  | cons x xs ih =>
    rw [List.length_cons] at h hfits
    refine ⟨?_, ih hat.2 (h.mono ?_) (by omega)⟩
    · rw [← h (mem_span_self (by omega))]
      exact hat.1
    · exact span_add_subset (i := 1) (by omega)

theorem eqOn_writeBytes (m : Memory) (a : Word) (xs : List Byte) :
    EqOn (writeBytes m a xs) m (span a xs.length)ᶜ := by
  induction xs generalizing m a with
  | nil => exact fun _ _ => rfl
  | cons x xs ih =>
    intro y hy
    rw [List.length_cons] at hy
    have hrest : y ∉ span (a + 1) xs.length := by
      intro hmem
      exact hy (span_add_subset (i := 1) (by omega) hmem)
    have hne : y ≠ a := by
      rintro rfl
      exact hy (mem_span_self (by omega))
    rw [writeBytes, ih _ _ hrest, write8, Function.update_of_ne hne]

theorem bytesAt_writeBytes (m : Memory) (a : Word) {xs : List Byte} (hfits : xs.length ≤ 2 ^ 32) :
    BytesAt (writeBytes m a xs) a xs := by
  induction xs generalizing m a with
  | nil => trivial
  | cons x xs ih =>
    rw [List.length_cons] at hfits
    refine ⟨?_, ih _ _ (by omega)⟩
    -- The later bytes do not come round to the first one.
    have hbefore : a ∉ span (a + 1) xs.length := by
      rw [mem_span, sub_add_cancel_left, BitVec.toNat_neg]
      have hone : (1 : Word).toNat = 1 := rfl
      omega
    rw [writeBytes, eqOn_writeBytes _ _ _ hbefore, write8, Function.update_self]

/-- The first of the bytes is replaced. -/
theorem bytes_write8 (m : Memory) (a : Word) (b : Byte) {n : Nat} (hfits : n < 2 ^ 32) :
    bytes (write8 m a b) a (n + 1) = b :: (bytes m a (n + 1)).tail := by
  rw [bytes, bytes, List.range_succ_eq_map, List.map_cons, List.map_cons, List.tail_cons,
    BitVec.add_zero, write8, Function.update_self]
  refine congrArg (b :: ·) ?_
  rw [List.map_map, List.map_map]
  refine List.map_congr_left ?_
  intro k hk
  -- The others are not the first one again, since the list is shorter than the address space.
  have hlt : k < n := List.mem_range.1 hk
  have hne : a + BitVec.ofNat 32 (k + 1) ≠ a := by
    intro heq
    have hzero := congrArg BitVec.toNat (left_eq_add.1 heq.symm)
    rw [BitVec.toNat_ofNat] at hzero
    have hnone : (0 : Word).toNat = 0 := rfl
    omega
  exact Function.update_of_ne hne b m

theorem head_bytes (m : Memory) (a : Word) (n : Nat) :
    (bytes m a (n + 1)).head? = some (m a) := by
  rw [bytes, List.range_succ_eq_map, List.map_cons, List.head?_cons, BitVec.add_zero]

theorem bytes_congr {n : Nat} (h : EqOn m m' (span a n)) (hfits : n ≤ 2 ^ 32) :
    bytes m a n = bytes m' a n := by
  refine List.map_congr_left ?_
  intro k hk
  exact h (add_mem_span (List.mem_range.1 hk) hfits)

theorem bytes_of_bytesAt {xs : List Byte} (h : BytesAt m a xs) : bytes m a xs.length = xs := by
  induction xs generalizing a with
  | nil => rfl
  | cons x xs ih =>
    -- The rest of the list begins one address later.
    have hshift : ∀ k, a + BitVec.ofNat 32 (k + 1) = a + 1 + BitVec.ofNat 32 k := by
      intro k
      rw [add_assoc, Nat.add_comm k, BitVec.ofNat_add]
      rfl
    rw [bytes, List.length_cons, List.range_succ_eq_map, List.map_cons, List.map_map]
    refine congrArg₂ List.cons ?_ ?_
    · rw [BitVec.add_zero]
      exact h.1
    · have hrest := ih h.2
      rw [bytes] at hrest
      simpa only [Function.comp_def, hshift] using hrest

/-- The bytes of a word, the lowest first. -/
def wordBytes (v : Word) : List Byte :=
  [byte v 0, byte v 1, byte v 2, byte v 3]

theorem read32_of_bytesAt (h : BytesAt m a (wordBytes v)) : read32 m a = v := by
  rcases h with ⟨h₀, h₁, h₂, h₃, _⟩
  have htwo : a + 1 + 1 = a + 2 := by rw [add_assoc]; rfl
  have hthree : a + 1 + 1 + 1 = a + 3 := by rw [htwo, add_assoc]; rfl
  rw [htwo] at h₂
  rw [hthree] at h₃
  rw [read32, h₀, h₁, h₂, h₃, ofBytes_byte]

end Memory
end Crossover
