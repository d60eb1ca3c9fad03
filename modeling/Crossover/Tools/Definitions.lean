import Crossover.Lib.Memory
import Mathlib.Data.Set.Lattice
import Mathlib.Data.Set.Pairwise.Lattice

/-!
# Definitions — child lists in the game's memory

A screen builds its children from a vector of ids in its definition, at `+0x70`, `+0x74` and
`+0x78`.  The probes replace that vector by a copy in a pool of their own, with one more id
(`extendChildren`).

`Game` is the memory that they meet: definitions apart from each other and from the vectors, and a
pool that was free.
-/

namespace Crossover
namespace Tools

open Memory Set

/-! ## Layout -/

def defRec : Word := 0x14
def defId : Word := 0x20
def defType : Word := 0x3C
def defX : Word := 0x58
def defY : Word := 0x5C
def defChildBegin : Word := 0x70
def defChildEnd : Word := 0x74
def defChildCap : Word := 0x78

def typeText : Word := 0x06
def typeScreen : Word := 0x0A
def typeList : Word := 0x0C

/-- A definition, up to the capacity of its vector. -/
def block (d : Word) : Set Word :=
  span d 0x7C

def typeField (d : Word) : Set Word :=
  span (d + defType) 4

/-- Where a definition says its component is drawn. -/
def positionFields (d : Word) : Set Word :=
  span (d + defX) 8

/-- Begin, end and capacity of the vector. -/
def childFields (d : Word) : Set Word :=
  span (d + defChildBegin) 12

section Fields

variable (mem : Memory) (d : Word)

def typeOf : Word :=
  mem.read32 (d + defType)

def childBegin : Word :=
  mem.read32 (d + defChildBegin)

def childEnd : Word :=
  mem.read32 (d + defChildEnd)

def childCap : Word :=
  mem.read32 (d + defChildCap)

/-- Screens and lists have children. -/
def HasChildren : Prop :=
  typeOf mem d = typeScreen ∨ typeOf mem d = typeList

instance : Decidable (HasChildren mem d) :=
  inferInstanceAs (Decidable (_ ∨ _))

/-- The bytes of the vector. -/
def childBytes : Nat :=
  (childEnd mem d).toNat - (childBegin mem d).toNat

/-- The number of children, as it is computed with words. -/
theorem childCount_eq (h : childBegin mem d < childEnd mem d) :
    ((childEnd mem d - childBegin mem d) / 4).toNat = childBytes mem d / 4 := by
  rw [BitVec.toNat_udiv, BitVec.toNat_sub_of_le (BitVec.le_of_lt h), childBytes]
  rfl

def vector : Set Word :=
  span (childBegin mem d) (childBytes mem d)

def children : List Word :=
  words mem (childBegin mem d) (childBytes mem d / 4)

end Fields

/-! ### Fields apart -/

variable {d : Word}

theorem field_subset_block {offset : Word} {length : Nat} (h : offset.toNat + length ≤ 0x7C) :
    span (d + offset) length ⊆ block d := by
  refine span_subset_span ?_
  rw [add_sub_cancel_left]
  exact h

theorem disjoint_fields {offset offset' : Word} {length length' : Nat}
    (h : length ≤ (offset' - offset).toNat) (h' : length' ≤ (offset - offset').toNat) :
    Disjoint (span (d + offset) length) (span (d + offset') length') := by
  refine disjoint_span ?_ ?_
  · rwa [add_sub_add_left_eq_sub]
  · rwa [add_sub_add_left_eq_sub]

theorem typeField_subset_block : typeField d ⊆ block d :=
  field_subset_block (by decide)

theorem positionFields_subset_block : positionFields d ⊆ block d :=
  field_subset_block (by decide)

theorem childFields_subset_block : childFields d ⊆ block d :=
  field_subset_block (by decide)

theorem disjoint_type_child : Disjoint (typeField d) (childFields d) :=
  disjoint_fields (by decide) (by decide)

theorem disjoint_type_position : Disjoint (typeField d) (positionFields d) :=
  disjoint_fields (by decide) (by decide)

theorem disjoint_position_child : Disjoint (positionFields d) (childFields d) :=
  disjoint_fields (by decide) (by decide)

/-- The whole words of a vector. -/
theorem words_subset_vector (mem : Memory) (d : Word) :
    span (childBegin mem d) (4 * (childBytes mem d / 4)) ⊆ vector mem d :=
  span_mono (Nat.mul_div_le _ _)

/-! ## A longer vector -/

/-- The vector is the `n` words from `nv` on, without room for more. -/
def setChildren (mem : Memory) (d nv : Word) (n : Nat) : Memory :=
  let last := nv + BitVec.ofNat 32 (4 * n)
  ((mem.write32 (d + defChildBegin) nv).write32 (d + defChildEnd) last).write32 (d + defChildCap)
    last

/-- A copy of the `n` words from `b` on in `nv`, another one behind them, and the vector put
there. -/
def extendChildren (mem : Memory) (d nv b : Word) (n : Nat) (added : Word) : Memory :=
  setChildren ((mem.copyWords nv b n).write32 (nv + BitVec.ofNat 32 (4 * n)) added) d nv (n + 1)

section Extend

variable (mem : Memory) (d nv b : Word) (n : Nat) (added : Word)

theorem eqOn_setChildren : EqOn (setChildren mem d nv n) mem (childFields d)ᶜ := by
  have hbegin : span (d + defChildBegin) 4 ⊆ childFields d := span_mono (by decide)
  have hend : span (d + defChildEnd) 4 ⊆ childFields d := by
    refine span_subset_span ?_
    rw [add_sub_add_left_eq_sub]
    decide
  have hcap : span (d + defChildCap) 4 ⊆ childFields d := by
    refine span_subset_span ?_
    rw [add_sub_add_left_eq_sub]
    decide
  have hfirst : EqOn (mem.write32 (d + defChildBegin) nv) mem (childFields d)ᶜ :=
    eqOn_write32_of (fun _ _ => rfl) hbegin nv
  exact eqOn_write32_of (eqOn_write32_of hfirst hend _) hcap _

theorem childBegin_setChildren : childBegin (setChildren mem d nv n) d = nv := by
  rw [childBegin, setChildren,
    read32_write32_of_disjoint _ _ (disjoint_fields (by decide) (by decide)),
    read32_write32_of_disjoint _ _ (disjoint_fields (by decide) (by decide)),
    read32_write32_self]

theorem childEnd_setChildren :
    childEnd (setChildren mem d nv n) d = nv + BitVec.ofNat 32 (4 * n) := by
  rw [childEnd, setChildren,
    read32_write32_of_disjoint _ _ (disjoint_fields (by decide) (by decide)),
    read32_write32_self]

theorem childCap_setChildren :
    childCap (setChildren mem d nv n) d = nv + BitVec.ofNat 32 (4 * n) :=
  read32_write32_self _ _ _

theorem eqOn_extendChildren :
    EqOn (extendChildren mem d nv b n added) mem
      (span nv (4 * (n + 1)) ∪ childFields d)ᶜ := by
  intro a ha
  rw [compl_union] at ha
  -- The copy, the word behind it and the fields, in the order in which they are stored.
  have hcopied : EqOn (mem.copyWords nv b n) mem (span nv (4 * (n + 1)))ᶜ :=
    (eqOn_copyWords mem nv b n).mono (compl_subset_compl.2 (span_mono (by omega)))
  have hlast : span (nv + BitVec.ofNat 32 (4 * n)) 4 ⊆ span nv (4 * (n + 1)) :=
    span_add_subset (by omega)
  have hgrown := eqOn_write32_of hcopied hlast added
  exact (eqOn_setChildren _ d nv (n + 1) ha.2).trans (hgrown ha.1)

variable {mem d nv b n}

/-- The copy is complete, and the new word stands behind it. -/
theorem words_extendChildren (hfits : 4 * (n + 1) ≤ 2 ^ 32)
    (hsource : Disjoint (span b (4 * n)) (span nv (4 * n)))
    (hfields : Disjoint (childFields d) (span nv (4 * (n + 1)))) :
    words (extendChildren mem d nv b n added) nv (n + 1) = words mem b n ++ [added] := by
  -- The fields are stored last, and elsewhere.
  have hkept : words (extendChildren mem d nv b n added) nv (n + 1) =
      words ((mem.copyWords nv b n).write32 (nv + BitVec.ofNat 32 (4 * n)) added) nv (n + 1) := by
    refine words_congr ?_
    intro a ha
    exact eqOn_setChildren _ d nv (n + 1) (Set.disjoint_right.1 hfields ha)
  have hbelow : Disjoint (span nv (4 * n)) (span (nv + BitVec.ofNat 32 (4 * n)) 4) :=
    disjoint_span_add (by omega)
  have hcopy : words ((mem.copyWords nv b n).write32 (nv + BitVec.ofNat 32 (4 * n)) added) nv n =
      words (mem.copyWords nv b n) nv n := by
    refine words_congr ?_
    intro a ha
    exact eqOn_write32 _ _ _ (Set.disjoint_left.1 hbelow ha)
  rw [hkept, words_succ, read32_write32_self, hcopy, words_copyWords (by omega) hsource]

theorem childBytes_extendChildren (hroom : nv.toNat + 4 * (n + 1) < 2 ^ 32) :
    childBytes (extendChildren mem d nv b n added) d = 4 * (n + 1) := by
  have hbegin : childBegin (extendChildren mem d nv b n added) d = nv :=
    childBegin_setChildren _ d nv (n + 1)
  have hend : childEnd (extendChildren mem d nv b n added) d =
      nv + BitVec.ofNat 32 (4 * (n + 1)) :=
    childEnd_setChildren _ d nv (n + 1)
  rw [childBytes, hbegin, hend, BitVec.toNat_add, BitVec.toNat_ofNat]
  omega

/-- The vector of the definition is the longer one. -/
theorem children_extendChildren (hroom : nv.toNat + 4 * (n + 1) < 2 ^ 32)
    (hsource : Disjoint (span b (4 * n)) (span nv (4 * n)))
    (hfields : Disjoint (childFields d) (span nv (4 * (n + 1)))) :
    children (extendChildren mem d nv b n added) d = words mem b n ++ [added] := by
  have hbegin : childBegin (extendChildren mem d nv b n added) d = nv :=
    childBegin_setChildren _ d nv (n + 1)
  have hcount : 4 * (n + 1) / 4 = n + 1 := Nat.mul_div_cancel_left _ (by decide)
  rw [children, childBytes_extendChildren added hroom, hbegin, hcount]
  exact words_extendChildren added (by omega) hsource hfields

end Extend

/-! ## The game -/

/-- The pool is divided into slots of 64 words. -/
def poolElems : Nat := 64

def slotAt (pool : Word) (slot : Nat) : Word :=
  pool + BitVec.ofNat 32 (4 * (poolElems * slot))

/-- The words of the slots from `first` on. -/
def slots (pool : Word) (count : Nat) : Set Word :=
  span pool (4 * (poolElems * count))

section Slots

variable {pool : Word} {slot count : Nat}

theorem slot_subset_slots (h : slot < count) :
    span (slotAt pool slot) (4 * poolElems) ⊆ slots pool count := by
  refine span_add_subset ?_
  rw [poolElems]
  omega

theorem slots_mono (h : slot ≤ count) : slots pool slot ⊆ slots pool count := by
  refine span_mono ?_
  rw [poolElems]
  omega

end Slots

/-- The game's memory before the first definition is dispatched.  Definitions are apart from each
other, from the vectors and from the pool, which was free when it was allocated and does not reach
the end of the address space. -/
structure Game (poolSlots : Nat) where
  mem : Memory
  defs : Set Word
  pool : Word
  blocks : defs.PairwiseDisjoint block
  vectors : ∀ d ∈ defs, HasChildren mem d → ∀ d' ∈ defs, Disjoint (vector mem d) (block d')
  pool_blocks : ∀ d ∈ defs, Disjoint (block d) (slots pool poolSlots)
  pool_vectors : ∀ d ∈ defs, HasChildren mem d → Disjoint (vector mem d) (slots pool poolSlots)
  inside : pool.toNat + 4 * (poolElems * poolSlots) < 2 ^ 32

namespace Game

variable {poolSlots : Nat} (game : Game poolSlots)

theorem toNat_slotAt {slot : Nat} (h : slot ≤ poolSlots) :
    (slotAt game.pool slot).toNat = game.pool.toNat + 4 * (poolElems * slot) := by
  have hinside := game.inside
  -- The pool does not wrap around, so no slot in it does.
  have hmono : 4 * (poolElems * slot) ≤ 4 * (poolElems * poolSlots) :=
    Nat.mul_le_mul_left 4 (Nat.mul_le_mul_left poolElems h)
  rw [slotAt, BitVec.toNat_add, BitVec.toNat_ofNat]
  omega

/-- A slot ends before the address space does. -/
theorem toNat_slotAt_lt {slot : Nat} (h : slot < poolSlots) :
    (slotAt game.pool slot).toNat + 4 * poolElems < 2 ^ 32 := by
  have hslot := game.toNat_slotAt (Nat.le_of_lt h)
  have hinside := game.inside
  have hmono : 4 * (poolElems * (slot + 1)) ≤ 4 * (poolElems * poolSlots) :=
    Nat.mul_le_mul_left 4 (Nat.mul_le_mul_left poolElems h)
  rw [poolElems] at *
  omega

/-- A slot is behind the ones before it. -/
theorem disjoint_slots_slot {slot : Nat} (h : slot < poolSlots) :
    Disjoint (slots game.pool slot) (span (slotAt game.pool slot) (4 * poolElems)) := by
  have hinside := game.inside
  have hmono : 4 * (poolElems * (slot + 1)) ≤ 4 * (poolElems * poolSlots) :=
    Nat.mul_le_mul_left 4 (Nat.mul_le_mul_left poolElems h)
  refine disjoint_span_add ?_
  rw [poolElems] at *
  omega

/-! ### A vector in a slot -/

section Extend

variable {d b added : Word} {mem : Memory} {slot n : Nat}

/-- What is stored is in the slot and in the definition. -/
theorem eqOn_extendSlot (pool : Word) (hn : n < poolElems) :
    EqOn (extendChildren mem d (slotAt pool slot) b n added) mem
      (span (slotAt pool slot) (4 * poolElems) ∪ childFields d)ᶜ := by
  have hfits : span (slotAt pool slot) (4 * (n + 1)) ⊆ span (slotAt pool slot) (4 * poolElems) :=
    span_mono (by omega)
  exact (eqOn_extendChildren _ _ _ _ _ _).mono
    (compl_subset_compl.2 (union_subset_union_left _ hfits))

theorem childBytes_extendSlot (hslot : slot < poolSlots) (hn : n < poolElems) :
    childBytes (extendChildren mem d (slotAt game.pool slot) b n added) d = 4 * (n + 1) := by
  have hinside := game.toNat_slotAt_lt hslot
  exact childBytes_extendChildren added (by omega)

/-- A copy of words that are not in the slot. -/
theorem children_extendSlot (hd : d ∈ game.defs) (hslot : slot < poolSlots) (hn : n < poolElems)
    (hsource : Disjoint (span b (4 * n)) (span (slotAt game.pool slot) (4 * poolElems))) :
    children (extendChildren mem d (slotAt game.pool slot) b n added) d =
      words mem b n ++ [added] := by
  have hinside := game.toNat_slotAt_lt hslot
  have hfields : Disjoint (childFields d) (span (slotAt game.pool slot) (4 * poolElems)) :=
    (game.pool_blocks d hd).mono childFields_subset_block (slot_subset_slots hslot)
  have hcopied : span (slotAt game.pool slot) (4 * n) ⊆
      span (slotAt game.pool slot) (4 * poolElems) := span_mono (by omega)
  have hstored : span (slotAt game.pool slot) (4 * (n + 1)) ⊆
      span (slotAt game.pool slot) (4 * poolElems) := span_mono (by omega)
  exact children_extendChildren added (by omega) (hsource.mono_right hcopied)
    (hfields.mono_right hstored)

end Extend

theorem pairwiseDisjoint_slots {count : Nat} (h : count ≤ poolSlots) :
    (Set.Iio count).PairwiseDisjoint fun slot => span (slotAt game.pool slot) (4 * poolElems) := by
  -- The one with the greater number is behind all slots before it.
  have hbefore : ∀ slot < count, ∀ slot' < slot,
      Disjoint (span (slotAt game.pool slot') (4 * poolElems))
        (span (slotAt game.pool slot) (4 * poolElems)) := by
    intro slot hslot slot' hslot'
    have hbehind := game.disjoint_slots_slot (Nat.lt_of_lt_of_le hslot h)
    exact hbehind.mono_left (slot_subset_slots hslot')
  intro slot hslot slot' hslot' hne
  rcases Nat.lt_or_gt_of_ne hne with hlt | hgt
  · exact hbefore slot' hslot' slot hlt
  · exact (hbefore slot hslot slot' hgt).symm

/-- The pool, the vectors of the definitions in `extended` and the positions of those in
`moved`. -/
def touched (extended moved : Set Word) : Set Word :=
  slots game.pool poolSlots ∪ ((⋃ d ∈ extended, childFields d) ∪ ⋃ d ∈ moved, positionFields d)

variable {game} {extended moved : Set Word} {d : Word}

/-- A part of a definition that has nothing in common with what changes in this one. -/
theorem disjoint_touched (hextended : extended ⊆ game.defs) (hmoved : moved ⊆ game.defs)
    {part : Set Word} (hd : d ∈ game.defs) (hpart : part ⊆ block d)
    (hchild : d ∈ extended → Disjoint part (childFields d))
    (hposition : d ∈ moved → Disjoint part (positionFields d)) :
    Disjoint part (game.touched extended moved) := by
  -- What changes in another definition is in that one's block.
  have hother : ∀ d' ∈ game.defs, d ≠ d' → Disjoint part (block d') :=
    fun d' hd' hne => (game.blocks hd hd' hne).mono_left hpart
  rw [touched, Set.disjoint_union_right, Set.disjoint_union_right]
  refine ⟨(game.pool_blocks d hd).mono_left hpart, ?_, ?_⟩
  · rw [Set.disjoint_iUnion₂_right]
    intro d' hd'
    by_cases hsame : d = d'
    · subst hsame
      exact hchild hd'
    · exact (hother d' (hextended hd') hsame).mono_right childFields_subset_block
  · rw [Set.disjoint_iUnion₂_right]
    intro d' hd'
    by_cases hsame : d = d'
    · subst hsame
      exact hposition hd'
    · exact (hother d' (hmoved hd') hsame).mono_right positionFields_subset_block

end Game

/-! ### Unchanged memory -/

section Congr

variable {mem mem' : Memory}

theorem typeOf_congr (h : EqOn mem mem' (typeField d)) : typeOf mem d = typeOf mem' d :=
  read32_congr h

theorem childBegin_congr (h : EqOn mem mem' (childFields d)) :
    childBegin mem d = childBegin mem' d :=
  read32_congr (h.mono (span_mono (by decide)))

theorem childEnd_congr (h : EqOn mem mem' (childFields d)) : childEnd mem d = childEnd mem' d := by
  refine read32_congr (h.mono (span_subset_span ?_))
  rw [add_sub_add_left_eq_sub]
  decide

theorem childCap_congr (h : EqOn mem mem' (childFields d)) : childCap mem d = childCap mem' d := by
  refine read32_congr (h.mono (span_subset_span ?_))
  rw [add_sub_add_left_eq_sub]
  decide

theorem childBytes_congr (h : EqOn mem mem' (childFields d)) :
    childBytes mem d = childBytes mem' d := by
  rw [childBytes, childBytes, childBegin_congr h, childEnd_congr h]

theorem children_congr (h : EqOn mem mem' (childFields d))
    (hvector : EqOn mem mem' (vector mem' d)) : children mem d = children mem' d := by
  rw [children, children, childBytes_congr h, childBegin_congr h]
  refine words_congr (hvector.mono ?_)
  exact span_mono (Nat.mul_div_le _ _)

end Congr

end Tools
end Crossover
