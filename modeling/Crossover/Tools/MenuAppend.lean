import Crossover.Lib.Machine
import Crossover.Tools.Breakpoint
import Crossover.Tools.Definitions

/-!
# MenuAppend — one more child in every list

`menu-append` leaves a breakpoint on the instruction with which the factory reads a definition's
type.  Its handler extends the definition's vector and emulates the instruction.  What
`VirtualProtect` returns is an input; the byte of the instruction is kept apart from the game's
data.
-/

namespace Crossover
namespace Tools
namespace MenuAppend

open Memory X86

def factoryTypeLen : Word := 3
def poolSlots : Nat := 128
def maxDefs : Nat := 32

def isPlausible (p : Word) : Bool :=
  0x00400000 ≤ p ∧ p < 0x20000000

/-- Is this vector one that was already replaced? -/
def inPool (gPool p : Word) : Bool :=
  let lo := gPool
  let hi := lo + BitVec.ofNat 32 (4 * (poolElems * poolSlots))
  lo ≤ p ∧ p < hi

/-! ## The handler -/

/-- `ids` are the first `n` of the record's 64. -/
structure SeenDef where
  definition : Word
  id : Word
  type : Word
  n : Nat
  ids : List Word
  patched : Bool

/-- The table has the records that are filled. -/
structure Probe where
  mem : Memory
  gPoolNext : Nat := 0
  gSeen : List SeenDef := []
  gTypeOrig : Byte
  site : Byte

/-- A store into the probe's own tables. -/
inductive Store
  | pool (slot k : Nat)
  | seen (idx : Nat)
  | ids (idx k : Nat)
  deriving DecidableEq, Repr

def Store.InBounds : Store → Prop
  | .pool slot k => slot < poolSlots ∧ k < poolElems
  | .seen idx => idx < maxDefs
  | .ids idx k => idx < maxDefs ∧ k < poolElems

/-- The copy in the next slot, its record, and what has been stored on the way. -/
def append (gPool : Word) (probe : Probe) (d b : Word) (n : Nat) : Probe × List Store :=
  let slot := probe.gPoolNext
  let idx := probe.gSeen.length
  let nv := slotAt gPool slot
  let copied := probe.mem.copyWords nv b n
  -- The last child is duplicated.
  let last := copied.read32 (nv + BitVec.ofNat 32 (4 * (n - 1)))
  let grown := copied.write32 (nv + BitVec.ofNat 32 (4 * n)) last
  let seen :=
    { definition := d
      id := grown.read32 (d + defId)
      type := typeOf probe.mem d
      n := n
      ids := words grown nv n
      patched := true }
  ({ probe with
      mem := setChildren grown d nv (n + 1)
      gPoolNext := slot + 1
      gSeen := probe.gSeen ++ [seen] },
    (List.range (n + 1)).map (.pool slot) ++ .seen idx :: (List.range n).map (.ids idx))

def extendScreen (gPool : Word) (probe : Probe) (d : Word) : Probe × List Store :=
  let type := typeOf probe.mem d
  let b := childBegin probe.mem d
  let e := childEnd probe.mem d
  let n := ((e - b) / 4).toNat
  if gPool = 0 then (probe, [])
  else if !isPlausible d then (probe, [])
  else if type ≠ typeScreen ∧ type ≠ typeList then (probe, [])
  else if inPool gPool b then (probe, [])
  else if !isPlausible b ∨ e ≤ b ∨ 0x200 < e - b then (probe, [])
  else if n = 0 ∨ poolElems ≤ n + 1 then (probe, [])
  else if poolSlots ≤ probe.gPoolNext ∨ maxDefs ≤ probe.gSeen.length then (probe, [])
  else append gPool probe d b n

structure Outcome where
  disposition : Disposition
  context : Context
  stores : List Store

def disarmBp (probe : Probe) (protect : Bool) : Probe :=
  if protect then { probe with site := probe.gTypeOrig } else probe

/-- `protect` says whether `VirtualProtect` succeeds. -/
def bpHandler (gPool : Word) (probe : Probe) (ep : Exception) (protect : Bool) :
    Probe × Outcome :=
  if ep.code ≠ exceptionBreakpoint ∨ ep.address ≠ factoryTypeRead then
    (probe, ⟨.continueSearch, ep.context, []⟩)
  else
    let ebx := ep.context.ebx
    if !isPlausible ebx then
      (disarmBp probe protect,
        ⟨.continueExecution, { ep.context with eip := factoryTypeRead }, []⟩)
    else
      let extended := extendScreen gPool probe ebx
      (extended.1,
        ⟨.continueExecution,
          { ep.context with
            eax := typeOf extended.1.mem ebx
            eip := factoryTypeRead + factoryTypeLen },
          extended.2⟩)

/-- An exception, and whether `VirtualProtect` succeeds should it be called. -/
structure Event where
  ep : Exception
  protect : Bool

def handler (gPool : Word) : Machine Probe Event Outcome where
  step probe event :=
    let handled := bpHandler gPool probe event.ep event.protect
    (handled.1, [handled.2])

/-! ## Runs -/

/-- A pointer that the handler takes for a definition is one. -/
def Event.Dispatches (game : Game poolSlots) (event : Event) : Prop :=
  event.ep.Ours → isPlausible event.ep.context.ebx = true → event.ep.context.ebx ∈ game.defs

/-- The exceptions that the handler is called with. -/
structure Run where
  game : Game poolSlots
  gTypeOrig : Byte
  site : Byte
  exceptions : List Event
  dispatched : ∀ event ∈ exceptions, event.Dispatches game

def Run.start (run : Run) : Probe where
  mem := run.game.mem
  gTypeOrig := run.gTypeOrig
  site := run.site

section Spec

variable (game : Game poolSlots)

/-- The vector is the one that the game made. -/
structure Original (mem : Memory) (d : Word) : Prop where
  begins : childBegin mem d = childBegin game.mem d
  ends : childEnd mem d = childEnd game.mem d
  cap : childCap mem d = childCap game.mem d
  ids : children mem d = children game.mem d

/-- The vector is a copy in the slot, with the last id once more. -/
structure Copied (mem : Memory) (d : Word) (slot : Nat) : Prop where
  inside : slot < poolSlots
  begins : childBegin mem d = slotAt game.pool slot
  ends : childEnd mem d =
    slotAt game.pool slot + BitVec.ofNat 32 (4 * ((children game.mem d).length + 1))
  cap : childCap mem d = childEnd mem d
  fits : (children game.mem d).length + 1 < poolElems
  ids : ∃ last ∈ (children game.mem d).getLast?,
    children mem d = children game.mem d ++ [last]

/-- The definitions that have been extended. -/
def Probe.extended (probe : Probe) : List Word :=
  probe.gSeen.map (·.definition)

/-- The list of a definition, as the game made it, passes the guards of `extend_screen`. -/
structure Extendable (d : Word) : Prop where
  allocated : game.pool ≠ 0
  hasChildren : HasChildren game.mem d
  begins : isPlausible (childBegin game.mem d) = true
  ordered : childBegin game.mem d < childEnd game.mem d
  short : childEnd game.mem d - childBegin game.mem d ≤ 0x200
  some : 0 < (children game.mem d).length
  few : (children game.mem d).length + 1 < poolElems

/-- It has not been extended yet, and there is a record left for it. -/
structure Due (probe : Probe) (d : Word) : Prop where
  extendable : Extendable game d
  fresh : d ∉ probe.extended
  room : probe.gSeen.length < maxDefs

/-- What the probe has stored in the game's memory. -/
def changed (probe : Probe) : Set Word :=
  slots game.pool probe.gPoolNext ∪ ⋃ d ∈ probe.extended, childFields d

/-- Every list has been extended once or not at all, each in a slot of its own. -/
structure AppendedOnce (probe : Probe) : Prop where
  once : probe.extended.Nodup
  copies : ∀ slot d, probe.extended[slot]? = some d → d ∈ game.defs ∧ HasChildren game.mem d ∧
    Copied game probe.mem d slot
  others : ∀ d ∈ game.defs, HasChildren game.mem d → d ∉ probe.extended →
    Original game probe.mem d
  used : probe.gPoolNext = probe.gSeen.length
  apart : (Set.Iio probe.gPoolNext).PairwiseDisjoint fun slot =>
    span (slotAt game.pool slot) (4 * poolElems)
  room : probe.gSeen.length ≤ maxDefs
  frame : Set.EqOn probe.mem game.mem (changed game probe)ᶜ

/-- One call of the handler: a list that is due gets its copy in the next slot, and for any other
definition nothing changes; it only stores into that slot, the vector of the definition and its
tables; and the game goes on as if it had executed the instruction. -/
structure Dispatched (probe : Probe) (event : Event) : Prop where
  extends_due : event.ep.Ours → isPlausible event.ep.context.ebx = true →
    Due game probe event.ep.context.ebx →
      ((handler game.pool).step probe event).1.extended =
          probe.extended ++ [event.ep.context.ebx] ∧
        Copied game ((handler game.pool).step probe event).1.mem event.ep.context.ebx
          probe.gPoolNext
  passes : event.ep.Ours → isPlausible event.ep.context.ebx = true →
    ¬ Due game probe event.ep.context.ebx → ((handler game.pool).step probe event).1 = probe
  bounds : ∀ outcome ∈ ((handler game.pool).step probe event).2, ∀ store ∈ outcome.stores,
    store.InBounds
  frame : Set.EqOn ((handler game.pool).step probe event).1.mem probe.mem
    (span (slotAt game.pool probe.gPoolNext) (4 * poolElems) ∪ childFields event.ep.context.ebx)ᶜ
  foreign : ¬ event.ep.Ours →
    (handler game.pool).step probe event = (probe, [⟨.continueSearch, event.ep.context, []⟩])
  resumes : event.ep.Ours → isPlausible event.ep.context.ebx = true →
    ∀ outcome ∈ ((handler game.pool).step probe event).2,
      outcome.disposition = .continueExecution ∧
      outcome.context.eax = typeOf game.mem event.ep.context.ebx ∧
      outcome.context.cpu probe.mem =
        ({ event.ep.context with eip := factoryTypeRead }.cpu probe.mem).run (.load .eax .ebx 0x3C)

/-- Every list that has been dispatched and passes the guards is extended, unless all records are
in use. -/
def AllExtended (seen : List Event) (probe : Probe) : Prop :=
  ∀ event ∈ seen, event.ep.Ours → isPlausible event.ep.context.ebx = true →
    Extendable game event.ep.context.ebx →
      event.ep.context.ebx ∈ probe.extended ∨ probe.gSeen.length = maxDefs

end Spec

/-! ## The append -/

section Append

variable {game : Game poolSlots} {probe : Probe} {d : Word}

/-- The guards of `extend_screen`. -/
structure Extends (gPool : Word) (probe : Probe) (d : Word) : Prop where
  allocated : gPool ≠ 0
  pointer : isPlausible d = true
  hasChildren : HasChildren probe.mem d
  notPool : inPool gPool (childBegin probe.mem d) = false
  begins : isPlausible (childBegin probe.mem d) = true
  ordered : childBegin probe.mem d < childEnd probe.mem d
  short : childEnd probe.mem d - childBegin probe.mem d ≤ 0x200
  some : 0 < childBytes probe.mem d / 4
  few : childBytes probe.mem d / 4 + 1 < poolElems
  slot : probe.gPoolNext < poolSlots
  record : probe.gSeen.length < maxDefs

theorem extendScreen_cases (gPool : Word) (probe : Probe) (d : Word) :
    (¬ Extends gPool probe d ∧ extendScreen gPool probe d = (probe, [])) ∨
      (Extends gPool probe d ∧ extendScreen gPool probe d =
        append gPool probe d (childBegin probe.mem d) (childBytes probe.mem d / 4)) := by
  simp only [extendScreen]
  split_ifs with hpool hptr htype hin hvector hfew hroom
  -- Only one of the branches stores anything.
  · exact Or.inl ⟨fun he => he.allocated hpool, rfl⟩
  · exact Or.inl ⟨fun he => by simp [he.pointer] at hptr, rfl⟩
  · exact Or.inl ⟨fun he => htype.1 (he.hasChildren.resolve_right htype.2), rfl⟩
  · exact Or.inl ⟨fun he => by simp [he.notPool] at hin, rfl⟩
  · refine Or.inl ⟨fun he => ?_, rfl⟩
    rcases hvector with hbegin | hend | hlong
    · simp [he.begins] at hbegin
    · exact BitVec.not_le.2 he.ordered hend
    · exact BitVec.not_lt.2 he.short hlong
  · refine Or.inl ⟨fun he => ?_, rfl⟩
    rw [childCount_eq _ _ he.ordered] at hfew
    have hsome := he.some
    have hless := he.few
    omega
  · refine Or.inl ⟨fun he => ?_, rfl⟩
    have hslot := he.slot
    have hrecord := he.record
    omega
  · rw [not_or, not_or] at hvector
    have hordered := BitVec.not_le.1 hvector.2.1
    rw [childCount_eq _ _ hordered] at hfew ⊢
    refine Or.inr ⟨?_, rfl⟩
    exact
      { allocated := hpool
        pointer := by simpa using hptr
        hasChildren := by
          rw [HasChildren]
          tauto
        notPool := by simpa using hin
        begins := by simpa using hvector.1
        ordered := hordered
        short := BitVec.not_lt.1 hvector.2.2
        some := by omega
        few := by omega
        slot := by omega
        record := by omega }

theorem inPool_slotAt {slot : Nat} (h : slot < poolSlots) :
    inPool game.pool (slotAt game.pool slot) = true := by
  have hslot := game.toNat_slotAt (Nat.le_of_lt h)
  have hend := game.toNat_slotAt (Nat.le_refl poolSlots)
  have hlt : 4 * (poolElems * slot) < 4 * (poolElems * poolSlots) := by
    rw [poolElems]
    omega
  -- The range test of the source compares addresses, and the pool does not wrap around.
  have hinside : game.pool ≤ slotAt game.pool slot ∧
      slotAt game.pool slot < slotAt game.pool poolSlots := by
    rw [BitVec.le_def, BitVec.lt_def]
    omega
  exact decide_eq_true hinside

/-! ### What does not change -/

theorem Copied.vector_subset {mem : Memory} {slot : Nat} (h : Copied game mem d slot) :
    vector mem d ⊆ span (slotAt game.pool slot) (4 * poolElems) := by
  have hfits := h.fits
  have hbehind := game.toNat_slotAt (Nat.succ_le_of_lt h.inside)
  have hslot := game.toNat_slotAt (Nat.le_of_lt h.inside)
  have hbytes : childBytes mem d ≤ 4 * ((children game.mem d).length + 1) := by
    rw [childBytes, h.begins, h.ends, BitVec.toNat_add, BitVec.toNat_ofNat]
    omega
  rw [vector, h.begins]
  exact span_mono (by omega)

theorem Copied.congr {mem mem' : Memory} {slot : Nat} (h : Copied game mem d slot)
    (hfields : Set.EqOn mem' mem (childFields d))
    (hslot : Set.EqOn mem' mem (span (slotAt game.pool slot) (4 * poolElems))) :
    Copied game mem' d slot where
  inside := h.inside
  begins := (childBegin_congr hfields).trans h.begins
  ends := (childEnd_congr hfields).trans h.ends
  cap := (childCap_congr hfields).trans (h.cap.trans (childEnd_congr hfields).symm)
  fits := h.fits
  ids := by
    rw [children_congr hfields (hslot.mono h.vector_subset)]
    exact h.ids

theorem Original.vector_eq {mem : Memory} (h : Original game mem d) :
    vector mem d = vector game.mem d := by
  rw [vector, vector, childBytes, childBytes, h.begins, h.ends]

theorem Original.congr {mem mem' : Memory} (h : Original game mem d)
    (hfields : Set.EqOn mem' mem (childFields d))
    (hvector : Set.EqOn mem' mem (vector game.mem d)) : Original game mem' d where
  begins := (childBegin_congr hfields).trans h.begins
  ends := (childEnd_congr hfields).trans h.ends
  cap := (childCap_congr hfields).trans h.cap
  ids := by
    rw [← h.vector_eq] at hvector
    exact (children_congr hfields hvector).trans h.ids

namespace AppendedOnce

variable (h : AppendedOnce game probe)

include h

theorem mem_extended (hd : d ∈ probe.extended) :
    ∃ slot, d ∈ game.defs ∧ HasChildren game.mem d ∧ Copied game probe.mem d slot := by
  rcases List.mem_iff_getElem?.1 hd with ⟨slot, hslot⟩
  exact ⟨slot, h.copies slot d hslot⟩

theorem poolNext_le : probe.gPoolNext ≤ poolSlots := by
  -- There are fewer records than slots.
  have hroom := h.room
  rw [h.used]
  exact Nat.le_trans hroom (by decide)

theorem frame_touched :
    Set.EqOn probe.mem game.mem (game.touched {d | d ∈ probe.extended} ∅)ᶜ := by
  refine h.frame.mono (Set.compl_subset_compl.2 ?_)
  exact Set.union_subset_union (slots_mono h.poolNext_le) Set.subset_union_left

theorem typeOf_eq (hd : d ∈ game.defs) : typeOf probe.mem d = typeOf game.mem d := by
  have hextended : {d | d ∈ probe.extended} ⊆ game.defs := by
    intro d' hd'
    rcases h.mem_extended hd' with ⟨_, hdefs, _⟩
    exact hdefs
  have hapart : Disjoint (typeField d) (game.touched {d | d ∈ probe.extended} ∅) :=
    Game.disjoint_touched hextended (Set.empty_subset _) hd typeField_subset_block
      (fun _ => disjoint_type_child) (fun hmem => absurd hmem (Set.notMem_empty d))
  exact typeOf_congr (h.frame_touched.mono (Set.subset_compl_iff_disjoint_right.2 hapart))

theorem hasChildren (hd : d ∈ game.defs) (hchildren : HasChildren probe.mem d) :
    HasChildren game.mem d := by
  rwa [HasChildren, h.typeOf_eq hd] at hchildren

/-- A definition is not extended again: its vector is in the pool. -/
theorem not_extended (he : Extends game.pool probe d) : d ∉ probe.extended := by
  intro hmem
  rcases h.mem_extended hmem with ⟨slot, _, _, hcopied⟩
  have hin : inPool game.pool (slotAt game.pool slot) = true := inPool_slotAt hcopied.inside
  rw [← hcopied.begins, he.notPool] at hin
  cases hin

end AppendedOnce

/-- The vector that the game made is not in the pool. -/
theorem not_inPool (hd : d ∈ game.defs) (hchildren : HasChildren game.mem d)
    (hordered : childBegin game.mem d < childEnd game.mem d) :
    inPool game.pool (childBegin game.mem d) = false := by
  have hvector : childBegin game.mem d ∈ vector game.mem d := by
    refine mem_span_self ?_
    have hlt := BitVec.lt_def.1 hordered
    rw [childBytes]
    omega
  have hnot := Set.disjoint_left.1 (game.pool_vectors d hd hchildren) hvector
  -- The pool's addresses in the source's range test are the span of its slots.
  refine decide_eq_false fun hin => hnot ?_
  have hinside := game.inside
  have hlow := BitVec.le_def.1 hin.1
  have hhigh := BitVec.lt_def.1 hin.2
  rw [BitVec.toNat_add, BitVec.toNat_ofNat] at hhigh
  rw [slots, mem_span, BitVec.toNat_sub]
  omega

/-- The guards let through what is due, and nothing else. -/
theorem AppendedOnce.extends_iff (h : AppendedOnce game probe) (hd : d ∈ game.defs)
    (hptr : isPlausible d = true) : Extends game.pool probe d ↔ Due game probe d := by
  have hlength : (children game.mem d).length = childBytes game.mem d / 4 := by
    rw [children, length_words]
  constructor
  · intro he
    have hchildren := h.hasChildren hd he.hasChildren
    have hfresh := h.not_extended he
    have horiginal := h.others d hd hchildren hfresh
    have hsome := he.some
    have hfew := he.few
    rw [childBytes, horiginal.begins, horiginal.ends, ← childBytes, ← hlength] at hsome hfew
    exact
      { extendable :=
          { allocated := he.allocated
            hasChildren := hchildren
            begins := horiginal.begins ▸ he.begins
            ordered := horiginal.begins ▸ horiginal.ends ▸ he.ordered
            short := horiginal.begins ▸ horiginal.ends ▸ he.short
            some := hsome
            few := hfew }
        fresh := hfresh
        room := he.record }
  · intro hdue
    have hlist := hdue.extendable
    have horiginal := h.others d hd hlist.hasChildren hdue.fresh
    have hbytes : childBytes probe.mem d = childBytes game.mem d := by
      rw [childBytes, childBytes, horiginal.begins, horiginal.ends]
    have hsome := hlist.some
    have hfew := hlist.few
    rw [hlength, ← hbytes] at hsome hfew
    have hroom := hdue.room
    have hslots : maxDefs ≤ poolSlots := by decide
    exact
      { allocated := hlist.allocated
        pointer := hptr
        hasChildren := by
          rw [HasChildren, h.typeOf_eq hd]
          exact hlist.hasChildren
        notPool := by
          rw [horiginal.begins]
          exact not_inPool hd hlist.hasChildren hlist.ordered
        begins := by rw [horiginal.begins]; exact hlist.begins
        ordered := by rw [horiginal.begins, horiginal.ends]; exact hlist.ordered
        short := by rw [horiginal.begins, horiginal.ends]; exact hlist.short
        some := hsome
        few := hfew
        slot := by
          rw [h.used]
          omega
        record := hroom }

/-! ### One more -/

/-- The state behind an append. -/
def appended (game : Game poolSlots) (probe : Probe) (d : Word) : Probe :=
  (append game.pool probe d (childBegin probe.mem d) (childBytes probe.mem d / 4)).1

/-- The id that is duplicated. -/
def lastCopied (game : Game poolSlots) (probe : Probe) (d : Word) : Word :=
  (probe.mem.copyWords (slotAt game.pool probe.gPoolNext) (childBegin probe.mem d)
    (childBytes probe.mem d / 4)).read32 (slotAt game.pool probe.gPoolNext +
      BitVec.ofNat 32 (4 * (childBytes probe.mem d / 4 - 1)))

theorem mem_appended :
    (appended game probe d).mem =
      extendChildren probe.mem d (slotAt game.pool probe.gPoolNext) (childBegin probe.mem d)
        (childBytes probe.mem d / 4) (lastCopied game probe d) :=
  rfl

theorem extended_appended :
    (appended game probe d).extended = probe.extended ++ [d] := by
  rw [appended, append, Probe.extended, List.map_append]
  rfl

/-- An append stores into one slot and one definition. -/
theorem eqOn_appended (he : Extends game.pool probe d) :
    Set.EqOn (appended game probe d).mem probe.mem
      (span (slotAt game.pool probe.gPoolNext) (4 * poolElems) ∪ childFields d)ᶜ := by
  have hfew := he.few
  rw [mem_appended]
  exact Game.eqOn_extendSlot game.pool (by omega)

theorem eqOn_appended_of (he : Extends game.pool probe d) {part : Set Word}
    (hslot : Disjoint part (span (slotAt game.pool probe.gPoolNext) (4 * poolElems)))
    (hfields : Disjoint part (childFields d)) :
    Set.EqOn (appended game probe d).mem probe.mem part := by
  refine (eqOn_appended he).mono ?_
  rw [Set.subset_compl_iff_disjoint_right, Set.disjoint_union_right]
  exact ⟨hslot, hfields⟩

/-- Another definition stays as it is. -/
theorem eqOn_appended_other (he : Extends game.pool probe d) (hd : d ∈ game.defs) {d' : Word}
    (hd' : d' ∈ game.defs) (hne : d' ≠ d) :
    Set.EqOn (appended game probe d).mem probe.mem (childFields d') := by
  have hpool : Disjoint (block d') (span (slotAt game.pool probe.gPoolNext) (4 * poolElems)) :=
    (game.pool_blocks d' hd').mono_right (slot_subset_slots he.slot)
  have hblocks := game.blocks hd' hd hne
  exact eqOn_appended_of he (hpool.mono_left childFields_subset_block)
    (hblocks.mono childFields_subset_block childFields_subset_block)

/-- So does a slot that was used before. -/
theorem eqOn_appended_slot (he : Extends game.pool probe d) (hd : d ∈ game.defs) {slot : Nat}
    (hslot : slot < probe.gPoolNext) :
    Set.EqOn (appended game probe d).mem probe.mem
      (span (slotAt game.pool slot) (4 * poolElems)) := by
  have hused : span (slotAt game.pool slot) (4 * poolElems) ⊆
      slots game.pool probe.gPoolNext := slot_subset_slots hslot
  have hnext := game.disjoint_slots_slot he.slot
  have hpool : Disjoint (span (slotAt game.pool slot) (4 * poolElems)) (childFields d) :=
    ((game.pool_blocks d hd).mono childFields_subset_block
      (slot_subset_slots (Nat.lt_trans hslot he.slot))).symm
  exact eqOn_appended_of he (hnext.mono_left hused) hpool

/-- So does a vector of the game. -/
theorem eqOn_appended_vector (he : Extends game.pool probe d) (hd : d ∈ game.defs) {d' : Word}
    (hd' : d' ∈ game.defs) (hchildren : HasChildren game.mem d') :
    Set.EqOn (appended game probe d).mem probe.mem (vector game.mem d') := by
  have hpool : Disjoint (vector game.mem d')
      (span (slotAt game.pool probe.gPoolNext) (4 * poolElems)) :=
    (game.pool_vectors d' hd' hchildren).mono_right (slot_subset_slots he.slot)
  have hfields : Disjoint (vector game.mem d') (childFields d) :=
    (game.vectors d' hd' hchildren d hd).mono_right childFields_subset_block
  exact eqOn_appended_of he hpool hfields

/-- The new vector. -/
theorem AppendedOnce.copied_appended (h : AppendedOnce game probe) (hd : d ∈ game.defs)
    (he : Extends game.pool probe d) :
    Copied game (appended game probe d).mem d probe.gPoolNext := by
  have hchildren := h.hasChildren hd he.hasChildren
  have horiginal := h.others d hd hchildren (h.not_extended he)
  have hn : (children game.mem d).length = childBytes probe.mem d / 4 := by
    rw [← horiginal.ids, children, length_words]
  have hfew := he.few
  -- The vector is not in the pool.
  have hread : span (childBegin probe.mem d) (4 * (childBytes probe.mem d / 4)) ⊆
      vector game.mem d := by
    rw [← horiginal.vector_eq]
    exact words_subset_vector probe.mem d
  have hsource : Disjoint (span (childBegin probe.mem d) (4 * (childBytes probe.mem d / 4)))
      (span (slotAt game.pool probe.gPoolNext) (4 * poolElems)) :=
    (game.pool_vectors d hd hchildren).mono hread (slot_subset_slots he.slot)
  have hcopied : span (slotAt game.pool probe.gPoolNext) (4 * (childBytes probe.mem d / 4)) ⊆
      span (slotAt game.pool probe.gPoolNext) (4 * poolElems) := span_mono (by omega)
  -- The id that is put behind the copy is read from the copy.
  have hfits : 4 * (childBytes probe.mem d / 4) ≤ 2 ^ 32 := by
    rw [poolElems] at hfew
    omega
  have hwords := words_copyWords (m := probe.mem) hfits (hsource.mono_right hcopied)
  have hlast : lastCopied game probe d ∈ (children game.mem d).getLast? := by
    rw [← horiginal.ids, children, ← hwords, getLast?_words _ _ he.some]
    rfl
  exact
    { inside := he.slot
      begins := childBegin_setChildren _ _ _ _
      ends := by
        rw [hn]
        exact childEnd_setChildren _ _ _ _
      cap := (childCap_setChildren _ _ _ _).trans (childEnd_setChildren _ _ _ _).symm
      fits := by omega
      ids := by
        refine ⟨lastCopied game probe d, hlast, ?_⟩
        rw [← horiginal.ids]
        exact game.children_extendSlot hd he.slot (by omega) hsource }

theorem length_gSeen_appended :
    (appended game probe d).gSeen.length = probe.gSeen.length + 1 :=
  List.length_append

theorem changed_subset_appended : changed game probe ⊆ changed game (appended game probe d) := by
  rw [changed, changed, extended_appended]
  refine Set.union_subset_union (slots_mono (Nat.le_succ _)) ?_
  exact Set.biUnion_subset_biUnion_left fun d' hd' => List.mem_append_left [d] hd'

/-- What is written now counts as changed. -/
theorem written_subset_appended :
    span (slotAt game.pool probe.gPoolNext) (4 * poolElems) ∪ childFields d ⊆
      changed game (appended game probe d) := by
  rw [changed, extended_appended]
  refine Set.union_subset_union (slot_subset_slots (Nat.lt_succ_self _)) ?_
  exact Set.subset_biUnion_of_mem (u := childFields) (List.mem_append_right _ (by simp))

theorem AppendedOnce.appended (h : AppendedOnce game probe) (hd : d ∈ game.defs)
    (he : Extends game.pool probe d) : AppendedOnce game (appended game probe d) := by
  have hnew := h.not_extended he
  have hlength : probe.extended.length = probe.gPoolNext := by
    rw [Probe.extended, List.length_map, h.used]
  refine
    { once := ?_
      copies := ?_
      others := ?_
      used := ?_
      apart := game.pairwiseDisjoint_slots (Nat.succ_le_of_lt he.slot)
      room := ?_
      frame := ?_ }
  · rw [extended_appended]
    refine List.nodup_append.2 ⟨h.once, List.nodup_singleton d, ?_⟩
    rintro a ha b hb rfl
    exact hnew (List.mem_singleton.1 hb ▸ ha)
  · intro slot d' hget
    rw [extended_appended] at hget
    -- Slots are used in the order of the records.
    by_cases hold : slot < probe.extended.length
    · rw [List.getElem?_append_left hold] at hget
      rcases h.copies slot d' hget with ⟨hd', hchildren', hcopied⟩
      have hne : d' ≠ d := by
        rintro rfl
        exact hnew (List.mem_of_getElem? hget)
      exact ⟨hd', hchildren', hcopied.congr (eqOn_appended_other he hd hd' hne)
        (eqOn_appended_slot he hd (hlength ▸ hold))⟩
    · rw [List.getElem?_append_right (Nat.not_lt.1 hold), List.getElem?_singleton] at hget
      split at hget
      · have hslot : slot = probe.gPoolNext := by omega
        rw [← Option.some.inj hget, hslot]
        exact ⟨hd, h.hasChildren hd he.hasChildren, h.copied_appended hd he⟩
      · cases hget
  · intro d' hd' hchildren' hnot
    rw [extended_appended, List.mem_append, List.mem_singleton, not_or] at hnot
    exact (h.others d' hd' hchildren' hnot.1).congr (eqOn_appended_other he hd hd' hnot.2)
      (eqOn_appended_vector he hd hd' hchildren')
  · have hnext : (MenuAppend.appended game probe d).gPoolNext = probe.gPoolNext + 1 := rfl
    rw [hnext, length_gSeen_appended, h.used]
  · rw [length_gSeen_appended]
    exact he.record
  · intro a ha
    exact (eqOn_appended he fun hmem => ha (written_subset_appended hmem)).trans
      (h.frame fun hmem => ha (changed_subset_appended hmem))

theorem AppendedOnce.extendScreen_of_due (h : AppendedOnce game probe) (hd : d ∈ game.defs)
    (hptr : isPlausible d = true) (hdue : Due game probe d) :
    (extendScreen game.pool probe d).1 = MenuAppend.appended game probe d := by
  rcases extendScreen_cases game.pool probe d with ⟨hnot, _⟩ | ⟨_, happend⟩
  · exact absurd ((h.extends_iff hd hptr).2 hdue) hnot
  · rw [happend]
    rfl

theorem AppendedOnce.extendScreen_of_not_due (h : AppendedOnce game probe) (hd : d ∈ game.defs)
    (hptr : isPlausible d = true) (hnot : ¬ Due game probe d) :
    extendScreen game.pool probe d = (probe, []) := by
  rcases extendScreen_cases game.pool probe d with ⟨_, hnone⟩ | ⟨he, _⟩
  · exact hnone
  · exact absurd ((h.extends_iff hd hptr).1 he) hnot

/-- Whatever the handler does, it does it at most once to each list. -/
theorem AppendedOnce.extendScreen (h : AppendedOnce game probe) (hd : d ∈ game.defs) :
    AppendedOnce game (extendScreen game.pool probe d).1 := by
  rcases extendScreen_cases game.pool probe d with ⟨_, hnone⟩ | ⟨he, happend⟩
  · rw [hnone]
    exact h
  · rw [happend]
    exact h.appended hd he

end Append

/-! ## The handler and its runs -/

section Handler

variable {game : Game poolSlots} {probe : Probe} {event : Event}

theorem step_foreign (gPool : Word) (hforeign : ¬ event.ep.Ours) :
    (handler gPool).step probe event = (probe, [⟨.continueSearch, event.ep.context, []⟩]) := by
  simp only [handler, bpHandler, if_pos (Exception.foreign_iff.2 hforeign)]

theorem step_ours (gPool : Word) (hours : event.ep.Ours)
    (hptr : isPlausible event.ep.context.ebx) :
    (handler gPool).step probe event =
      ((extendScreen gPool probe event.ep.context.ebx).1,
        [⟨.continueExecution,
          { event.ep.context with
            eax := typeOf (extendScreen gPool probe event.ep.context.ebx).1.mem
              event.ep.context.ebx
            eip := factoryTypeRead + factoryTypeLen },
          (extendScreen gPool probe event.ep.context.ebx).2⟩]) := by
  have hmine := fun hforeign => Exception.foreign_iff.1 hforeign hours
  simp only [handler, bpHandler, if_neg hmine, hptr, Bool.not_true, Bool.false_eq_true,
    if_false]

theorem step_junk (gPool : Word) (hours : event.ep.Ours)
    (hptr : ¬ isPlausible event.ep.context.ebx) :
    (handler gPool).step probe event =
      (disarmBp probe event.protect,
        [⟨.continueExecution, { event.ep.context with eip := factoryTypeRead }, []⟩]) := by
  have hmine := fun hforeign => Exception.foreign_iff.1 hforeign hours
  simp only [handler, bpHandler, if_neg hmine, hptr, Bool.not_false, if_true]

/-- What is stored into the pool and the table is within them. -/
theorem inBounds_extendScreen {gPool d : Word} :
    ∀ store ∈ (extendScreen gPool probe d).2, store.InBounds := by
  rcases extendScreen_cases gPool probe d with ⟨_, hnone⟩ | ⟨he, happend⟩
  · rw [hnone]
    exact fun _ hmem => absurd hmem List.not_mem_nil
  · have hfew := he.few
    have hslot := he.slot
    have hrecord := he.record
    rw [happend]
    intro store hmem
    rcases List.mem_append.1 hmem with hpool | htable
    · rcases List.mem_map.1 hpool with ⟨k, hk, rfl⟩
      have hlt := List.mem_range.1 hk
      exact ⟨hslot, Nat.lt_trans hlt hfew⟩
    · rcases List.mem_cons.1 htable with rfl | hids
      · exact hrecord
      · rcases List.mem_map.1 hids with ⟨k, hk, rfl⟩
        have hlt := List.mem_range.1 hk
        exact ⟨hrecord, Nat.lt_trans (Nat.lt_succ_of_lt hlt) hfew⟩

theorem eqOn_extendScreen (game : Game poolSlots) (probe : Probe) (d : Word) :
    Set.EqOn (extendScreen game.pool probe d).1.mem probe.mem
      (span (slotAt game.pool probe.gPoolNext) (4 * poolElems) ∪ childFields d)ᶜ := by
  rcases extendScreen_cases game.pool probe d with ⟨_, hnone⟩ | ⟨he, happend⟩
  · rw [hnone]
    exact fun _ _ => rfl
  · rw [happend]
    exact eqOn_appended he

theorem mem_disarmBp (probe : Probe) (protect : Bool) :
    (disarmBp probe protect).mem = probe.mem := by
  cases protect <;> rfl

theorem AppendedOnce.disarmBp (h : AppendedOnce game probe) (protect : Bool) :
    AppendedOnce game (disarmBp probe protect) := by
  cases protect with
  | false => exact h
  | true => exact ⟨h.once, h.copies, h.others, h.used, h.apart, h.room, h.frame⟩

theorem AppendedOnce.step (h : AppendedOnce game probe) (hevent : event.Dispatches game) :
    AppendedOnce game ((handler game.pool).step probe event).1 := by
  by_cases hours : event.ep.Ours
  · by_cases hptr : isPlausible event.ep.context.ebx
    · rw [step_ours game.pool hours hptr]
      exact h.extendScreen (hevent hours hptr)
    · rw [step_junk game.pool hours hptr]
      exact h.disarmBp event.protect
  · rw [step_foreign game.pool hours]
    exact h

/-- The emulated instruction is the one that the breakpoint stands on. -/
theorem cpu_emulated (context : Context) (mem : Memory) :
    ({ context with
        eax := typeOf mem context.ebx
        eip := factoryTypeRead + factoryTypeLen } : Context).cpu mem =
      ({ context with eip := factoryTypeRead }.cpu mem).run (.load .eax .ebx 0x3C) :=
  rfl

theorem AppendedOnce.dispatched (h : AppendedOnce game probe) (hevent : event.Dispatches game) :
    Dispatched game probe event := by
  refine
    { extends_due := ?_
      passes := ?_
      bounds := ?_
      frame := ?_
      foreign := step_foreign game.pool
      resumes := ?_ }
  · intro hours hptr hdue
    have hd := hevent hours hptr
    rw [step_ours game.pool hours hptr]
    simp only [h.extendScreen_of_due hd hptr hdue]
    exact ⟨extended_appended, h.copied_appended hd ((h.extends_iff hd hptr).2 hdue)⟩
  · intro hours hptr hnot
    rw [step_ours game.pool hours hptr, h.extendScreen_of_not_due (hevent hours hptr) hptr hnot]
  · by_cases hours : event.ep.Ours
    · by_cases hptr : isPlausible event.ep.context.ebx
      · rw [step_ours game.pool hours hptr, List.forall_mem_singleton]
        exact inBounds_extendScreen
      · rw [step_junk game.pool hours hptr, List.forall_mem_singleton]
        exact fun _ hmem => absurd hmem List.not_mem_nil
    · rw [step_foreign game.pool hours, List.forall_mem_singleton]
      exact fun _ hmem => absurd hmem List.not_mem_nil
  · by_cases hours : event.ep.Ours
    · by_cases hptr : isPlausible event.ep.context.ebx
      · rw [step_ours game.pool hours hptr]
        exact eqOn_extendScreen game probe event.ep.context.ebx
      · rw [step_junk game.pool hours hptr, mem_disarmBp]
        exact fun _ _ => rfl
    · rw [step_foreign game.pool hours]
      exact fun _ _ => rfl
  · intro hours hptr
    have hd := hevent hours hptr
    have hafter := (h.extendScreen hd).typeOf_eq hd
    rw [step_ours game.pool hours hptr, List.forall_mem_singleton]
    refine ⟨rfl, hafter, ?_⟩
    rw [← cpu_emulated, h.typeOf_eq hd, ← hafter]

/-- Records are only added. -/
theorem AppendedOnce.step_extended (h : AppendedOnce game probe) (hevent : event.Dispatches game) :
    probe.extended <+: ((handler game.pool).step probe event).1.extended := by
  by_cases hours : event.ep.Ours
  · by_cases hptr : isPlausible event.ep.context.ebx
    · have hdispatched := h.dispatched hevent
      by_cases hdue : Due game probe event.ep.context.ebx
      · rw [(hdispatched.extends_due hours hptr hdue).1]
        exact List.prefix_append _ _
      · rw [hdispatched.passes hours hptr hdue]
    · rw [step_junk game.pool hours hptr]
      cases event.protect <;> exact List.prefix_rfl
  · rw [step_foreign game.pool hours]

theorem AllExtended.step {seen : List Event} (hall : AllExtended game seen probe)
    (h : AppendedOnce game probe) (hevent : event.Dispatches game) :
    AllExtended game (seen ++ [event]) ((handler game.pool).step probe event).1 := by
  have hroom := (h.step hevent).room
  have hgrows := h.step_extended hevent
  have hlength : probe.gSeen.length ≤ ((handler game.pool).step probe event).1.gSeen.length := by
    simpa [Probe.extended] using hgrows.length_le
  intro earlier hmem hours hptr hlist
  rcases List.mem_append.1 hmem with hold | hnew
  · rcases hall earlier hold hours hptr hlist with hextended | hfull
    · exact Or.inl (hgrows.subset hextended)
    · exact Or.inr (by omega)
  · obtain rfl := List.mem_singleton.1 hnew
    by_cases hfresh : earlier.ep.context.ebx ∈ probe.extended
    · exact Or.inl (hgrows.subset hfresh)
    · by_cases hless : probe.gSeen.length < maxDefs
      · -- It is due, and gets its copy now.
        have hextended := ((h.dispatched hevent).extends_due hours hptr ⟨hlist, hfresh, hless⟩).1
        rw [hextended]
        exact Or.inl (List.mem_append_right _ (List.mem_singleton_self _))
      · exact Or.inr (by omega)

end Handler

theorem appendedOnce_start (run : Run) : AppendedOnce run.game run.start where
  once := List.nodup_nil
  copies := fun slot d hget => by
    cases hget
  others := fun _ _ _ _ => ⟨rfl, rfl, rfl, rfl⟩
  used := rfl
  apart := run.game.pairwiseDisjoint_slots (Nat.zero_le _)
  room := Nat.zero_le _
  frame := fun _ _ => rfl

theorem allExtended_run (run : Run) {before : List Event} (hbefore : before <+: run.exceptions) :
    AppendedOnce run.game ((handler run.game.pool).state run.start before) ∧
      AllExtended run.game before ((handler run.game.pool).state run.start before) := by
  induction before using List.reverseRecOn with
  | nil => exact ⟨appendedOnce_start run, fun _ hmem => absurd hmem List.not_mem_nil⟩
  | append_singleton before event ih =>
    rcases ih ((List.prefix_append before [event]).trans hbefore) with ⟨honce, hall⟩
    have hevent := run.dispatched event (hbefore.subset (by simp))
    rw [Machine.state_snoc]
    exact ⟨honce.step hevent, hall.step honce hevent⟩

/-- Over every run of the handler: each list is extended once at most, in a slot of its own, and is
extended as soon as it is dispatched, if it passes the guards and there is a record left; nothing
else is stored; and the game goes on as if it had executed the instruction. -/
theorem lists_appended_once (run : Run) :
    (handler run.game.pool).StatesSatisfy (AppendedOnce run.game) run.start run.exceptions ∧
      (handler run.game.pool).StepsSatisfy (Dispatched run.game) run.start run.exceptions ∧
      ∀ before, before <+: run.exceptions →
        AllExtended run.game before ((handler run.game.pool).state run.start before) := by
  have hrun : _ ∧ (handler run.game.pool).StepsSatisfy (Dispatched run.game) run.start
      run.exceptions :=
    Machine.satisfy_of (fun _ _ h hevent => h.step hevent)
      (fun _ _ h hevent => h.dispatched hevent) (appendedOnce_start run) run.dispatched
  exact ⟨hrun.1, hrun.2, fun _ hbefore => (allExtended_run run hbefore).2⟩

/-! ### A menu -/

/-- A screen and two lists in a row. -/
def menuAt (i : Nat) : Word :=
  0x00A00000 + BitVec.ofNat 32 (0x80 * i)

/-- The screen and the second list share a vector of one child; that of the first list is empty. -/
def menuMem : Memory := fun a =>
  let field := a &&& 0x7F
  if a = 0x00B00000 then 0x07
  else if a < menuAt 0 ∨ menuAt 3 ≤ a then 0
  else if field = 0x3C then if a < menuAt 1 then 0x0A else 0x0C
  else if field = 0x72 ∨ field = 0x76 ∨ field = 0x7A then 0xB0
  else if field = 0x74 ∨ field = 0x78 then if menuAt 1 ≤ a ∧ a < menuAt 2 then 0 else 0x04
  else 0

theorem toNat_menuAt {i : Nat} (h : i ≤ 3) : (menuAt i).toNat = 0x00A00000 + 0x80 * i := by
  rw [menuAt, BitVec.toNat_add, BitVec.toNat_ofNat]
  have hbase : (0x00A00000 : Word).toNat = 0x00A00000 := rfl
  omega

theorem vector_menuAt : ∀ i < 3, childBegin menuMem (menuAt i) = 0x00B00000 ∧
    childBytes menuMem (menuAt i) ≤ 4 := by
  decide +kernel

theorem vector_menuAt_subset {i : Nat} (hi : i < 3) :
    vector menuMem (menuAt i) ⊆ span 0x00B00000 4 := by
  rcases vector_menuAt i hi with ⟨hbegin, hbytes⟩
  rw [vector, hbegin]
  exact span_mono hbytes

theorem disjoint_blocks_menuAt {i j : Nat} (hi : i < 3) (hj : j < 3)
    (hne : menuAt i ≠ menuAt j) : Disjoint (block (menuAt i)) (block (menuAt j)) := by
  have hbehind : ∀ i j, i < j → j < 3 → Disjoint (block (menuAt i)) (block (menuAt j)) := by
    intro i j hlt hj
    have hfirst := toNat_menuAt (Nat.le_of_lt (hlt.trans hj))
    have hsecond := toNat_menuAt (Nat.le_of_lt hj)
    exact disjoint_span_of_le (by omega) (by omega)
  have hij : i ≠ j := fun heq => hne (heq ▸ rfl)
  rcases Nat.lt_or_gt_of_ne hij with hlt | hgt
  · exact hbehind i j hlt hj
  · exact (hbehind j i hgt hi).symm

theorem disjoint_vector_menuAt {i j : Nat} (hi : i < 3) (hj : j < 3) :
    Disjoint (vector menuMem (menuAt i)) (block (menuAt j)) := by
  have hblock := toNat_menuAt (Nat.le_of_lt hj)
  have hvector : (0x00B00000 : Word).toNat = 0x00B00000 := rfl
  have hapart : Disjoint (block (menuAt j)) (span 0x00B00000 4) :=
    disjoint_span_of_le (by omega) (by omega)
  exact hapart.symm.mono_left (vector_menuAt_subset hi)

theorem disjoint_block_menuPool {i : Nat} (hi : i < 3) :
    Disjoint (block (menuAt i)) (slots 0x10010000 poolSlots) := by
  have hblock := toNat_menuAt (Nat.le_of_lt hi)
  have hpool : (0x10010000 : Word).toNat = 0x10010000 := rfl
  exact disjoint_span_of_le (by omega) (by decide)

theorem disjoint_vector_menuPool {i : Nat} (hi : i < 3) :
    Disjoint (vector menuMem (menuAt i)) (slots 0x10010000 poolSlots) :=
  (disjoint_span_of_le (by decide) (by decide)).mono_left (vector_menuAt_subset hi)

def menu : Game poolSlots where
  mem := menuMem
  defs := {d | ∃ i < 3, d = menuAt i}
  pool := 0x10010000
  blocks := by
    rintro _ ⟨i, hi, rfl⟩ _ ⟨j, hj, rfl⟩ hne
    exact disjoint_blocks_menuAt hi hj hne
  vectors := by
    rintro _ ⟨i, hi, rfl⟩ _ _ ⟨j, hj, rfl⟩
    exact disjoint_vector_menuAt hi hj
  pool_blocks := by
    rintro _ ⟨i, hi, rfl⟩
    exact disjoint_block_menuPool hi
  pool_vectors := by
    rintro _ ⟨i, hi, rfl⟩ _
    exact disjoint_vector_menuPool hi
  inside := by decide

def menuEvent (i : Fin 3) : Event where
  ep :=
    { code := exceptionBreakpoint
      address := factoryTypeRead
      context := ⟨0, 0, 0, menuAt i, 0, 0, 0, 0, factoryTypeRead, 0⟩ }
  protect := true

/-- The screen twice, and both lists. -/
def menuRun : Run where
  game := menu
  gTypeOrig := 0x8B
  site := 0xCC
  exceptions := [0, 0, 1, 2].map menuEvent
  dispatched := by
    intro event hmem
    rcases List.mem_map.1 hmem with ⟨i, _, rfl⟩
    exact fun _ _ => ⟨i, i.isLt, rfl⟩

/-- The screen and the second list are extended, each once, and the empty list is not. -/
theorem lists_appended_once_menu :
    let probe := (handler menu.pool).state menuRun.start menuRun.exceptions
    AppendedOnce menu probe ∧ probe.extended = [menuAt 0, menuAt 2] ∧
      children probe.mem (menuAt 0) = [7, 7] ∧ children probe.mem (menuAt 1) = [] ∧
      children probe.mem (menuAt 2) = [7, 7] := by
  intro probe
  have honce := (lists_appended_once menuRun).1 menuRun.exceptions List.prefix_rfl
  exact ⟨honce, by decide +kernel, by decide +kernel, by decide +kernel, by decide +kernel⟩

end MenuAppend
end Tools
end Crossover
