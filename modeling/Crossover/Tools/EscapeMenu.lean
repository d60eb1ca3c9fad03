import Crossover.Lib.Machine
import Crossover.Tools.Breakpoint
import Crossover.Tools.Definitions

/-!
# EscapeMenu — an entry behind every list

`escape-menu` adopts the first text that is dispatched and puts its id behind the children of the
screens and lists that come after it.  The table of the definitions it has seen has 128 entries; the
pool has 32 slots.  What `IsBadReadPtr` returns is an input.
-/

namespace Crossover
namespace Tools
namespace EscapeMenu

open Memory

def poolSlots : Nat := 32
def maxSeen : Nat := 128

/-! ## The handler -/

/-- An entry of `g_seen`, `g_rec`, `g_def` and `g_ty`. -/
structure SeenDef where
  definition : Word
  record : Word
  id : Word
  type : Word

/-- The tables have the entries that are filled. -/
structure Probe where
  mem : Memory
  gPoolNext : Nat := 0
  gEntryId : Word := 0
  gEntryDef : Word := 0
  gPatched : Nat := 0
  gHits : Nat := 0
  gLastId : Word := 0
  gSeen : List SeenDef := []
  gOrigByte : Byte
  site : Byte

/-- The first text becomes the entry; it is drawn at (420, 430). -/
def adopt (probe : Probe) (d type id : Word) : Probe :=
  if probe.gEntryId = 0 ∧ type = typeText then
    { probe with
      gEntryDef := d
      gEntryId := id
      mem := (probe.mem.write32 (d + defX) 0x43D20000).write32 (d + defY) 0x43D70000 }
  else probe

def note (probe : Probe) (seen : SeenDef) : Probe :=
  if probe.gSeen.length < maxSeen then { probe with gSeen := probe.gSeen ++ [seen] } else probe

def patch (gPool : Word) (probe : Probe) (d type id : Word) : Probe :=
  -- `b` and `e` are read for screens and lists only, and are 0 otherwise.
  let b := if probe.gEntryId ≠ 0 ∧ (type = typeScreen ∨ type = typeList) then
    childBegin probe.mem d else 0
  let e := if b ≠ 0 then childEnd probe.mem d else 0
  if 0x10000 < b ∧ b < e ∧ e - b < BitVec.ofNat 32 (poolElems * 4 - 8) then
    let n := ((e - b) / 4).toNat
    let slot := probe.gPoolNext
    if slot < poolSlots then
      { probe with
        gPoolNext := slot + 1
        mem := extendChildren probe.mem d (slotAt gPool slot) b n probe.gEntryId
        gPatched := probe.gPatched + 1
        gLastId := id }
    else probe
  else probe

def Probe.seen (probe : Probe) (d : Word) : Bool :=
  probe.gSeen.any fun seen => seen.definition = d

def examine (gPool : Word) (probe : Probe) (d : Word) : Probe :=
  let type := typeOf probe.mem d
  let id := probe.mem.read32 (d + defId)
  let probe := adopt probe d type id
  let record := probe.mem.read32 (d + defRec)
  -- A definition is looked for in the table before it is entered, if there is room for it.
  if probe.seen d then probe
  else patch gPool (note probe ⟨d, record, id, type⟩) d type id

/-- `readable` is the negation of what `IsBadReadPtr` returns. -/
def bpHandler (gPool : Word) (probe : Probe) (ep : Exception) (readable : Bool) :
    Probe × Disposition × Context :=
  if ep.code ≠ exceptionBreakpoint ∨ ep.address ≠ factoryTypeRead then
    (probe, .continueSearch, ep.context)
  else
    let probe := { probe with gHits := probe.gHits + 1 }
    let d := ep.context.ebx
    let probe := if readable then examine gPool probe d else probe
    ({ probe with site := probe.gOrigByte }, .continueExecution,
      { ep.context with eip := factoryTypeRead })

/-! ## Runs -/

/-- An exception that the handler is called with.  What it reads is a definition. -/
structure Dispatch (game : Game poolSlots) where
  ep : Exception
  readable : Bool
  dispatched : ep.Ours → readable = true → ep.context.ebx ∈ game.defs

def handler (game : Game poolSlots) :
    Machine Probe (Dispatch game) (Disposition × Context) where
  step probe dispatch :=
    let handled := bpHandler game.pool probe dispatch.ep dispatch.readable
    (handled.1, [handled.2])

def start (game : Game poolSlots) (gOrigByte site : Byte) : Probe where
  mem := game.mem
  gOrigByte := gOrigByte
  site := site

/-- Every list has the entry once more than the game put it there at most, behind the children that
the game put there. -/
def InjectedOnce (game : Game poolSlots) (probe : Probe) : Prop :=
  ∀ d ∈ game.defs, HasChildren game.mem d →
    (children probe.mem d).count probe.gEntryId ≤
        (children game.mem d).count probe.gEntryId + 1 ∧
      children game.mem d <+: children probe.mem d

/-- A definition is extended if it is dispatched now: there is an entry, the table does not have the
definition, its vector is not too long, and a slot is left. -/
structure Patches (probe : Probe) (d : Word) : Prop where
  entry : probe.gEntryId ≠ 0
  unseen : probe.seen d = false
  hasChildren : HasChildren probe.mem d
  begins : 0x10000 < childBegin probe.mem d
  some : childBegin probe.mem d < childEnd probe.mem d
  few : childEnd probe.mem d - childBegin probe.mem d < BitVec.ofNat 32 (poolElems * 4 - 8)
  slot : probe.gPoolNext < poolSlots

/-- It has been extended before: its vector is in the pool. -/
def Repeats (game : Game poolSlots) (probe : Probe) (dispatch : Dispatch game) : Prop :=
  dispatch.ep.Ours ∧ dispatch.readable = true ∧ Patches probe dispatch.ep.context.ebx ∧
    childBegin probe.mem dispatch.ep.context.ebx ∈ slots game.pool probe.gPoolNext

/-! ## One definition -/

section Examine

variable {gPool : Word} {probe : Probe} {d : Word}

/-- The state that the lists depend on. -/
structure Same (probe probe' : Probe) : Prop where
  mem : probe'.mem = probe.mem
  gEntryId : probe'.gEntryId = probe.gEntryId
  gPoolNext : probe'.gPoolNext = probe.gPoolNext

/-- The first text is moved. -/
structure Adopted (probe probe' : Probe) (d : Word) : Prop where
  first : probe.gEntryId = 0
  mem : Set.EqOn probe'.mem probe.mem (positionFields d)ᶜ
  gPoolNext : probe'.gPoolNext = probe.gPoolNext

/-- The vector is one longer. -/
structure Extended (gPool : Word) (probe probe' : Probe) (d : Word) : Prop where
  mem : probe'.mem = extendChildren probe.mem d (slotAt gPool probe.gPoolNext)
    (childBegin probe.mem d) (childBytes probe.mem d / 4) probe.gEntryId
  gEntryId : probe'.gEntryId = probe.gEntryId
  gPoolNext : probe'.gPoolNext = probe.gPoolNext + 1

theorem same_note (probe : Probe) (seen : SeenDef) : Same probe (note probe seen) := by
  rw [note]
  split <;> exact ⟨rfl, rfl, rfl⟩

theorem Extended.of_same {noted probe' : Probe} (hnoted : Same probe noted)
    (h : Extended gPool noted probe' d) : Extended gPool probe probe' d := by
  refine ⟨?_, h.gEntryId.trans hnoted.gEntryId, ?_⟩
  · rw [h.mem, hnoted.mem, hnoted.gEntryId, hnoted.gPoolNext]
  · rw [h.gPoolNext, hnoted.gPoolNext]

theorem eqOn_adopt (mem : Memory) (x y : Word) :
    Set.EqOn ((mem.write32 (d + defX) x).write32 (d + defY) y) mem (positionFields d)ᶜ := by
  have hx : span (d + defX) 4 ⊆ positionFields d := span_mono (by decide)
  have hy : span (d + defY) 4 ⊆ positionFields d := by
    refine span_subset_span ?_
    rw [add_sub_add_left_eq_sub]
    decide
  exact eqOn_write32_of (eqOn_write32_of (fun _ _ => rfl) hx x) hy y

theorem patch_of {type id : Word} (hentry : probe.gEntryId ≠ 0)
    (htype : type = typeScreen ∨ type = typeList) (hbegins : 0x10000 < childBegin probe.mem d)
    (hsome : childBegin probe.mem d < childEnd probe.mem d)
    (hfew : childEnd probe.mem d - childBegin probe.mem d < BitVec.ofNat 32 (poolElems * 4 - 8))
    (hslot : probe.gPoolNext < poolSlots) :
    Extended gPool probe (patch gPool probe d type id) d := by
  have hnonzero : childBegin probe.mem d ≠ 0 := by
    intro hzero
    rw [hzero] at hbegins
    exact absurd hbegins (by decide)
  simp only [patch, if_pos (And.intro hentry htype), if_pos hnonzero,
    if_pos (And.intro hbegins (And.intro hsome hfew)), if_pos hslot, childCount_eq _ _ hsome]
  exact ⟨rfl, rfl, rfl⟩

theorem patch_of_not {type id : Word}
    (h : ¬ (probe.gEntryId ≠ 0 ∧ (type = typeScreen ∨ type = typeList) ∧
      0x10000 < childBegin probe.mem d ∧ childBegin probe.mem d < childEnd probe.mem d ∧
      childEnd probe.mem d - childBegin probe.mem d < BitVec.ofNat 32 (poolElems * 4 - 8) ∧
      probe.gPoolNext < poolSlots)) :
    patch gPool probe d type id = probe := by
  have hnone : ¬ ((0x10000 : Word) < 0) := by decide
  simp only [patch]
  by_cases hkind : probe.gEntryId ≠ 0 ∧ (type = typeScreen ∨ type = typeList)
  · rw [if_pos hkind]
    -- A vector at 0 fails the test of its bounds.
    by_cases hnonzero : childBegin probe.mem d ≠ 0
    · rw [if_pos hnonzero]
      split_ifs with hvector hslot
      · exact absurd ⟨hkind.1, hkind.2, hvector.1, hvector.2.1, hvector.2.2, hslot⟩ h
      · rfl
      · rfl
    · rw [not_ne_iff.1 hnonzero, if_neg fun hvector => hnone hvector.1]
  · rw [if_neg hkind, if_neg fun hvector => hnone hvector.1]

theorem examine_of_patches (h : Patches probe d) :
    Extended gPool probe (examine gPool probe d) d := by
  have hadopt : ∀ id, adopt probe d (typeOf probe.mem d) id = probe :=
    fun id => if_neg fun hfirst => h.entry hfirst.1
  -- The entry in the table makes no difference to the patch.
  have hnoted : ∀ seen, Extended gPool probe (patch gPool (note probe seen) d
      (typeOf probe.mem d) (probe.mem.read32 (d + defId))) d := by
    intro seen
    have hsame := same_note probe seen
    refine (patch_of ?_ h.hasChildren ?_ ?_ ?_ ?_).of_same hsame
    · rw [hsame.gEntryId]
      exact h.entry
    · rw [hsame.mem]
      exact h.begins
    · rw [hsame.mem]
      exact h.some
    · rw [hsame.mem]
      exact h.few
    · rw [hsame.gPoolNext]
      exact h.slot
  simp only [examine, hadopt, h.unseen, Bool.false_eq_true, if_false]
  exact hnoted _

theorem examine_of_not_patches (h : ¬ Patches probe d) :
    Same probe (examine gPool probe d) ∨ Adopted probe (examine gPool probe d) d := by
  by_cases hfirst : probe.gEntryId = 0 ∧ typeOf probe.mem d = typeText
  · -- A text has no children to be extended.
    have hkind : ¬ (typeOf probe.mem d = typeScreen ∨ typeOf probe.mem d = typeList) := by
      rw [hfirst.2]
      decide
    have hadopted : Adopted probe (adopt probe d (typeOf probe.mem d)
        (probe.mem.read32 (d + defId))) d := by
      rw [adopt, if_pos hfirst]
      exact ⟨hfirst.1, eqOn_adopt probe.mem _ _, rfl⟩
    refine Or.inr ?_
    simp only [examine]
    split
    · exact hadopted
    · rw [patch_of_not fun hall => hkind hall.2.1]
      have hnoted := same_note (adopt probe d (typeOf probe.mem d) (probe.mem.read32 (d + defId)))
      refine ⟨hadopted.first, ?_, ?_⟩
      · rw [(hnoted _).mem]
        exact hadopted.mem
      · rw [(hnoted _).gPoolNext]
        exact hadopted.gPoolNext
  · have hadopt : ∀ id, adopt probe d (typeOf probe.mem d) id = probe := fun id => if_neg hfirst
    refine Or.inl ?_
    simp only [examine, hadopt]
    by_cases hseen : probe.seen d = true
    · rw [if_pos hseen]
      exact ⟨rfl, rfl, rfl⟩
    · rw [if_neg hseen, patch_of_not ?_]
      · exact same_note probe _
      · rw [(same_note probe _).mem, (same_note probe _).gEntryId, (same_note probe _).gPoolNext]
        rintro ⟨hentry, htype, hbegins, hsome, hfew, hslot⟩
        exact h ⟨hentry, by simpa using hseen, htype, hbegins, hsome, hfew, hslot⟩

end Examine

/-! ## The lists -/

section Lists

variable {game : Game poolSlots} {probe probe' : Probe} {d d' : Word} {k : Nat}

/-- The entry has been put behind the children `k` times. -/
structure Injected (game : Game poolSlots) (probe : Probe) (d : Word) (k : Nat) : Prop where
  ids : children probe.mem d = children game.mem d ++ List.replicate k probe.gEntryId
  entry : k ≠ 0 → probe.gEntryId ≠ 0
  original : k = 0 → childBegin probe.mem d = childBegin game.mem d ∧
    childEnd probe.mem d = childEnd game.mem d
  copied : k ≠ 0 → ∃ slot < probe.gPoolNext, childBegin probe.mem d = slotAt game.pool slot ∧
    childBytes probe.mem d ≤ 4 * poolElems

namespace Injected

theorem vector_original (h : Injected game probe d 0) : vector probe.mem d = vector game.mem d := by
  rw [vector, vector, childBytes, childBytes, (h.original rfl).1, (h.original rfl).2]

theorem vector_copied (h : Injected game probe d k) (hk : k ≠ 0) :
    ∃ slot < probe.gPoolNext,
      vector probe.mem d ⊆ span (slotAt game.pool slot) (4 * poolElems) := by
  rcases h.copied hk with ⟨slot, hslot, hbegins, hbytes⟩
  refine ⟨slot, hslot, ?_⟩
  rw [vector, hbegins]
  exact span_mono hbytes

/-- No definition is in a vector. -/
theorem disjoint_block (h : Injected game probe d k) (hroom : probe.gPoolNext ≤ poolSlots)
    (hd : d ∈ game.defs) (hchildren : HasChildren game.mem d) (hd' : d' ∈ game.defs) :
    Disjoint (vector probe.mem d) (block d') := by
  by_cases hk : k = 0
  · subst hk
    rw [h.vector_original]
    exact game.vectors d hd hchildren d' hd'
  · rcases h.vector_copied hk with ⟨slot, hslot, hinside⟩
    have hpool : vector probe.mem d ⊆ slots game.pool poolSlots :=
      hinside.trans (slot_subset_slots (Nat.lt_of_lt_of_le hslot hroom))
    exact ((game.pool_blocks d' hd').mono_right hpool).symm

/-- Nor is the next slot. -/
theorem disjoint_slot (h : Injected game probe d k) (hslot : probe.gPoolNext < poolSlots)
    (hd : d ∈ game.defs) (hchildren : HasChildren game.mem d) :
    Disjoint (vector probe.mem d) (span (slotAt game.pool probe.gPoolNext) (4 * poolElems)) := by
  by_cases hk : k = 0
  · subst hk
    rw [h.vector_original]
    exact (game.pool_vectors d hd hchildren).mono_right (slot_subset_slots hslot)
  · rcases h.vector_copied hk with ⟨slot, hbefore, hinside⟩
    exact (game.disjoint_slots_slot hslot).mono_left
      (hinside.trans (slot_subset_slots hbefore))

theorem congr (h : Injected game probe d k)
    (hfields : Set.EqOn probe'.mem probe.mem (childFields d))
    (hvector : Set.EqOn probe'.mem probe.mem (vector probe.mem d))
    (hentry : probe.gEntryId ≠ 0 → probe'.gEntryId = probe.gEntryId)
    (hnext : probe.gPoolNext ≤ probe'.gPoolNext) : Injected game probe' d k := by
  refine
    { ids := ?_
      entry := ?_
      original := ?_
      copied := ?_ }
  -- An entry that is there at all keeps its id.
  · rw [children_congr hfields hvector, h.ids]
    by_cases hk : k = 0
    · rw [hk, List.replicate_zero, List.replicate_zero]
    · rw [hentry (h.entry hk)]
  · intro hk
    rw [hentry (h.entry hk)]
    exact h.entry hk
  · intro hk
    rw [childBegin_congr hfields, childEnd_congr hfields]
    exact h.original hk
  · intro hk
    rcases h.copied hk with ⟨slot, hslot, hbegins, hbytes⟩
    rw [childBegin_congr hfields, childBytes_congr hfields]
    exact ⟨slot, Nat.lt_of_lt_of_le hslot hnext, hbegins, hbytes⟩

end Injected

/-- Every list has the entry once at most. -/
structure Lists (game : Game poolSlots) (probe : Probe) : Prop where
  room : probe.gPoolNext ≤ poolSlots
  types : ∀ d ∈ game.defs, typeOf probe.mem d = typeOf game.mem d
  once : ∀ d ∈ game.defs, HasChildren game.mem d → ∃ k ≤ 1, Injected game probe d k

theorem Lists.hasChildren (h : Lists game probe) (hd : d ∈ game.defs)
    (hchildren : HasChildren probe.mem d) : HasChildren game.mem d := by
  rwa [HasChildren, h.types d hd] at hchildren

theorem Lists.same (h : Lists game probe) (hsame : Same probe probe') : Lists game probe' := by
  refine ⟨hsame.gPoolNext ▸ h.room, ?_, ?_⟩
  · rw [hsame.mem]
    exact h.types
  · intro d hd hchildren
    rcases h.once d hd hchildren with ⟨k, hk, hinjected⟩
    have hmem : ∀ part, Set.EqOn probe'.mem probe.mem part := by
      intro part
      rw [hsame.mem]
      exact fun _ _ => rfl
    exact ⟨k, hk, hinjected.congr (hmem _) (hmem _) (fun _ => hsame.gEntryId)
      (Nat.le_of_eq hsame.gPoolNext.symm)⟩

/-- Moving a text leaves the lists alone. -/
theorem Lists.adopted (h : Lists game probe) (hd : d ∈ game.defs)
    (hadopted : Adopted probe probe' d) : Lists game probe' := by
  have hkept : ∀ part, Disjoint part (positionFields d) → Set.EqOn probe'.mem probe.mem part :=
    fun part hpart => hadopted.mem.mono (Set.subset_compl_iff_disjoint_right.2 hpart)
  have hother : ∀ d' ∈ game.defs, d' ≠ d → Disjoint (block d') (positionFields d) :=
    fun d' hd' hne => (game.blocks hd' hd hne).mono_right positionFields_subset_block
  refine ⟨hadopted.gPoolNext ▸ h.room, ?_, ?_⟩
  · intro d' hd'
    have htype : Disjoint (typeField d') (positionFields d) := by
      by_cases hsame : d' = d
      · rw [hsame]
        exact disjoint_type_position
      · exact (hother d' hd' hsame).mono_left typeField_subset_block
    exact (typeOf_congr (hkept _ htype)).trans (h.types d' hd')
  · intro d' hd' hchildren
    rcases h.once d' hd' hchildren with ⟨k, hk, hinjected⟩
    have hfields : Disjoint (childFields d') (positionFields d) := by
      by_cases hsame : d' = d
      · rw [hsame]
        exact disjoint_position_child.symm
      · exact (hother d' hd' hsame).mono_left childFields_subset_block
    have hvector : Disjoint (vector probe.mem d') (positionFields d) :=
      (hinjected.disjoint_block h.room hd' hchildren hd).mono_right positionFields_subset_block
    exact ⟨k, hk, hinjected.congr (hkept _ hfields) (hkept _ hvector)
      (fun hentry => absurd hadopted.first hentry) (Nat.le_of_eq hadopted.gPoolNext.symm)⟩

/-! ### One more -/

/-- The children and another one fit into a slot. -/
theorem Patches.childCount_lt (h : Patches probe d) :
    childBytes probe.mem d / 4 < poolElems := by
  have hsome := h.some
  have hfew := h.few
  rw [BitVec.lt_def, BitVec.toNat_sub_of_le (BitVec.le_of_lt hsome)] at hfew
  have hbytes : childBytes probe.mem d < 248 := hfew
  rw [poolElems]
  omega

theorem eqOn_extended (hpatches : Patches probe d)
    (hextended : Extended game.pool probe probe' d) {part : Set Word}
    (hslot : Disjoint part (span (slotAt game.pool probe.gPoolNext) (4 * poolElems)))
    (hfields : Disjoint part (childFields d)) : Set.EqOn probe'.mem probe.mem part := by
  rw [hextended.mem]
  refine (Game.eqOn_extendSlot game.pool hpatches.childCount_lt).mono ?_
  rw [Set.subset_compl_iff_disjoint_right, Set.disjoint_union_right]
  exact ⟨hslot, hfields⟩

/-- The list that is extended has the entry once more. -/
theorem Injected.extended (h : Injected game probe d k) (hd : d ∈ game.defs)
    (hchildren : HasChildren game.mem d) (hpatches : Patches probe d)
    (hextended : Extended game.pool probe probe' d) : Injected game probe' d (k + 1) := by
  have hcount := hpatches.childCount_lt
  -- The old vector is not in the slot, be it the game's or an earlier copy.
  have hsource : Disjoint (span (childBegin probe.mem d) (4 * (childBytes probe.mem d / 4)))
      (span (slotAt game.pool probe.gPoolNext) (4 * poolElems)) :=
    (h.disjoint_slot hpatches.slot hd hchildren).mono_left (words_subset_vector probe.mem d)
  have hids : words probe.mem (childBegin probe.mem d) (childBytes probe.mem d / 4) =
      children game.mem d ++ List.replicate k probe.gEntryId := h.ids
  refine
    { ids := ?_
      entry := fun _ => hextended.gEntryId ▸ hpatches.entry
      original := fun hzero => absurd hzero (Nat.succ_ne_zero k)
      copied := fun _ => ⟨probe.gPoolNext, ?_, ?_, ?_⟩ }
  · rw [hextended.mem, game.children_extendSlot hd hpatches.slot hcount hsource, hids,
      hextended.gEntryId, List.replicate_succ', List.append_assoc]
  · rw [hextended.gPoolNext]
    exact Nat.lt_succ_self _
  · rw [hextended.mem]
    exact childBegin_setChildren _ _ _ _
  · rw [hextended.mem, game.childBytes_extendSlot hpatches.slot hcount]
    omega

/-- The others stay as they are. -/
theorem Injected.extended_other (h : Injected game probe d' k) (hroom : probe.gPoolNext ≤ poolSlots)
    (hd : d ∈ game.defs) (hd' : d' ∈ game.defs) (hne : d' ≠ d)
    (hchildren : HasChildren game.mem d') (hpatches : Patches probe d)
    (hextended : Extended game.pool probe probe' d) : Injected game probe' d' k := by
  have hpool : Disjoint (block d') (span (slotAt game.pool probe.gPoolNext) (4 * poolElems)) :=
    (game.pool_blocks d' hd').mono_right (slot_subset_slots hpatches.slot)
  have hblocks := game.blocks hd' hd hne
  have hfields : Set.EqOn probe'.mem probe.mem (childFields d') :=
    eqOn_extended hpatches hextended (hpool.mono_left childFields_subset_block)
      (hblocks.mono childFields_subset_block childFields_subset_block)
  have hvector : Set.EqOn probe'.mem probe.mem (vector probe.mem d') :=
    eqOn_extended hpatches hextended (h.disjoint_slot hpatches.slot hd' hchildren)
      ((h.disjoint_block hroom hd' hchildren hd).mono_right childFields_subset_block)
  exact h.congr hfields hvector (fun _ => hextended.gEntryId)
    (Nat.le_of_lt (hextended.gPoolNext ▸ Nat.lt_succ_self _))

/-- A vector in the pool has been extended before. -/
theorem Injected.eq_zero_iff (h : Injected game probe d k) (hroom : probe.gPoolNext ≤ poolSlots)
    (hd : d ∈ game.defs) (hchildren : HasChildren game.mem d) (hpatches : Patches probe d) :
    k = 0 ↔ childBegin probe.mem d ∉ slots game.pool probe.gPoolNext := by
  constructor
  · rintro rfl
    have hsome : childBegin probe.mem d ∈ vector game.mem d := by
      rw [← h.vector_original]
      refine mem_span_self ?_
      have hlt := BitVec.lt_def.1 hpatches.some
      rw [childBytes]
      omega
    have hpool : slots game.pool probe.gPoolNext ⊆ slots game.pool poolSlots := slots_mono hroom
    exact fun hmem => Set.disjoint_left.1 (game.pool_vectors d hd hchildren) hsome (hpool hmem)
  · intro hout
    by_contra hk
    rcases h.copied hk with ⟨slot, hslot, hbegins, _⟩
    refine hout ?_
    rw [hbegins]
    exact slot_subset_slots hslot (mem_span_self (by decide))

theorem Lists.extended (h : Lists game probe) (hd : d ∈ game.defs) (hpatches : Patches probe d)
    (hfirst : childBegin probe.mem d ∉ slots game.pool probe.gPoolNext)
    (hextended : Extended game.pool probe probe' d) : Lists game probe' := by
  refine ⟨?_, ?_, ?_⟩
  · rw [hextended.gPoolNext]
    exact hpatches.slot
  · intro d' hd'
    have hpool : Disjoint (block d') (span (slotAt game.pool probe.gPoolNext) (4 * poolElems)) :=
      (game.pool_blocks d' hd').mono_right (slot_subset_slots hpatches.slot)
    have hfields : Disjoint (typeField d') (childFields d) := by
      by_cases hsame : d' = d
      · rw [hsame]
        exact disjoint_type_child
      · exact (game.blocks hd' hd hsame).mono typeField_subset_block childFields_subset_block
    have hkept := eqOn_extended hpatches hextended (hpool.mono_left typeField_subset_block) hfields
    exact (typeOf_congr hkept).trans (h.types d' hd')
  · intro d' hd' hchildren
    rcases h.once d' hd' hchildren with ⟨k, hk, hinjected⟩
    -- The vector is not in the pool, so this is the first time.
    by_cases hsame : d' = d
    · subst hsame
      have hzero := (hinjected.eq_zero_iff h.room hd' hchildren hpatches).2 hfirst
      subst hzero
      exact ⟨1, Nat.le_refl 1, hinjected.extended hd' hchildren hpatches hextended⟩
    · exact ⟨k, hk, hinjected.extended_other h.room hd hd' hsame hchildren hpatches hextended⟩

end Lists

/-! ## Whole runs -/

section Runs

variable {game : Game poolSlots} {probe : Probe} {dispatch : Dispatch game}

theorem step_of_patches (hours : dispatch.ep.Ours) (hreadable : dispatch.readable = true)
    (hpatches : Patches probe dispatch.ep.context.ebx) :
    Extended game.pool probe ((handler game).step probe dispatch).1 dispatch.ep.context.ebx := by
  have hmine := fun hforeign => Exception.foreign_iff.1 hforeign hours
  have hhit : Patches { probe with gHits := probe.gHits + 1 } dispatch.ep.context.ebx :=
    ⟨hpatches.entry, hpatches.unseen, hpatches.hasChildren, hpatches.begins, hpatches.some,
      hpatches.few, hpatches.slot⟩
  have hextended : Extended game.pool { probe with gHits := probe.gHits + 1 } _ _ :=
    examine_of_patches hhit
  simp only [handler, bpHandler, if_neg hmine, hreadable, if_true]
  exact ⟨hextended.mem, hextended.gEntryId, hextended.gPoolNext⟩

theorem step_of_not_patches
    (h : ¬ (dispatch.ep.Ours ∧ dispatch.readable = true ∧
      Patches probe dispatch.ep.context.ebx)) :
    Same probe ((handler game).step probe dispatch).1 ∨
      (dispatch.ep.context.ebx ∈ game.defs ∧
        Adopted probe ((handler game).step probe dispatch).1 dispatch.ep.context.ebx) := by
  by_cases hours : dispatch.ep.Ours
  · have hmine := fun hforeign => Exception.foreign_iff.1 hforeign hours
    by_cases hreadable : dispatch.readable = true
    · have hhit : ¬ Patches { probe with gHits := probe.gHits + 1 } dispatch.ep.context.ebx :=
        fun hpatches => h ⟨hours, hreadable, hpatches.entry, hpatches.unseen,
          hpatches.hasChildren, hpatches.begins, hpatches.some, hpatches.few, hpatches.slot⟩
      have hexamine : _ ∨ Adopted _ (examine game.pool _ _) _ := examine_of_not_patches hhit
      simp only [handler, bpHandler, if_neg hmine, hreadable, if_true]
      rcases hexamine with hsame | hadopted
      · exact Or.inl ⟨hsame.mem, hsame.gEntryId, hsame.gPoolNext⟩
      · exact Or.inr ⟨dispatch.dispatched hours hreadable, hadopted.first, hadopted.mem,
          hadopted.gPoolNext⟩
    · simp only [handler, bpHandler, if_neg hmine, if_neg hreadable]
      exact Or.inl ⟨rfl, rfl, rfl⟩
  · simp only [handler, bpHandler, if_pos (Exception.foreign_iff.2 hours)]
    exact Or.inl ⟨rfl, rfl, rfl⟩

theorem Lists.step (h : Lists game probe) (hfirst : ¬ Repeats game probe dispatch) :
    Lists game ((handler game).step probe dispatch).1 := by
  by_cases hpatched : dispatch.ep.Ours ∧ dispatch.readable = true ∧
      Patches probe dispatch.ep.context.ebx
  · rcases hpatched with ⟨hours, hreadable, hpatches⟩
    have hnew : childBegin probe.mem dispatch.ep.context.ebx ∉
        slots game.pool probe.gPoolNext :=
      fun hmem => hfirst ⟨hours, hreadable, hpatches, hmem⟩
    exact h.extended (dispatch.dispatched hours hreadable) hpatches hnew
      (step_of_patches hours hreadable hpatches)
  · rcases step_of_not_patches hpatched with hsame | ⟨hd, hadopted⟩
    · exact h.same hsame
    · exact h.adopted hd hadopted

theorem Lists.injectedOnce (h : Lists game probe) : InjectedOnce game probe := by
  intro d hd hchildren
  rcases h.once d hd hchildren with ⟨k, hk, hinjected⟩
  rw [hinjected.ids, List.count_append, List.count_replicate_self]
  exact ⟨Nat.add_le_add_left hk _, List.prefix_append _ _⟩

/-- A list that is extended again has the entry twice. -/
theorem Lists.not_repeats (h : Lists game probe)
    (honce : InjectedOnce game ((handler game).step probe dispatch).1) :
    ¬ Repeats game probe dispatch := by
  rintro ⟨hours, hreadable, hpatches, hpool⟩
  have hd := dispatch.dispatched hours hreadable
  have hchildren := h.hasChildren hd hpatches.hasChildren
  rcases h.once _ hd hchildren with ⟨k, hk, hinjected⟩
  -- The vector is in the pool, so the entry is there and is now put behind itself.
  have hnonzero : k ≠ 0 :=
    fun hzero => (hinjected.eq_zero_iff h.room hd hchildren hpatches).1 hzero hpool
  have htwice := hinjected.extended hd hchildren hpatches
    (step_of_patches hours hreadable hpatches)
  have hcount := (honce _ hd hchildren).1
  rw [htwice.ids, List.count_append, List.count_replicate_self] at hcount
  omega

theorem lists_start (game : Game poolSlots) (gOrigByte site : Byte) :
    Lists game (start game gOrigByte site) := by
  refine ⟨Nat.zero_le _, fun _ _ => rfl, ?_⟩
  intro d _ _
  refine ⟨0, Nat.zero_le 1, ?_⟩
  exact
    { ids := (List.append_nil _).symm
      entry := fun hne => absurd rfl hne
      original := fun _ => ⟨rfl, rfl⟩
      copied := fun hne => absurd rfl hne }

end Runs

/-- The handler knows a definition again by its table alone, which it fills with all that it sees:
the entry is put into each list once at most in exactly the runs in which no definition is extended
that already has been. -/
theorem injected_once_iff (game : Game poolSlots) (gOrigByte site : Byte)
    (dispatches : List (Dispatch game)) :
    (handler game).StatesSatisfy (InjectedOnce game) (start game gOrigByte site) dispatches ↔
      (handler game).StepsSatisfy (fun probe dispatch => ¬ Repeats game probe dispatch)
        (start game gOrigByte site) dispatches :=
  Machine.statesSatisfy_iff (fun _ h => h.injectedOnce) (fun _ _ h hfirst => h.step hfirst)
    (fun _ _ h honce => h.not_repeats honce) (lists_start game gOrigByte site) dispatches

/-! ### A crowd -/

/-- 128 texts in a row, and a screen behind them. -/
def crowdAt (i : Nat) : Word :=
  0x00A00000 + BitVec.ofNat 32 (0x80 * i)

/-- The types and the ids of the texts, and the screen with a vector of one child. -/
def crowdMem : Memory := fun a =>
  if a = 0x00A0403C then 0x0A
  else if a = 0x00A04072 ∨ a = 0x00A04076 then 0xB0
  else if a = 0x00A04074 then 0x04
  else if a = 0x00B00000 then 0x07
  else if a < 0x00A04000 ∧ a &&& 0x7F = 0x3C then 0x06
  else if a < 0x00A04000 ∧ a &&& 0x7F = 0x20 then 0x05
  else 0

theorem toNat_crowdAt {i : Nat} (h : i ≤ 128) : (crowdAt i).toNat = 0x00A00000 + 0x80 * i := by
  rw [crowdAt, BitVec.toNat_add, BitVec.toNat_ofNat]
  have hbase : (0x00A00000 : Word).toNat = 0x00A00000 := rfl
  omega

theorem typeOf_crowdAt : ∀ i < 128, typeOf crowdMem (crowdAt i) = typeText := by
  decide +kernel

/-- Only the screen has children: one, far from the definitions. -/
theorem vector_crowdAt {i : Nat} (hi : i ≤ 128) (h : HasChildren crowdMem (crowdAt i)) :
    vector crowdMem (crowdAt i) = span 0x00B00000 4 := by
  -- The others are texts.
  have hlast : i = 128 := by
    by_contra hne
    rw [HasChildren, typeOf_crowdAt i (by omega)] at h
    exact absurd h (by decide)
  have hbegin : childBegin crowdMem (crowdAt 128) = 0x00B00000 := by decide +kernel
  have hbytes : childBytes crowdMem (crowdAt 128) = 4 := by decide +kernel
  rw [hlast, vector, hbegin, hbytes]

def crowd : Game poolSlots where
  mem := crowdMem
  defs := {d | ∃ i ≤ 128, d = crowdAt i}
  pool := 0x10010000
  blocks := by
    -- Definitions are 128 bytes apart and shorter than that.
    have hbehind : ∀ i j, i < j → j ≤ 128 → Disjoint (block (crowdAt i)) (block (crowdAt j)) := by
      intro i j hlt hj
      have hfirst := toNat_crowdAt (Nat.le_trans (Nat.le_of_lt hlt) hj)
      have hsecond := toNat_crowdAt hj
      exact disjoint_span_of_le (by omega) (by omega)
    rintro _ ⟨i, hi, rfl⟩ _ ⟨j, hj, rfl⟩ hne
    have hij : i ≠ j := fun heq => hne (heq ▸ rfl)
    rcases Nat.lt_or_gt_of_ne hij with hlt | hgt
    · exact hbehind i j hlt hj
    · exact (hbehind j i hgt hi).symm
  vectors := by
    rintro _ ⟨i, hi, rfl⟩ hchildren _ ⟨j, hj, rfl⟩
    have hblock := toNat_crowdAt hj
    have hvector : (0x00B00000 : Word).toNat = 0x00B00000 := rfl
    rw [vector_crowdAt hi hchildren]
    exact (disjoint_span_of_le (by omega) (by omega)).symm
  pool_blocks := by
    rintro _ ⟨i, hi, rfl⟩
    have hblock := toNat_crowdAt hi
    have hpool : (0x10010000 : Word).toNat = 0x10010000 := rfl
    exact disjoint_span_of_le (by omega) (by decide)
  pool_vectors := by
    rintro _ ⟨i, hi, rfl⟩ hchildren
    rw [vector_crowdAt hi hchildren]
    exact disjoint_span_of_le (by decide) (by decide)
  inside := by decide

def crowdDispatch (i : Fin 129) : Dispatch crowd where
  ep :=
    { code := exceptionBreakpoint
      address := factoryTypeRead
      context := ⟨0, 0, 0, crowdAt i, 0, 0, 0, 0, factoryTypeRead, 0⟩ }
  readable := true
  dispatched := fun _ _ => ⟨i, Nat.le_of_lt_succ i.isLt, rfl⟩

/-- All texts, and the screen twice. -/
def crowdDispatches : List (Dispatch crowd) :=
  (List.finRange 128).map (fun i => crowdDispatch i.castSucc) ++
    [crowdDispatch (Fin.last 128), crowdDispatch (Fin.last 128)]

/-- The table is full when the screen comes; it gets the entry each time. -/
theorem crowd_injected_twice :
    ¬ (handler crowd).StatesSatisfy (InjectedOnce crowd) (start crowd 0x8B 0xCC)
      crowdDispatches := by
  intro honce
  have hchildren : children ((handler crowd).state (start crowd 0x8B 0xCC) crowdDispatches).mem
      (crowdAt 128) = [7, 5, 5] := by
    decide +kernel
  have hentry : ((handler crowd).state (start crowd 0x8B 0xCC) crowdDispatches).gEntryId = 5 := by
    decide +kernel
  have hbefore : children crowd.mem (crowdAt 128) = [7] := by decide +kernel
  have hscreen : HasChildren crowd.mem (crowdAt 128) := by decide +kernel
  have hcount := (honce _ List.prefix_rfl (crowdAt 128) ⟨128, Nat.le_refl _, rfl⟩ hscreen).1
  rw [hchildren, hentry, hbefore] at hcount
  exact absurd hcount (by decide)

end EscapeMenu
end Tools
end Crossover
