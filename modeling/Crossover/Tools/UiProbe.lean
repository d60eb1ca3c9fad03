import Crossover.Lib.Machine
import Crossover.Tools.Breakpoint

/-!
# UiProbe — two patches at one address

`ui-probe` puts a breakpoint and, built with `ENABLE_INLINE_HOOK`, a jump at the instruction with
which the game's factory reads a definition's type.  The breakpoint keeps the byte it replaces, once
and for all; the jump replaces six bytes.  What `VirtualAlloc` and `VirtualProtect` return is an
input.

`bp_handler` is here with what it does at that address; what it notes about definitions, and does to
them, is elsewhere in memory.
-/

namespace Crossover
namespace Tools

open Memory X86

namespace UiProbe

def hookSite : Word := 0x0041D249
def hookResume : Word := 0x0041D24F

/-- `mov eax,[ebx+0x3C]` and `cmp eax,0x2B`. -/
def original : List Byte :=
  [0x8B, 0x43, 0x3C, 0x83, 0xF8, 0x2B]

/-! ## The inline hook -/

/-- What `build_stub` puts behind each other. -/
def stubBytes (onDefinition : Word) : List Byte :=
  [0x60, 0x9C, 0x53, 0xB8] ++ wordBytes onDefinition ++
    [0xFF, 0xD0, 0x83, 0xC4, 0x04, 0x9D, 0x61, 0x8B, 0x43, 0x3C, 0x83, 0xF8, 0x2B, 0x68] ++
    wordBytes hookResume ++ [0xC3]

theorem length_stubBytes (onDefinition : Word) : (stubBytes onDefinition).length = 27 :=
  rfl

/-- The bytes that `VirtualAlloc` is asked for. -/
def stubSize : Nat := 64

/-- `alloc` is what `VirtualAlloc` returns. -/
def buildStub (onDefinition : Word) (alloc : Option Word) (mem : Memory) :
    Option Word × Memory :=
  match alloc with
  | none => (none, mem)
  | some p => (some p, mem.writeBytes p (stubBytes onDefinition))

/-- `protect` says whether `VirtualProtect` succeeds. -/
def installInlineHook (onDefinition : Word) (alloc : Option Word) (protect : Bool)
    (mem : Memory) : Memory × Bool :=
  match buildStub onDefinition alloc mem with
  | (none, mem) => (mem, false)
  | (some stub, mem) =>
      -- The displacement counts from the next instruction on, modulo `2 ^ 32`.
      let rel := stub - (hookSite + 5)
      if !protect then (mem, false)
      else
        let mem := mem.write8 hookSite 0xE9
        let mem := mem.write32 (hookSite + 1) rel
        let mem := mem.write8 (hookSite + 5) 0x90
        (mem, true)

/-- The jump to the stub and a `nop`. -/
def hookBytes (stub : Word) : List Byte :=
  0xE9 :: wordBytes (stub - (hookSite + 5)) ++ [0x90]

/-! ## The breakpoint -/

structure Probe where
  mem : Memory
  gOrigByte : Byte := 0
  gOrigSaved : Bool := false

def armFactoryBp (probe : Probe) (protect : Bool) : Probe × Bool :=
  let cur := probe.mem factoryTypeRead
  if cur = 0xCC then (probe, true)
  else
    -- The byte is saved by the first call only, whatever stands there later.
    let probe :=
      if !probe.gOrigSaved then { probe with gOrigByte := cur, gOrigSaved := true } else probe
    if !protect then (probe, false)
    else ({ probe with mem := probe.mem.write8 factoryTypeRead 0xCC }, true)

/-- How `bp_handler` puts the byte back; it returns to the same address in any case. -/
def bpHandler (probe : Probe) (protect : Bool) : Probe :=
  if protect then
    { probe with mem := probe.mem.write8 factoryTypeRead probe.gOrigByte }
  else probe

/-! ## Runs -/

/-- The probe's thread arms the breakpoint, or the game comes to the address. -/
inductive ProbeEvent
  | arm (protect : Bool)
  | execute (protect : Bool)
  deriving DecidableEq, Repr

/-- The six bytes when the game executes them, and when `bp_handler` has written to them. -/
inductive Seen
  | executed (site : List Byte)
  | restored (site : List Byte)
  deriving DecidableEq, Repr

def siteBytes (mem : Memory) : List Byte :=
  mem.bytes hookSite 6

def step (probe : Probe) : ProbeEvent → Probe × List Seen
  | .arm protect => ((armFactoryBp probe protect).1, [])
  | .execute protect =>
      let executed := Seen.executed (siteBytes probe.mem)
      if probe.mem factoryTypeRead = 0xCC then
        let probe := bpHandler probe protect
        (probe, executed :: if protect then [.restored (siteBytes probe.mem)] else [])
      else (probe, [executed])

def probe : Machine Probe ProbeEvent Seen where
  step := step

/-- A run of `probe_main`: the breakpoint is armed, then the hook is installed, then the breakpoint
is armed again and again, and the game comes to the address whenever it likes.  Memory that
`VirtualAlloc` returns was free. -/
structure ProbeMain where
  mem : Memory
  onDefinition : Word
  armed : Bool
  before : List Bool
  alloc : Option Word
  protect : Bool
  after : List ProbeEvent
  fresh : ∀ stub, alloc = some stub → Disjoint (span stub stubSize) (span hookSite 6)

namespace ProbeMain

variable (run : ProbeMain)

/-- The game with the original bytes in place. -/
def start : Probe where
  mem := run.mem.writeBytes hookSite original

def eventsBefore : List ProbeEvent :=
  .arm run.armed :: run.before.map .execute

def arrived : Probe :=
  probe.state run.start run.eventsBefore

/-- Behind `install_inline_hook`. -/
def hooked : Probe :=
  { run.arrived with
    mem := (installInlineHook run.onDefinition run.alloc run.protect run.arrived.mem).1 }

def log : List Seen :=
  probe.log run.start run.eventsBefore ++ probe.log run.hooked run.after

/-- The jump is in place. -/
def Installed : Prop :=
  run.alloc.isSome = true ∧ run.protect = true

/-- The original instructions, or the jump that this run installs. -/
def Whole (site : List Byte) : Prop :=
  site = original ∨ ∃ stub, run.alloc = some stub ∧ site = hookBytes stub

/-- The game executes whole instructions or the breakpoint in front of them, and what `bp_handler`
restores are whole instructions. -/
def Allowed : Seen → Prop
  | .executed site =>
      run.Whole site ∨ ∃ whole, run.Whole whole ∧ site = 0xCC :: whole.tail
  | .restored site => run.Whole site

def Intact : Prop :=
  ∀ seen ∈ run.log, run.Allowed seen

end ProbeMain

/-! ## What is in place -/

/-- The bytes at the address, with the byte the probe keeps for them. -/
structure View (probe : Probe) (first : Byte) (rest : List Byte) : Prop where
  site : siteBytes probe.mem = first :: rest
  saved : probe.gOrigSaved = true
  orig : probe.gOrigByte = 0x8B

theorem mem_eq_of_siteBytes {mem : Memory} {first : Byte} {rest : List Byte}
    (h : siteBytes mem = first :: rest) : mem factoryTypeRead = first := by
  have hhead := head_bytes mem hookSite 5
  rw [siteBytes] at h
  rw [h] at hhead
  exact (Option.some.inj hhead).symm

theorem siteBytes_write8 {mem : Memory} {first : Byte} {rest : List Byte}
    (h : siteBytes mem = first :: rest) (b : Byte) :
    siteBytes (mem.write8 factoryTypeRead b) = b :: rest := by
  have hwritten := bytes_write8 mem hookSite b (n := 5) (by decide)
  rw [siteBytes] at h ⊢
  rw [h] at hwritten
  exact hwritten

namespace View

variable {probe : Probe} {first : Byte} {rest : List Byte}

/-- The saved byte is not replaced again. -/
theorem arm (h : View probe first rest) (protect : Bool) :
    View (armFactoryBp probe protect).1 (if protect then 0xCC else first) rest := by
  have hfirst := mem_eq_of_siteBytes h.site
  rw [armFactoryBp, hfirst]
  by_cases hcc : first = 0xCC
  -- It is armed already.
  · rw [if_pos hcc]
    have hsame : (if protect then (0xCC : Byte) else first) = first := by
      rw [hcc, ite_self]
    rw [hsame]
    exact h
  · simp only [if_neg hcc, h.saved, Bool.not_true, Bool.false_eq_true, if_false]
    cases protect with
    | false => exact h
    | true => exact ⟨siteBytes_write8 h.site _, rfl, h.orig⟩

/-- The byte that is restored is the one of the original instruction, whatever stands behind it. -/
theorem restore (h : View probe first rest) (protect : Bool) :
    View (bpHandler probe protect) (if protect then 0x8B else first) rest := by
  cases protect with
  | false => exact h
  | true =>
    refine ⟨?_, h.saved, h.orig⟩
    have hwritten := siteBytes_write8 h.site probe.gOrigByte
    rw [h.orig] at hwritten
    simpa [bpHandler, h.orig] using hwritten

/-- A breakpoint that the game comes to. -/
theorem step_execute (h : View probe 0xCC rest) (protect : Bool) :
    step probe (.execute protect) = (bpHandler probe protect,
      .executed (0xCC :: rest) :: if protect then [.restored (0x8B :: rest)] else []) := by
  have hfirst := mem_eq_of_siteBytes h.site
  have hrestored := (h.restore protect).site
  simp only [step, hfirst, if_true, h.site]
  cases protect with
  | false => rfl
  | true => simp only [if_true, hrestored]

theorem step_execute_of_ne (h : View probe first rest) (hne : first ≠ 0xCC) (protect : Bool) :
    step probe (.execute protect) = (probe, [.executed (first :: rest)]) := by
  have hfirst := mem_eq_of_siteBytes h.site
  simp only [step, hfirst, if_neg hne, h.site]

end View

theorem view_first {mem : Memory} (protect : Bool) :
    View (armFactoryBp { mem := mem.writeBytes hookSite original } protect).1
      (if protect then 0xCC else 0x8B) original.tail := by
  have hat : BytesAt (mem.writeBytes hookSite original) hookSite original :=
    bytesAt_writeBytes mem hookSite (by decide)
  have hsite : siteBytes (mem.writeBytes hookSite original) = 0x8B :: original.tail :=
    bytes_of_bytesAt hat
  have hfirst := mem_eq_of_siteBytes hsite
  have hne : ((0x8B : Byte) = 0xCC) = False := by decide
  simp only [armFactoryBp, hfirst, hne, if_false, Bool.not_false, if_true]
  cases protect with
  | false => exact ⟨hsite, rfl, rfl⟩
  | true => exact ⟨siteBytes_write8 hsite _, rfl, rfl⟩

/-- The jump is written whole, over whatever has been there. -/
theorem bytesAt_installInlineHook (onDefinition stub : Word) (mem : Memory) :
    BytesAt (installInlineHook onDefinition (some stub) true mem).1 hookSite (hookBytes stub) := by
  let first := (mem.writeBytes stub (stubBytes onDefinition)).write8 hookSite 0xE9
  let second := first.write32 (hookSite + 1) (stub - (hookSite + 5))
  have hinstalled : (installInlineHook onDefinition (some stub) true mem).1 =
      second.write8 (hookSite + 5) 0x90 := rfl
  have hopcode : second hookSite = 0xE9 := by
    have hbefore : hookSite ∉ span (hookSite + 1) 4 := by decide
    have hkept : second hookSite = first hookSite := eqOn_write32 _ _ _ hbefore
    rw [hkept]
    exact Function.update_self _ _ _
  -- The operand, byte by byte.
  have hrel : ∀ i < 4, second (hookSite + 1 + BitVec.ofNat 32 i) =
      byte (stub - (hookSite + 5)) i :=
    fun i hi => write32_add first (hookSite + 1) (stub - (hookSite + 5)) hi
  have hother : ∀ a, a ≠ hookSite + 5 → second.write8 (hookSite + 5) 0x90 a = second a :=
    fun a hne => Function.update_of_ne hne _ _
  have hlast : second.write8 (hookSite + 5) 0x90 (hookSite + 5) = 0x90 :=
    Function.update_self _ _ _
  rw [hinstalled]
  refine ⟨?_, ?_, ?_, ?_, ?_, hlast, trivial⟩
  · rw [hother _ (by decide), hopcode]
  · exact (hother _ (by decide)).trans (hrel 0 (by decide))
  · exact (hother _ (by decide)).trans (hrel 1 (by decide))
  · exact (hother _ (by decide)).trans (hrel 2 (by decide))
  · exact (hother _ (by decide)).trans (hrel 3 (by decide))

theorem siteBytes_installInlineHook (onDefinition stub : Word) (mem : Memory) :
    siteBytes (installInlineHook onDefinition (some stub) true mem).1 = hookBytes stub :=
  bytes_of_bytesAt (bytesAt_installInlineHook onDefinition stub mem)

/-- Without the jump the address is left alone. -/
theorem siteBytes_of_not_installed {onDefinition : Word} {alloc : Option Word} {protect : Bool}
    {mem : Memory} (h : ¬ (alloc.isSome = true ∧ protect = true))
    (hfresh : ∀ stub, alloc = some stub → Disjoint (span stub stubSize) (span hookSite 6)) :
    siteBytes (installInlineHook onDefinition alloc protect mem).1 = siteBytes mem := by
  cases alloc with
  | none => rfl
  | some stub =>
    have hoff : protect = false := by simpa using h
    have hstub : (installInlineHook onDefinition (some stub) false mem).1 =
        mem.writeBytes stub (stubBytes onDefinition) := rfl
    have hwritten := eqOn_writeBytes mem stub (stubBytes onDefinition)
    have hinside : span stub (stubBytes onDefinition).length ⊆ span stub stubSize :=
      span_mono (length_stubBytes onDefinition ▸ by decide)
    have hsite : Set.EqOn (mem.writeBytes stub (stubBytes onDefinition)) mem (span hookSite 6) := by
      intro a ha
      exact hwritten fun hmem => Set.disjoint_left.1 (hfresh stub rfl) (hinside hmem) ha
    rw [hoff, hstub]
    exact bytes_congr hsite (by decide)

namespace ProbeMain

variable (run : ProbeMain)

/-! ## Whole runs -/

theorem allowed_original {first : Byte} (hfirst : first = 0x8B ∨ first = 0xCC) :
    run.Allowed (.executed (first :: original.tail)) := by
  rcases hfirst with rfl | rfl
  · exact Or.inl (Or.inl rfl)
  · exact Or.inr ⟨original, Or.inl rfl, rfl⟩

/-- The original instructions are in place, or the breakpoint in front of their rest. -/
def Unjumped (state : Probe) : Prop :=
  ∃ first, (first = 0x8B ∨ first = 0xCC) ∧ View state first original.tail

theorem allowed_step {state : Probe} (h : Unjumped state) (event : ProbeEvent) :
    (∀ seen ∈ (probe.step state event).2, run.Allowed seen) ∧
      Unjumped (probe.step state event).1 := by
  rcases h with ⟨first, hfirst, hview⟩
  cases event with
  | arm protect =>
    refine ⟨fun seen hmem => absurd hmem List.not_mem_nil, _, ?_, hview.arm protect⟩
    cases protect with
    | false => exact hfirst
    | true => exact Or.inr rfl
  | execute protect =>
    by_cases hcc : first = 0xCC
    · subst hcc
      have hstep : probe.step state (.execute protect) = _ := hview.step_execute protect
      have hexecuted : run.Allowed (.executed (0xCC :: original.tail)) :=
        run.allowed_original (Or.inr rfl)
      rw [hstep]
      cases protect with
      | false =>
        refine ⟨?_, 0xCC, Or.inr rfl, hview.restore false⟩
        simpa using hexecuted
      | true =>
        have hrestored : run.Allowed (.restored (0x8B :: original.tail)) := Or.inl rfl
        refine ⟨?_, 0x8B, Or.inl rfl, hview.restore true⟩
        simpa using ⟨hexecuted, hrestored⟩
    · have hstep : probe.step state (.execute protect) = _ :=
        hview.step_execute_of_ne hcc protect
      rw [hstep]
      refine ⟨?_, first, hfirst, hview⟩
      simpa using run.allowed_original hfirst

/-- As long as there is no jump, the breakpoint alone is harmless. -/
theorem allowed_run {state : Probe} (h : Unjumped state) (events : List ProbeEvent) :
    (∀ seen ∈ probe.log state events, run.Allowed seen) ∧
      Unjumped (probe.state state events) := by
  refine Machine.run_invariant
    (I := fun _ state log => (∀ seen ∈ log, run.Allowed seen) ∧ Unjumped state) ?_ ?_ events
  · exact ⟨fun seen hmem => absurd hmem List.not_mem_nil, h⟩
  · rintro _ state log event ⟨hlog, hstate⟩
    rcases run.allowed_step hstate event with ⟨hnow, hnext⟩
    exact ⟨List.forall_mem_append.2 ⟨hlog, hnow⟩, hnext⟩

/-! ### The jump -/

/-- The first byte of the original instruction does not belong in front of the jump's operand. -/
theorem not_whole_restored (stub : Word) : ¬ run.Whole (0x8B :: (hookBytes stub).tail) := by
  rintro (horiginal | ⟨stub', _, hhook⟩)
  -- The original ends with the operand of `cmp`, the jump with a `nop`.
  · have hlast := congrArg (fun site => site.getLast?) horiginal
    have hne : (some 0x90 : Option Byte) ≠ some 0x2B := by decide
    exact hne hlast
  · have hhead := congrArg (fun site => site.head?) hhook
    have hne : (some 0x8B : Option Byte) ≠ some 0xE9 := by decide
    exact hne hhead

section Jump

variable {stub : Word} {state : Probe}

/-- With the breakpoint over the jump, the next hit that is handled puts the wrong byte back. -/
theorem armed_run (hstub : run.alloc = some stub) (h : View state 0xCC (hookBytes stub).tail)
    (events : List ProbeEvent) :
    (∀ seen ∈ probe.log state events, run.Allowed seen) ↔ .execute true ∉ events := by
  have harmed : run.Allowed (.executed (0xCC :: (hookBytes stub).tail)) :=
    Or.inr ⟨hookBytes stub, Or.inr ⟨stub, hstub, rfl⟩, rfl⟩
  induction events generalizing state with
  | nil => simp [Machine.log, Machine.run]
  | cons event events ih =>
    rw [Machine.log_cons]
    cases event with
    | arm protect =>
      have hsame : (if protect then (0xCC : Byte) else 0xCC) = 0xCC := ite_self _
      have hnext := hsame ▸ h.arm protect
      exact (ih hnext).trans (by simp)
    | execute protect =>
      have hstep : probe.step state (.execute protect) = _ := h.step_execute protect
      rw [hstep]
      cases protect with
      | false =>
        have hrest := ih (h.restore false)
        simp only [Bool.false_eq_true, if_false, List.forall_mem_append, List.forall_mem_cons,
          hrest, harmed]
        simp
      | true =>
        have hwrong : ¬ run.Allowed (.restored (0x8B :: (hookBytes stub).tail)) :=
          run.not_whole_restored stub
        simp only [if_true, List.forall_mem_append, List.forall_mem_cons, hwrong]
        simp

/-- The jump stands until it is armed over. -/
theorem jump_run (hstub : run.alloc = some stub) (h : View state 0xE9 (hookBytes stub).tail)
    (events : List ProbeEvent) :
    (∀ seen ∈ probe.log state events, run.Allowed seen) ↔
      ¬ [ProbeEvent.arm true, .execute true].Sublist events := by
  have hjump : run.Allowed (.executed (0xE9 :: (hookBytes stub).tail)) :=
    Or.inl (Or.inr ⟨stub, hstub, rfl⟩)
  induction events generalizing state with
  | nil => simp [Machine.log, Machine.run]
  | cons event events ih =>
    rw [Machine.log_cons, List.cons_sublist_cons']
    cases event with
    | arm protect =>
      have hnext := h.arm protect
      cases protect with
      | false => exact (ih hnext).trans (by simp)
      | true =>
        refine (run.armed_run hstub hnext events).trans ?_
        -- A hit behind this event is one behind a later arming, too.
        have hlater : [ProbeEvent.arm true, .execute true].Sublist events →
            .execute true ∈ events :=
          fun hsub => hsub.subset (by simp)
        rw [List.singleton_sublist]
        tauto
    | execute protect =>
      have hne : (0xE9 : Byte) ≠ 0xCC := by decide
      have hstep : probe.step state (.execute protect) = _ := h.step_execute_of_ne hne protect
      rw [hstep]
      have hrest := ih h
      simp only [List.forall_mem_append, List.forall_mem_cons, hrest, hjump]
      simp

end Jump

/-! ### From the beginning -/

theorem before_run :
    (∀ seen ∈ probe.log run.start run.eventsBefore, run.Allowed seen) ∧
      Unjumped run.arrived := by
  have hview : View (probe.step run.start (.arm run.armed)).1 _ original.tail :=
    view_first run.armed
  have hfirst : Unjumped (probe.step run.start (.arm run.armed)).1 := by
    refine ⟨_, ?_, hview⟩
    cases run.armed with
    | false => exact Or.inl rfl
    | true => exact Or.inr rfl
  have hrest := run.allowed_run hfirst (run.before.map .execute)
  rw [arrived, eventsBefore, Machine.log_cons, Machine.state_cons]
  exact hrest

/-- Without the jump the breakpoint goes on as before. -/
theorem view_hooked_of_not_installed {first : Byte} (hoff : ¬ run.Installed)
    (h : View run.arrived first original.tail) : View run.hooked first original.tail := by
  have hsite : siteBytes run.hooked.mem = siteBytes run.arrived.mem :=
    siteBytes_of_not_installed hoff run.fresh
  exact ⟨hsite.trans h.site, h.saved, h.orig⟩

/-- The jump takes the place of the breakpoint. -/
theorem view_hooked {stub : Word} {first : Byte} (hstub : run.alloc = some stub)
    (hprotect : run.protect = true) (h : View run.arrived first original.tail) :
    View run.hooked 0xE9 (hookBytes stub).tail := by
  have hsite : siteBytes run.hooked.mem = hookBytes stub := by
    rw [hooked, hstub, hprotect]
    exact siteBytes_installInlineHook run.onDefinition stub run.arrived.mem
  exact ⟨hsite, h.saved, h.orig⟩

/-- The byte that the probe keeps is the one that stood there before the jump; it is put back over
the jump's first byte when the breakpoint is armed again behind `install_inline_hook` and then hit,
and then only. -/
theorem site_intact_iff :
    run.Intact ↔
      (run.Installed → ¬ [ProbeEvent.arm true, .execute true].Sublist run.after) := by
  rcases run.before_run with ⟨hbefore, first, hfirst, hview⟩
  -- Up to `install_inline_hook` nothing can go wrong.
  have hsplit : run.Intact ↔ ∀ seen ∈ probe.log run.hooked run.after, run.Allowed seen := by
    rw [Intact, log, List.forall_mem_append]
    exact and_iff_right hbefore
  rw [hsplit]
  by_cases hon : run.Installed
  · obtain ⟨stub, hstub⟩ := Option.isSome_iff_exists.1 hon.1
    have hafter := run.jump_run hstub (run.view_hooked hstub hon.2 hview) run.after
    exact hafter.trans ⟨fun hnot _ => hnot, fun hnot => hnot hon⟩
  · have hunjumped : Unjumped run.hooked :=
      ⟨first, hfirst, run.view_hooked_of_not_installed hon hview⟩
    have hafter := run.allowed_run hunjumped run.after
    exact iff_of_true hafter.1 fun hinstalled => absurd hinstalled hon

end ProbeMain

/-- The jump is installed; the breakpoint is armed again, and hit. -/
def rearmed : ProbeMain where
  mem := fun _ => 0
  onDefinition := 0x10001000
  armed := true
  before := [true]
  alloc := some 0x02000000
  protect := true
  after := [.arm true, .execute true]
  fresh := fun stub h => by
    rw [← Option.some.inj h]
    exact disjoint_span (by decide) (by decide)

/-- What `bp_handler` leaves is `mov esi,[edx+0x9001BE2D]`. -/
theorem rearmed_jump_broken : ¬ rearmed.Intact := by
  intro hintact
  have hmem : Seen.restored [0x8B, 0xB2, 0x2D, 0xBE, 0x01, 0x90] ∈ rearmed.log := by
    decide
  have hwhole := hintact _ hmem
  exact rearmed.not_whole_restored 0x02000000 hwhole

end UiProbe
end Tools
end Crossover
