import Crossover.Tools.Definitions
import Crossover.Tools.UiProbe

/-!
# Trampoline — the stub executed

The jump at `HOOK_SITE` and the stub that `build_stub` emits, executed on the processor of `Lib.X86`
and compared with the two instructions that they replace.  `on_definition` is compiled elsewhere: a
`Cdecl` function that stores into its own frame and argument, the child list of the definition it is
given, and `data`, its pool and counters.
-/

namespace Crossover
namespace Tools
namespace UiProbe

open Memory X86

/-! ## The code -/

def originalInstrs : List Instr :=
  [.load .eax .ebx 0x3C, .cmpImm .eax 0x2B]

/-- Up to the call. -/
def prologue (onDefinition : Word) : List Instr :=
  [.pushad, .pushfd, .push .ebx, .movImm .eax onDefinition, .call .eax]

/-- Behind the call, up to the original instructions. -/
def restore : List Instr :=
  [.addImm .esp 4, .popfd, .popad]

def epilogue : List Instr :=
  restore ++ (originalInstrs ++ [.pushImm hookResume, .ret])

theorem encode_originalInstrs : originalInstrs.flatMap Instr.encode = original := by
  decide

/-- The bytes of `build_stub` are these instructions. -/
theorem stubBytes_eq (onDefinition : Word) :
    stubBytes onDefinition =
      (prologue onDefinition).flatMap Instr.encode ++ epilogue.flatMap Instr.encode :=
  rfl

/-! ## The two programs -/

/-- Where `on_definition` may store when it is entered: `depth` bytes of stack for itself, its
return address and its argument, the child list and its own data. -/
def onDefinitionWrites (depth : Nat) (data : Set Word) (cpu : Cpu) : Set Word :=
  span (cpu.esp - BitVec.ofNat 32 depth) (depth + 8) ∪
    (childFields (cpu.mem.read32 (cpu.esp + 4)) ∪ data)

/-- The game at the address, with the original instructions. -/
def unhooked (cpu : Cpu) : Cpu :=
  { cpu with eip := hookSite, mem := cpu.mem.writeBytes hookSite original }

/-- The same with the hook installed. -/
def hooked (onDefinition : Function) (stub : Word) (cpu : Cpu) : Cpu :=
  { unhooked cpu with
    mem := (installInlineHook onDefinition.entry (some stub) true (unhooked cpu).mem).1 }

/-- The same general registers, stack pointer and flags. -/
def Agree (cpu cpu' : Cpu) : Prop :=
  (∀ reg, cpu.get reg = cpu'.get reg) ∧ cpu.eflags = cpu'.eflags

/-- Both programs come to `HOOK_RESUME`, and agree there. -/
def Transparent (onDefinition : Function) (stub : Word) (cpu : Cpu) : Prop :=
  ∃ hooked' unhooked', Arrives onDefinition hookResume (hooked onDefinition stub cpu) hooked' ∧
    Arrives onDefinition hookResume (unhooked cpu) unhooked' ∧ Agree hooked' unhooked'

/-- The stub is executed undisturbed: it is neither in the code around the address nor where
anything is stored, and the registers on the stack are not where `on_definition` stores. -/
structure Undisturbed (onDefinition : Function) (stub : Word) (depth : Nat) (data : Set Word)
    (cpu : Cpu) : Prop where
  entry_stub : onDefinition.entry ∉ span stub stubSize
  entry_site : onDefinition.entry ∉ span hookSite 7
  stub_site : Disjoint (span stub stubSize) (span hookSite 7)
  stub_stack : Disjoint (span stub stubSize) (below cpu.esp (44 + depth))
  stub_child : Disjoint (span stub stubSize) (childFields cpu.ebx ∪ data)
  saved : Disjoint (below cpu.esp 36) (childFields cpu.ebx ∪ data)

/-- The definition's type is not where anything is stored. -/
structure TypeKept (stub : Word) (depth : Nat) (data : Set Word) (cpu : Cpu) : Prop where
  stub : Disjoint (typeField cpu.ebx) (span stub stubSize)
  site : Disjoint (typeField cpu.ebx) (span hookSite 6)
  stack : Disjoint (typeField cpu.ebx) (below cpu.esp (44 + depth))
  data : Disjoint (typeField cpu.ebx) data

/-! ## What is in memory -/

section Installed

variable (onDefinition stub : Word) (mem : Memory)

theorem eqOn_installInlineHook :
    Set.EqOn (installInlineHook onDefinition (some stub) true mem).1
      (mem.writeBytes stub (stubBytes onDefinition)) (span hookSite 6)ᶜ := by
  intro a ha
  have hopcode : a ≠ hookSite := by
    rintro rfl
    exact ha (mem_span_self (by decide))
  have hnop : a ≠ hookSite + 5 := by
    rintro rfl
    exact ha (by decide)
  have hrel : a ∉ span (hookSite + 1) 4 := by
    have hinside : span (hookSite + 1) 4 ⊆ span hookSite 6 := span_subset_span (by decide)
    exact fun hmem => ha (hinside hmem)
  have hlast := Function.update_of_ne hnop 0x90
    (((mem.writeBytes stub (stubBytes onDefinition)).write8 hookSite 0xE9).write32 (hookSite + 1)
      (stub - (hookSite + 5)))
  exact hlast.trans ((eqOn_write32 _ _ _ hrel).trans (Function.update_of_ne hopcode _ _))

/-- The stub is in place behind the jump. -/
theorem bytesAt_stub {stub : Word} (h : Disjoint (span stub stubSize) (span hookSite 7)) :
    BytesAt (installInlineHook onDefinition (some stub) true mem).1 stub
      (stubBytes onDefinition) := by
  have hbytes : BytesAt (mem.writeBytes stub (stubBytes onDefinition)) stub
      (stubBytes onDefinition) := by
    refine bytesAt_writeBytes mem stub ?_
    rw [length_stubBytes]
    decide
  refine hbytes.congr ?_ (length_stubBytes onDefinition ▸ by decide)
  have hshort : span stub 27 ⊆ span stub stubSize := span_mono (by decide)
  have hsite : span hookSite 6 ⊆ span hookSite 7 := span_mono (by decide)
  intro a ha
  rw [length_stubBytes] at ha
  exact (eqOn_installInlineHook onDefinition stub mem
    fun hmem => Set.disjoint_left.1 h (hshort ha) (hsite hmem)).symm

end Installed

/-- Whatever the address of the stub, the jump leads there: its displacement is taken modulo
`2 ^ 32`, as the processor adds it. -/
theorem step_hooked (onDefinition : Function) (stub : Word) (cpu : Cpu) :
    (hooked onDefinition stub cpu).step =
      some { hooked onDefinition stub cpu with eip := stub } := by
  have hbytes : BytesAt (hooked onDefinition stub cpu).mem (hooked onDefinition stub cpu).eip
      ((Instr.jmp (stub - (hookSite + 5))).encode ++ [0x90]) :=
    bytesAt_installInlineHook onDefinition.entry stub (unhooked cpu).mem
  have hstep := step_of_bytesAt (bytesAt_append.1 hbytes).1
  have htarget : hookSite + 5 + (stub - (hookSite + 5)) = stub := add_sub_cancel _ _
  have hrun : (hooked onDefinition stub cpu).run (.jmp (stub - (hookSite + 5))) =
      { hooked onDefinition stub cpu with eip := hookSite + 5 + (stub - (hookSite + 5)) } := rfl
  rw [hstep, hrun, htarget]

/-! ## The stub up to the call -/

/-- What the prologue pushes; the return address is behind the call. -/
def pushed (cpu : Cpu) : List Word :=
  [cpu.eax, cpu.ecx, cpu.edx, cpu.ebx, cpu.esp, cpu.ebp, cpu.esi, cpu.edi,
    cpu.eflags &&& storedMask, cpu.ebx, cpu.eip + 10]

/-- The state in which `on_definition` is entered. -/
def called (onDefinition : Function) (cpu : Cpu) : Cpu :=
  { (pushed cpu).foldl Cpu.push cpu with
    eax := onDefinition.entry
    eip := onDefinition.entry }

section Prologue

variable (onDefinition : Function) (cpu : Cpu)

theorem runAll_prologue : cpu.runAll (prologue onDefinition.entry) = called onDefinition cpu := by
  have hreturn : cpu.eip + 1#32 + 1#32 + 1#32 + 5#32 + 2#32 = cpu.eip + 10#32 := by
    simp only [add_assoc]
    rfl
  simp only [Cpu.runAll, prologue, List.foldl_cons, List.foldl_nil, Cpu.run, Cpu.exec, Cpu.push,
    Cpu.get, Cpu.set, called, pushed, Instr.encode, wordBytes, List.length_cons, List.length_nil,
    Nat.reduceAdd, hreturn]
  rfl

theorem esp_run_pushad : (cpu.run .pushad).esp = cpu.esp - BitVec.ofNat 32 32 := by
  rw [Cpu.run, Cpu.exec, esp_pushAll]
  rfl

theorem esp_run_pushfd : (cpu.run .pushfd).esp = cpu.esp - 4 :=
  rfl

theorem esp_run_push (reg : Reg) : (cpu.run (.push reg)).esp = cpu.esp - 4 :=
  rfl

theorem esp_run_movImm_eax (v : Word) : (cpu.run (.movImm .eax v)).esp = cpu.esp :=
  rfl

theorem eflags_called : (called onDefinition cpu).eflags = cpu.eflags := by
  rw [called, eflags_pushAll]

theorem esp_called : (called onDefinition cpu).esp = cpu.esp - 44 :=
  esp_pushAll cpu (pushed cpu)

theorem eqOn_called : Set.EqOn (called onDefinition cpu).mem cpu.mem (below cpu.esp 44)ᶜ := by
  have hfits : 4 * 11 ≤ 2 ^ 32 := by decide
  exact eqOn_pushAll cpu (pushed cpu) hfits

theorem words_called :
    words (called onDefinition cpu).mem (called onDefinition cpu).esp 11 =
      (pushed cpu).reverse := by
  have hfits : 4 * 11 ≤ 2 ^ 32 := by decide
  exact words_pushAll cpu (pushed cpu) hfits

/-- The argument is the definition. -/
theorem argument_called :
    (called onDefinition cpu).mem.read32 ((called onDefinition cpu).esp + 4) = cpu.ebx := by
  have hwords := words_called onDefinition cpu
  rw [words_cons, words_cons] at hwords
  exact (List.cons.inj (List.cons.inj hwords).2).1

theorem top_called : (called onDefinition cpu).top = cpu.eip + 10 := by
  have hwords := words_called onDefinition cpu
  rw [words_cons] at hwords
  exact (List.cons.inj hwords).1

/-- All that the prologue stores is on the stack. -/
theorem spares_prologue {code : Set Word} (h : Disjoint code (below cpu.esp 44)) :
    Spares code (prologue onDefinition.entry) cpu := by
  have hfree : ∀ i n esp, esp = cpu.esp - BitVec.ofNat 32 i → i + n ≤ 44 →
      Disjoint (below esp n) code := by
    rintro i n _ rfl hle
    have hinside := (below_sub_subset cpu.esp i n).trans (below_mono hle)
    exact (h.mono_right hinside).symm
  have hpushfd : ((cpu.run .pushad).run .pushfd).esp = cpu.esp - BitVec.ofNat 32 36 := by
    rw [esp_run_pushfd, esp_run_pushad, sub_sub]
    rfl
  have hpush : (((cpu.run .pushad).run .pushfd).run (.push .ebx)).esp =
      cpu.esp - BitVec.ofNat 32 40 := by
    rw [esp_run_push, hpushfd, sub_sub]
    rfl
  refine ⟨?_, ?_, ?_, Set.empty_disjoint _, ?_, trivial⟩
  · exact hfree 0 32 _ (sub_zero _).symm (by decide)
  · exact hfree 32 4 _ (esp_run_pushad cpu) (by decide)
  · exact hfree 36 4 _ hpushfd (by decide)
  · exact hfree 40 4 _ ((esp_run_movImm_eax _ _).trans hpush) (by decide)

end Prologue

/-! ## The call -/

section Call

variable {onDefinition : Function} {depth : Nat} {data : Set Word} {cpu : Cpu}
  (hcdecl : Cdecl onDefinition (onDefinitionWrites depth data))

/-- What `on_definition` stores when the stub calls it. -/
theorem onDefinitionWrites_called :
    onDefinitionWrites depth data (called onDefinition cpu) =
      span (cpu.esp - BitVec.ofNat 32 (44 + depth)) (depth + 8) ∪ (childFields cpu.ebx ∪ data) := by
  have hbase : cpu.esp - 44 - BitVec.ofNat 32 depth = cpu.esp - BitVec.ofNat 32 (44 + depth) := by
    rw [sub_sub, BitVec.ofNat_add]
    rfl
  rw [onDefinitionWrites, argument_called, esp_called, hbase]

include hcdecl

/-- Everything else is as it was before the stub. -/
theorem eqOn_returned :
    Set.EqOn (onDefinition.body (called onDefinition cpu)).mem cpu.mem
      (below cpu.esp (44 + depth) ∪ (childFields cpu.ebx ∪ data))ᶜ := by
  intro a ha
  have hstack : a ∉ below cpu.esp 44 :=
    fun hmem => ha (Or.inl (below_mono (Nat.le_add_right _ _) hmem))
  refine (hcdecl.mem _ ?_).trans (eqOn_called onDefinition cpu hstack)
  rw [onDefinitionWrites_called]
  have hframe : span (cpu.esp - BitVec.ofNat 32 (44 + depth)) (depth + 8) ⊆
      below cpu.esp (44 + depth) := span_mono (by omega)
  exact fun hmem => ha (Set.union_subset_union_left _ hframe hmem)

/-- The registers and flags are still on the stack. -/
theorem words_returned (hdepth : 44 + depth < 2 ^ 32)
    (hsaved : Disjoint (below cpu.esp 36) (childFields cpu.ebx ∪ data)) :
    words (onDefinition.body (called onDefinition cpu)).mem (cpu.esp - 36) 9 =
      [cpu.eflags &&& storedMask, cpu.edi, cpu.esi, cpu.ebp, cpu.esp, cpu.ebx, cpu.edx, cpu.ecx,
        cpu.eax] := by
  have hwords := words_called onDefinition cpu
  have hbase : cpu.esp - 44 + 4 + 4 = cpu.esp - 36 := by
    rw [add_assoc]
    exact sub_ofNat_add cpu.esp 8 36
  rw [words_cons, words_cons, esp_called, hbase] at hwords
  have hpushed := (List.cons.inj (List.cons.inj hwords).2).2
  refine Eq.trans ?_ hpushed
  refine words_congr ?_
  intro a ha
  refine hcdecl.mem _ ?_
  rw [onDefinitionWrites_called]
  -- The frame ends where the registers begin.
  have hframe : Disjoint (span (cpu.esp - BitVec.ofNat 32 (44 + depth)) (depth + 8))
      (span (cpu.esp - BitVec.ofNat 32 (44 + depth) + BitVec.ofNat 32 (depth + 8)) 36) :=
    disjoint_span_add (by omega)
  have htop : cpu.esp - BitVec.ofNat 32 (44 + depth) + BitVec.ofNat 32 (depth + 8) =
      cpu.esp - 36 := by
    have hsplit : 44 + depth = depth + 8 + 36 := by omega
    rw [hsplit]
    exact sub_ofNat_add cpu.esp (depth + 8) 36
  rw [htop] at hframe
  rintro (hmem | hmem)
  · exact Set.disjoint_left.1 hframe hmem ha
  · exact Set.disjoint_left.1 hsaved ha hmem

end Call

/-! ## Behind the call -/

section Epilogue

variable {cpu returned : Cpu}

/-- What `popfd` makes of the flags that `pushfd` stored; the system flags have stayed. -/
theorem popfd_pushfd {eflags eflags' : Word}
    (h : eflags' &&& ~~~userMask = eflags &&& ~~~userMask) :
    (eflags' &&& ~~~userMask) ||| (eflags &&& storedMask &&& userMask) = eflags := by
  have hstored : storedMask &&& userMask = userMask := by decide
  rw [h, BitVec.and_assoc, hstored, ← BitVec.and_or_distrib_left, BitVec.or_comm,
    BitVec.or_not_self, BitVec.and_allOnes]

/-- `add esp,4` sets status flags, which `popfd` puts back. -/
theorem setStatus_system (eflags status : Word) :
    setStatus eflags status &&& ~~~userMask = eflags &&& ~~~userMask := by
  have hinside : ~~~statusMask &&& ~~~userMask = ~~~userMask := by decide
  have hnone : statusMask &&& ~~~userMask = 0#32 := by decide
  rw [setStatus, BitVec.and_or_distrib_right, BitVec.and_assoc, hinside, BitVec.and_assoc, hnone,
    BitVec.and_zero, BitVec.or_zero]

/-- `popfd` and `popad` bring all registers and flags back. -/
theorem runAll_restore
    (hwords : words returned.mem (returned.esp + 4) 9 =
      [cpu.eflags &&& storedMask, cpu.edi, cpu.esi, cpu.ebp, cpu.esp, cpu.ebx, cpu.edx, cpu.ecx,
        cpu.eax])
    (hesp : returned.esp + 40 = cpu.esp)
    (hflags : returned.eflags &&& ~~~userMask = cpu.eflags &&& ~~~userMask) :
    returned.runAll restore = { cpu with eip := returned.eip + 5, mem := returned.mem } := by
  have hfour : BitVec.signExtend 32 (4 : Byte) = 4#32 := by decide
  simp only [words_cons, List.cons.injEq, add_assoc, BitVec.reduceAdd] at hwords
  rcases hwords with ⟨hf, hedi, hesi, hebp, _, hebx, hedx, hecx, heax, _⟩
  change returned.mem.read32 (returned.esp + 4#32) = _ at hf
  have hback : setStatus returned.eflags (addFlags returned.esp 4#32) &&& ~~~userMask |||
      returned.mem.read32 (returned.esp + 4#32) &&& userMask = cpu.eflags := by
    rw [hf]
    exact popfd_pushfd ((setStatus_system _ _).trans hflags)
  have htop : returned.esp + 40#32 = cpu.esp := hesp
  simp only [Cpu.runAll, restore, List.foldl_cons, List.foldl_nil, Cpu.run, Cpu.exec, Cpu.get,
    Cpu.set, Cpu.top, Instr.encode, List.length_cons, List.length_nil, Nat.reduceAdd, hfour,
    add_assoc, BitVec.reduceAdd, hedi, hesi, hebp, hebx, hedx, hecx, heax, hback, htop]
  rfl

/-- The original instructions read the type and compare it. -/
theorem runAll_originalInstrs (cpu : Cpu) :
    cpu.runAll originalInstrs =
      { cpu with
        eax := cpu.mem.read32 (cpu.ebx + 0x3C)
        eip := cpu.eip + 6
        eflags := setStatus cpu.eflags (subFlags (cpu.mem.read32 (cpu.ebx + 0x3C)) 0x2B) } := by
  have hdisp : BitVec.signExtend 32 (0x3C : Byte) = 0x3C#32 := by decide
  have hvalue : BitVec.signExtend 32 (0x2B : Byte) = 0x2B#32 := by decide
  simp only [Cpu.runAll, originalInstrs, List.foldl_cons, List.foldl_nil, Cpu.run, Cpu.exec,
    Cpu.get, Cpu.set, Instr.encode, List.length_cons, List.length_nil, Nat.reduceAdd, hdisp,
    hvalue, add_assoc, BitVec.reduceAdd, reduceCtorEq, if_false]
  rfl

/-- `push` and `ret` go to the address and leave the stack pointer where it was. -/
theorem runAll_resume (cpu : Cpu) :
    cpu.runAll [.pushImm hookResume, .ret] =
      { cpu with eip := hookResume, mem := cpu.mem.write32 (cpu.esp - 4) hookResume } := by
  simp only [Cpu.runAll, List.foldl_cons, List.foldl_nil, Cpu.run, Cpu.exec, Cpu.push, Cpu.top,
    read32_write32_self, sub_add_cancel]

theorem runAll_epilogue {eip : Word} {mem : Memory}
    (hrestored : returned.runAll restore = { cpu with eip := eip, mem := mem }) :
    returned.runAll epilogue =
      { ({ cpu with eip := eip, mem := mem } : Cpu).runAll originalInstrs with
        eip := hookResume
        mem := mem.write32 (cpu.esp - 4) hookResume } := by
  have hsplit : returned.runAll epilogue =
      ((returned.runAll restore).runAll originalInstrs).runAll [.pushImm hookResume, .ret] := by
    simp only [Cpu.runAll, epilogue, List.foldl_append]
  rw [hsplit, hrestored, runAll_resume, runAll_originalInstrs]

/-- The type is all that the original instructions take from memory. -/
theorem agree_runAll_originalInstrs {eip eip' resume : Word} {mem mem' last : Memory}
    (htype : mem.read32 (cpu.ebx + 0x3C) = mem'.read32 (cpu.ebx + 0x3C)) :
    Agree { ({ cpu with eip := eip, mem := mem } : Cpu).runAll originalInstrs with
        eip := resume
        mem := last }
      (({ cpu with eip := eip', mem := mem' } : Cpu).runAll originalInstrs) := by
  rw [runAll_originalInstrs, runAll_originalInstrs]
  refine ⟨?_, ?_⟩
  · intro reg
    cases reg with
    | eax => exact htype
    | _ => rfl
  · exact congrArg (fun type => setStatus cpu.eflags (subFlags type 0x2B)) htype

/-- The epilogue only stores the address to which it returns. -/
theorem spares_epilogue {code : Set Word} {eip : Word} {mem : Memory}
    (hrestored : returned.runAll restore = { cpu with eip := eip, mem := mem })
    (h : Disjoint code (below cpu.esp 4)) : Spares code epilogue returned := by
  have hesp : ((returned.runAll restore).runAll originalInstrs).esp = cpu.esp := by
    rw [hrestored, runAll_originalInstrs]
  have hpush : Disjoint (below ((returned.runAll restore).runAll originalInstrs).esp 4) code :=
    hesp ▸ h.symm
  have hnone : Disjoint (∅ : Set Word) code := Set.empty_disjoint code
  exact ⟨hnone, hnone, hnone, hnone, hnone, hpush, hnone, trivial⟩

end Epilogue

/-! ## The whole trampoline -/

section Whole

variable {onDefinition : Function} {stub : Word} {depth : Nat} {data : Set Word} {cpu : Cpu}

theorem arrives_unhooked (hentry : onDefinition.entry ∉ span hookSite 7) :
    Arrives onDefinition hookResume (unhooked cpu) ((unhooked cpu).runAll originalInstrs) := by
  have hlength : (originalInstrs.flatMap Instr.encode).length = 6 := rfl
  have hat : BytesAt (unhooked cpu).mem hookSite (originalInstrs.flatMap Instr.encode) := by
    rw [encode_originalInstrs]
    exact bytesAt_writeBytes cpu.mem hookSite (by decide)
  have hstraight : ∀ instr ∈ originalInstrs.dropLast, instr.straight = true := by
    decide
  have hnone : Disjoint (∅ : Set Word) (span hookSite 6) := Set.empty_disjoint _
  have hsix : span hookSite 6 ⊆ span hookSite 7 := span_mono (by decide)
  refine arrives_runAll hat hstraight ⟨hnone, hnone, trivial⟩ (hlength ▸ subset_rfl)
    (hlength ▸ by decide) (fun hmem => hentry (hsix hmem)) (by decide) ?_
  refine Arrives.here ?_
  rw [runAll_originalInstrs]
  rfl

/-- Behind the jump. -/
def stubbed (onDefinition : Function) (stub : Word) (cpu : Cpu) : Cpu :=
  { hooked onDefinition stub cpu with eip := stub }

/-- Behind the call. -/
def returned (onDefinition : Function) (stub : Word) (cpu : Cpu) : Cpu :=
  onDefinition.body (called onDefinition (stubbed onDefinition stub cpu))

/-- At `HOOK_RESUME`: what the original instructions make of the registers and of the memory as it
is behind the call. -/
def resumed (onDefinition : Function) (stub : Word) (cpu : Cpu) : Cpu :=
  { ({ cpu with
        eip := (returned onDefinition stub cpu).eip + 5
        mem := (returned onDefinition stub cpu).mem } : Cpu).runAll originalInstrs with
    eip := hookResume
    mem := (returned onDefinition stub cpu).mem.write32 (cpu.esp - 4) hookResume }

variable (hcdecl : Cdecl onDefinition (onDefinitionWrites depth data))
  (h : Undisturbed onDefinition stub depth data cpu)

include hcdecl h

theorem runAll_restore_returned :
    (returned onDefinition stub cpu).runAll restore =
      { cpu with
        eip := (returned onDefinition stub cpu).eip + 5
        mem := (returned onDefinition stub cpu).mem } := by
  have hesp : (returned onDefinition stub cpu).esp = cpu.esp - 44 + 4 := by
    rw [returned, hcdecl.esp, esp_called]
    rfl
  have hbase : (returned onDefinition stub cpu).esp + 4 = cpu.esp - 36 := by
    rw [hesp, add_assoc]
    exact sub_ofNat_add cpu.esp 8 36
  have htop : (returned onDefinition stub cpu).esp + 40 = cpu.esp := by
    rw [hesp, add_assoc]
    exact sub_add_cancel cpu.esp 44
  -- The stub is outside the stack in use, which is therefore not all of the address space.
  have hdepth : 44 + depth < 2 ^ 32 := lt_of_disjoint_below (by decide) h.stub_stack
  -- What `pushad` and `pushfd` have stored is still there.
  have hwords : words (returned onDefinition stub cpu).mem (cpu.esp - 36) 9 =
      [cpu.eflags &&& storedMask, cpu.edi, cpu.esi, cpu.ebp, cpu.esp, cpu.ebx, cpu.edx, cpu.ecx,
        cpu.eax] :=
    words_returned hcdecl hdepth h.saved
  have hflags : (returned onDefinition stub cpu).eflags &&& ~~~userMask =
      cpu.eflags &&& ~~~userMask := by
    rw [returned, hcdecl.eflags, eflags_called]
    rfl
  rw [← hbase] at hwords
  exact runAll_restore hwords htop hflags

omit hcdecl in
theorem hookResume_notMem_stub : hookResume ∉ span stub stubSize :=
  fun hmem => Set.disjoint_left.1 h.stub_site hmem (by decide)

omit hcdecl in
/-- The stub in memory, in front of the call and behind it. -/
theorem bytesAt_stubbed :
    BytesAt (stubbed onDefinition stub cpu).mem stub
        ((prologue onDefinition.entry).flatMap Instr.encode) ∧
      BytesAt (stubbed onDefinition stub cpu).mem (stub + 10)
        (epilogue.flatMap Instr.encode) := by
  have hbytes : BytesAt (stubbed onDefinition stub cpu).mem stub (stubBytes onDefinition.entry) :=
    bytesAt_stub onDefinition.entry (unhooked cpu).mem h.stub_site
  rw [stubBytes_eq] at hbytes
  exact bytesAt_append.1 hbytes

omit hcdecl in
/-- The jump leads to the stub. -/
theorem arrives_of_stubbed {last : Cpu}
    (hlast : Arrives onDefinition hookResume (stubbed onDefinition stub cpu) last) :
    Arrives onDefinition hookResume (hooked onDefinition stub cpu) last := by
  -- `on_definition` is not at the address itself.
  have hnoentry : hookSite ≠ onDefinition.entry :=
    fun heq => h.entry_site (heq ▸ mem_span_self (by decide))
  have hjump : stepWith onDefinition (hooked onDefinition stub cpu) =
      some (stubbed onDefinition stub cpu) :=
    (if_neg hnoentry).trans (step_hooked onDefinition stub cpu)
  have hsite : (hooked onDefinition stub cpu).eip = hookSite := rfl
  have hnoresume : (hooked onDefinition stub cpu).eip ≠ hookResume := by
    rw [hsite]
    decide
  exact Arrives.step hnoresume hjump hlast

omit hcdecl in
/-- Up to the call. -/
theorem arrives_of_called {last : Cpu}
    (hlast : Arrives onDefinition hookResume (called onDefinition (stubbed onDefinition stub cpu))
      last) :
    Arrives onDefinition hookResume (stubbed onDefinition stub cpu) last := by
  have hten : ((prologue onDefinition.entry).flatMap Instr.encode).length = 10 := rfl
  have hshort : span stub 10 ⊆ span stub stubSize := span_mono (by decide)
  have hstack : below cpu.esp 44 ⊆ below cpu.esp (44 + depth) := below_mono (by omega)
  have hstraight : ∀ instr ∈ (prologue onDefinition.entry).dropLast, instr.straight = true := by
    simp [prologue, Instr.straight]
  have hspares : Spares (span stub stubSize) (prologue onDefinition.entry)
      (stubbed onDefinition stub cpu) :=
    spares_prologue onDefinition _ (h.stub_stack.mono_right hstack)
  have hinside : span stub ((prologue onDefinition.entry).flatMap Instr.encode).length ⊆
      span stub stubSize := hten ▸ hshort
  have hfits : ((prologue onDefinition.entry).flatMap Instr.encode).length ≤ 2 ^ 32 :=
    hten ▸ by decide
  refine arrives_runAll (bytesAt_stubbed h).1 hstraight hspares hinside hfits h.entry_stub
    (hookResume_notMem_stub h) ?_
  rw [runAll_prologue]
  exact hlast

omit hcdecl in
/-- The call. -/
theorem arrives_of_returned {last : Cpu}
    (hlast : Arrives onDefinition hookResume (returned onDefinition stub cpu) last) :
    Arrives onDefinition hookResume (called onDefinition (stubbed onDefinition stub cpu)) last := by
  -- It is entered and left in one step.
  have hentered : onDefinition.entry ≠ hookResume :=
    fun heq => h.entry_site (heq ▸ by decide)
  have hcall : stepWith onDefinition (called onDefinition (stubbed onDefinition stub cpu)) =
      some (returned onDefinition stub cpu) := if_pos rfl
  exact Arrives.step hentered hcall hlast

/-- The call leaves the rest of the stub alone. -/
theorem bytesAt_returned :
    BytesAt (returned onDefinition stub cpu).mem (stub + 10) (epilogue.flatMap Instr.encode) := by
  have hbehind : span (stub + 10) 17 ⊆ span stub stubSize := span_add_subset (by decide)
  -- It stores below the stack pointer, into the children and into its data, none of which is there.
  have hkept : Set.EqOn (stubbed onDefinition stub cpu).mem (returned onDefinition stub cpu).mem
      (span (stub + 10) 17) := by
    intro a ha
    refine (eqOn_returned hcdecl ?_).symm
    rintro (hmem | hmem)
    · exact Set.disjoint_left.1 h.stub_stack (hbehind ha) hmem
    · exact Set.disjoint_left.1 h.stub_child (hbehind ha) hmem
  exact (bytesAt_stubbed h).2.congr hkept (by decide)

/-- Behind the call. -/
theorem arrives_epilogue :
    Arrives onDefinition hookResume (returned onDefinition stub cpu)
      (resumed onDefinition stub cpu) := by
  have hrestored := runAll_restore_returned hcdecl h
  have hend : (returned onDefinition stub cpu).runAll epilogue = resumed onDefinition stub cpu :=
    runAll_epilogue hrestored
  have hseventeen : (epilogue.flatMap Instr.encode).length = 17 := rfl
  have hbehind : span (stub + 10) 17 ⊆ span stub stubSize := span_add_subset (by decide)
  have hfour : below cpu.esp 4 ⊆ below cpu.esp (44 + depth) := below_mono (by omega)
  -- The call pushed the address behind itself.
  have heip : (returned onDefinition stub cpu).eip = stub + 10 := by
    rw [returned, hcdecl.eip, top_called]
    rfl
  have hcode : BytesAt (returned onDefinition stub cpu).mem (returned onDefinition stub cpu).eip
      (epilogue.flatMap Instr.encode) := by
    rw [heip]
    exact bytesAt_returned hcdecl h
  have hinside : span (returned onDefinition stub cpu).eip (epilogue.flatMap Instr.encode).length ⊆
      span stub stubSize := by
    rw [heip, hseventeen]
    exact hbehind
  refine arrives_runAll hcode (by decide)
    (spares_epilogue hrestored (h.stub_stack.mono_right hfour)) hinside (hseventeen ▸ by decide)
    h.entry_stub (hookResume_notMem_stub h) ?_
  rw [← hend]
  exact Arrives.here (congrArg Cpu.eip hend)

theorem arrives_hooked :
    Arrives onDefinition hookResume (hooked onDefinition stub cpu)
      (resumed onDefinition stub cpu) :=
  arrives_of_stubbed h (arrives_of_called h (arrives_of_returned h (arrives_epilogue hcdecl h)))

/-- All depends on the type that is read behind the call. -/
theorem transparent_iff_type :
    Transparent onDefinition stub cpu ↔
      (returned onDefinition stub cpu).mem.read32 (cpu.ebx + 0x3C) =
        (unhooked cpu).mem.read32 (cpu.ebx + 0x3C) := by
  have hhooked := arrives_hooked hcdecl h
  have hunhooked : Arrives onDefinition hookResume (unhooked cpu) _ :=
    arrives_unhooked h.entry_site
  constructor
  · rintro ⟨hooked', unhooked', hhooked', hunhooked', hagree⟩
    rw [hhooked'.unique hhooked, hunhooked'.unique hunhooked, resumed, runAll_originalInstrs,
      runAll_originalInstrs] at hagree
    exact hagree.1 .eax
  · intro htype
    exact ⟨_, _, hhooked, hunhooked, agree_runAll_originalInstrs htype⟩

omit h in
/-- The type is the same before and after. -/
theorem type_returned (htype : TypeKept stub depth data cpu) :
    (returned onDefinition stub cpu).mem.read32 (cpu.ebx + 0x3C) =
      (unhooked cpu).mem.read32 (cpu.ebx + 0x3C) := by
  refine read32_congr ?_
  intro a ha
  have hstub : span stub 27 ⊆ span stub stubSize := span_mono (by decide)
  -- Nothing between the jump and the second `mov` stores there.
  have hcalled :
      (returned onDefinition stub cpu).mem a = (stubbed onDefinition stub cpu).mem a := by
    refine eqOn_returned hcdecl ?_
    rintro (hmem | hmem | hmem)
    · exact Set.disjoint_left.1 htype.stack ha hmem
    · exact Set.disjoint_left.1 disjoint_type_child ha hmem
    · exact Set.disjoint_left.1 htype.data ha hmem
  have hinstalled : (stubbed onDefinition stub cpu).mem a =
      ((unhooked cpu).mem.writeBytes stub (stubBytes onDefinition.entry)) a :=
    eqOn_installInlineHook onDefinition.entry stub (unhooked cpu).mem
      (Set.disjoint_left.1 htype.site ha)
  have hwritten : (unhooked cpu).mem.writeBytes stub (stubBytes onDefinition.entry) a =
      (unhooked cpu).mem a :=
    eqOn_writeBytes _ _ _ fun hmem =>
      Set.disjoint_left.1 htype.stub ha (hstub (length_stubBytes onDefinition.entry ▸ hmem))
  exact hcalled.trans (hinstalled.trans hwritten)

end Whole

/-- Whatever the address of the stub and the state of the processor, the jump leads to the stub; and
the trampoline is transparent as long as it does not store into itself, into the definition's type
or, from `on_definition`, into the registers that it has saved. -/
theorem trampoline_transparent (onDefinition : Function) (stub : Word) (cpu : Cpu) :
    (hooked onDefinition stub cpu).step =
        some { hooked onDefinition stub cpu with eip := stub } ∧
      ∀ depth data, Cdecl onDefinition (onDefinitionWrites depth data) →
        Undisturbed onDefinition stub depth data cpu → TypeKept stub depth data cpu →
        Transparent onDefinition stub cpu := by
  refine ⟨step_hooked onDefinition stub cpu, ?_⟩
  intro depth data hcdecl h htype
  exact (transparent_iff_type hcdecl h).2 (type_returned hcdecl htype)

/-! ### Two states -/

/-- `on_definition` for a definition that is not a screen: it returns at once. -/
def returnsAtOnce : Function where
  entry := 0x10001000
  body := fun cpu => { cpu with eip := cpu.top, esp := cpu.esp + 4 }

theorem cdecl_returnsAtOnce (writes : Cpu → Set Word) : Cdecl returnsAtOnce writes where
  eip := fun _ => rfl
  esp := fun _ => rfl
  ebx := fun _ => rfl
  ebp := fun _ => rfl
  esi := fun _ => rfl
  edi := fun _ => rfl
  eflags := fun _ => rfl
  mem := fun _ _ _ => rfl

/-- A definition at `ebx`, and nothing in memory. -/
def stateAt (ebx : Word) : Cpu where
  eax := 1
  ecx := 0
  edx := 0
  ebx := ebx
  esp := 0x0019F000
  ebp := 0x0019F800
  esi := 0
  edi := 0
  eip := hookSite
  eflags := 0x00000202
  mem := fun _ => 0

theorem undisturbed_stateAt {ebx : Word}
    (hstub : Disjoint (span 0x02000000 stubSize) (childFields ebx))
    (hsaved : Disjoint (below 0x0019F000 36) (childFields ebx)) :
    Undisturbed returnsAtOnce 0x02000000 0 ∅ (stateAt ebx) where
  entry_stub := by decide
  entry_site := by decide
  stub_site := disjoint_span (by decide) (by decide)
  stub_stack := by
    have hstack : Disjoint (span 0x02000000 stubSize) (below 0x0019F000 44) :=
      disjoint_span (by decide) (by decide)
    exact hstack
  stub_child := by rwa [Set.union_empty]
  saved := by rwa [Set.union_empty]

/-- A definition in the game's memory. -/
theorem transparent_ordinary : Transparent returnsAtOnce 0x02000000 (stateAt 0x00A00000) :=
  (trampoline_transparent returnsAtOnce 0x02000000 (stateAt 0x00A00000)).2 0 ∅
    (cdecl_returnsAtOnce _)
    (undisturbed_stateAt (disjoint_span (by decide) (by decide))
      (disjoint_span (by decide) (by decide)))
    ⟨disjoint_span (by decide) (by decide), disjoint_span (by decide) (by decide),
      disjoint_span (by decide) (by decide), Set.disjoint_empty _⟩

/-- A definition whose type is just below the stack pointer: `pushad` stores `eax` there. -/
theorem not_transparent_below_stack :
    Cdecl returnsAtOnce (onDefinitionWrites 0 ∅) ∧
      ¬ Transparent returnsAtOnce 0x02000000 (stateAt 0x0019EFC0) := by
  have hundisturbed : Undisturbed returnsAtOnce 0x02000000 0 ∅ (stateAt 0x0019EFC0) :=
    undisturbed_stateAt (disjoint_span (by decide) (by decide))
      (disjoint_span (by decide) (by decide))
  -- `eax` is 1 and `pushad` stores it first, at `esp - 4`.
  have hpushed : (returned returnsAtOnce 0x02000000 (stateAt 0x0019EFC0)).mem.read32
      ((stateAt 0x0019EFC0).ebx + 0x3C) = 1 := by
    decide
  have htype : (unhooked (stateAt 0x0019EFC0)).mem.read32 ((stateAt 0x0019EFC0).ebx + 0x3C) =
      0 := by
    decide
  have hne : (1 : Word) ≠ 0 := by decide
  refine ⟨cdecl_returnsAtOnce _, ?_⟩
  rw [transparent_iff_type (cdecl_returnsAtOnce _) hundisturbed, hpushed, htype]
  exact hne

end UiProbe
end Tools
end Crossover
