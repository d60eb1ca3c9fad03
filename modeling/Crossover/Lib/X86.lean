import Crossover.Lib.Memory

/-!
# X86 — a small part of the 32-bit instruction set

A processor in user mode, with the instructions that save and restore registers and flags, move,
compare, call and jump.  Instructions are decoded from memory; `decode_encode` says that an
instruction that has been assembled is decoded again, so code in memory is executed as it was
written (`step_of_bytesAt`).

`Cdecl` is the contract of a function compiled elsewhere, which a call enters and leaves in one
step.
-/

namespace Crossover
namespace X86

open Memory

/-! ## Registers and instructions -/

inductive Reg
  | eax | ecx | edx | ebx | esp | ebp | esi | edi
  deriving DecidableEq, Repr

/-- The number of a register in an instruction. -/
def Reg.code : Reg → BitVec 3
  | .eax => 0 | .ecx => 1 | .edx => 2 | .ebx => 3 | .esp => 4 | .ebp => 5 | .esi => 6 | .edi => 7

def Reg.ofCode (code : BitVec 3) : Reg :=
  if code = 0 then .eax else if code = 1 then .ecx else if code = 2 then .edx
  else if code = 3 then .ebx else if code = 4 then .esp else if code = 5 then .ebp
  else if code = 6 then .esi else .edi

@[simp] theorem Reg.ofCode_code (reg : Reg) : Reg.ofCode reg.code = reg := by
  cases reg <;> rfl

inductive Instr
  | pushad
  | popad
  | pushfd
  | popfd
  | push (reg : Reg)
  | pushImm (v : Word)
  | movImm (reg : Reg) (v : Word)
  /-- `mov dst, [base + disp]`. -/
  | load (dst base : Reg) (disp : Byte)
  | addImm (reg : Reg) (v : Byte)
  | cmpImm (reg : Reg) (v : Byte)
  | call (reg : Reg)
  | ret
  /-- `jmp` by so many bytes from the next instruction on. -/
  | jmp (rel : Word)
  | nop
  deriving DecidableEq, Repr

/-! ## Machine code -/

/-- The byte behind an opcode that names the operands. -/
def modrm (mod : BitVec 2) (reg rm : BitVec 3) : Byte :=
  mod ++ reg ++ rm

def Instr.encode : Instr → List Byte
  | .pushad => [0x60]
  | .popad => [0x61]
  | .pushfd => [0x9C]
  | .popfd => [0x9D]
  | .push reg => [0b01010#5 ++ reg.code]
  | .pushImm v => 0x68 :: wordBytes v
  | .movImm reg v => (0b10111#5 ++ reg.code) :: wordBytes v
  | .load dst base disp =>
      -- The code of `esp` says that another byte names the base.
      if base = .esp then [0x8B, modrm 1 dst.code 4, 0x24, disp]
      else [0x8B, modrm 1 dst.code base.code, disp]
  | .addImm reg v => [0x83, modrm 3 0 reg.code, v]
  | .cmpImm reg v => [0x83, modrm 3 7 reg.code, v]
  | .call reg => [0xFF, modrm 3 2 reg.code]
  | .ret => [0xC3]
  | .jmp rel => 0xE9 :: wordBytes rel
  | .nop => [0x90]

/-- The instruction at an address and its length. -/
def decode (m : Memory) (a : Word) : Option (Instr × Nat) :=
  let op := m a
  let operands := m (a + 1)
  let mod := operands.extractLsb' 6 2
  let reg := operands.extractLsb' 3 3
  let rm := operands.extractLsb' 0 3
  if op = 0x60 then some (.pushad, 1)
  else if op = 0x61 then some (.popad, 1)
  else if op = 0x9C then some (.pushfd, 1)
  else if op = 0x9D then some (.popfd, 1)
  else if op = 0xC3 then some (.ret, 1)
  else if op = 0x90 then some (.nop, 1)
  else if op = 0x68 then some (.pushImm (m.read32 (a + 1)), 5)
  else if op = 0xE9 then some (.jmp (m.read32 (a + 1)), 5)
  else if op = 0x8B then
    if mod = 1 then
      if rm = 4 then
        if m (a + 2) = 0x24 then some (.load (.ofCode reg) .esp (m (a + 3)), 4) else none
      else some (.load (.ofCode reg) (.ofCode rm) (m (a + 2)), 3)
    else none
  else if op = 0x83 then
    if mod = 3 then
      if reg = 0 then some (.addImm (.ofCode rm) (m (a + 2)), 3)
      else if reg = 7 then some (.cmpImm (.ofCode rm) (m (a + 2)), 3)
      else none
    else none
  else if op = 0xFF then
    if mod = 3 ∧ reg = 2 then some (.call (.ofCode rm), 2) else none
  else if op.extractLsb' 3 5 = 0b01010#5 then some (.push (.ofCode (op.extractLsb' 0 3)), 1)
  else if op.extractLsb' 3 5 = 0b10111#5 then
    some (.movImm (.ofCode (op.extractLsb' 0 3)) (m.read32 (a + 1)), 5)
  else none

section Decode

variable (mod : BitVec 2) (reg rm : BitVec 3)

@[simp] theorem modrm_mod : (modrm mod reg rm).extractLsb' 6 2 = mod := by
  rw [modrm, BitVec.extractLsb'_append_eq_of_le (by decide)]
  exact BitVec.extractLsb'_append_eq_left

@[simp] theorem modrm_reg : (modrm mod reg rm).extractLsb' 3 3 = reg := by
  rw [modrm, BitVec.extractLsb'_append_eq_of_le (by decide)]
  exact BitVec.extractLsb'_append_eq_right

@[simp] theorem modrm_rm : (modrm mod reg rm).extractLsb' 0 3 = rm :=
  BitVec.extractLsb'_append_eq_right

variable {m : Memory} {a : Word}

/-- An instruction that stands in memory is the one that is decoded there. -/
theorem decode_encode (instr : Instr) (h : BytesAt m a instr.encode) :
    decode m a = some (instr, instr.encode.length) := by
  have htwo : a + 1 + 1 = a + 2#32 := add_assoc a 1 1
  have hthree : a + 2#32 + 1 = a + 3#32 := add_assoc a 2 1
  cases instr with
  | pushad => simp_all [Instr.encode, BytesAt, decode]
  | popad => simp_all [Instr.encode, BytesAt, decode]
  | pushfd => simp_all [Instr.encode, BytesAt, decode]
  | popfd => simp_all [Instr.encode, BytesAt, decode]
  -- The register is a part of the opcode, which is therefore none of the constants tried before.
  | push reg => cases reg <;> simp_all [Instr.encode, BytesAt, decode, Reg.code] <;> rfl
  | pushImm v =>
    have hword : m.read32 (a + 1#32) = v := read32_of_bytesAt h.2
    have hop : m a = 0x68 := h.1
    simp [Instr.encode, wordBytes, decode, hop, hword]
  | movImm reg v =>
    have hword : m.read32 (a + 1#32) = v := read32_of_bytesAt h.2
    have hop : m a = 0b10111#5 ++ reg.code := h.1
    cases reg <;> simp_all [Instr.encode, wordBytes, decode, Reg.code] <;> rfl
  | load dst base disp =>
    by_cases hbase : base = .esp
    · rw [Instr.encode, if_pos hbase] at h
      rcases h with ⟨hop, hoperands, hsib, hdisp, _⟩
      change m (a + 1#32) = _ at hoperands
      rw [htwo] at hsib hdisp
      rw [hthree] at hdisp
      simp [Instr.encode, decode, hbase, hop, hoperands, hsib, hdisp]
    · rw [Instr.encode, if_neg hbase] at h
      rcases h with ⟨hop, hoperands, hdisp, _⟩
      change m (a + 1#32) = _ at hoperands
      rw [htwo] at hdisp
      -- The code of `esp` is taken.
      have hcode : base.code ≠ 4#3 := by
        cases base <;> simp_all [Reg.code]
      simp [Instr.encode, decode, hbase, hop, hoperands, hdisp, hcode]
  | addImm reg v =>
    rcases h with ⟨hop, hoperands, hv, _⟩
    change m (a + 1#32) = _ at hoperands
    rw [htwo] at hv
    simp [Instr.encode, decode, hop, hoperands, hv]
  | cmpImm reg v =>
    rcases h with ⟨hop, hoperands, hv, _⟩
    change m (a + 1#32) = _ at hoperands
    rw [htwo] at hv
    simp [Instr.encode, decode, hop, hoperands, hv]
  | call reg => simp_all [Instr.encode, BytesAt, decode]
  | ret => simp_all [Instr.encode, BytesAt, decode]
  | jmp rel =>
    have hword : m.read32 (a + 1#32) = rel := read32_of_bytesAt h.2
    have hop : m a = 0xE9 := h.1
    simp [Instr.encode, wordBytes, decode, hop, hword]
  | nop => simp_all [Instr.encode, BytesAt, decode]

end Decode

/-! ## The processor -/

structure Cpu where
  eax : Word
  ecx : Word
  edx : Word
  ebx : Word
  esp : Word
  ebp : Word
  esi : Word
  edi : Word
  eip : Word
  eflags : Word
  mem : Memory

/-! ### Flags -/

/-- CF, PF, AF, ZF, SF and OF, which arithmetic sets. -/
def statusMask : Word := 0x000008D5

/-- What `popfd` can change: the status flags, TF, DF, NT, AC and ID. -/
def userMask : Word := 0x00244DD5

/-- What `pushfd` stores: all but VM and RF. -/
def storedMask : Word := 0x00FCFFFF

def flag (set : Bool) (bit : Nat) : Word :=
  if set then 1 <<< bit else 0

/-- PF: the number of ones in the lowest byte is even. -/
def parity (v : Word) : Bool :=
  ((List.range 8).filter fun i => v.getLsbD i).length % 2 = 0

/-- The status flags behind `a - b`. -/
def subFlags (a b : Word) : Word :=
  flag (a.ult b) 0 ||| flag (parity (a - b)) 2 ||| flag ((a &&& 0xF).ult (b &&& 0xF)) 4 |||
    flag (a == b) 6 ||| flag (a - b).msb 7 ||| flag (a.msb != b.msb && (a - b).msb != a.msb) 11

/-- The status flags behind `a + b`. -/
def addFlags (a b : Word) : Word :=
  flag ((a + b).ult a) 0 ||| flag (parity (a + b)) 2 |||
    flag ((0xF : Word).ult ((a &&& 0xF) + (b &&& 0xF))) 4 ||| flag (a + b == 0) 6 |||
    flag (a + b).msb 7 ||| flag (a.msb == b.msb && (a + b).msb != a.msb) 11

def setStatus (eflags status : Word) : Word :=
  (eflags &&& ~~~statusMask) ||| (status &&& statusMask)

namespace Cpu

def get (cpu : Cpu) : Reg → Word
  | .eax => cpu.eax
  | .ecx => cpu.ecx
  | .edx => cpu.edx
  | .ebx => cpu.ebx
  | .esp => cpu.esp
  | .ebp => cpu.ebp
  | .esi => cpu.esi
  | .edi => cpu.edi

def set (cpu : Cpu) (reg : Reg) (v : Word) : Cpu :=
  match reg with
  | .eax => { cpu with eax := v }
  | .ecx => { cpu with ecx := v }
  | .edx => { cpu with edx := v }
  | .ebx => { cpu with ebx := v }
  | .esp => { cpu with esp := v }
  | .ebp => { cpu with ebp := v }
  | .esi => { cpu with esi := v }
  | .edi => { cpu with edi := v }

def push (cpu : Cpu) (v : Word) : Cpu :=
  { cpu with esp := cpu.esp - 4, mem := cpu.mem.write32 (cpu.esp - 4) v }

/-- The word on top of the stack. -/
def top (cpu : Cpu) : Word :=
  cpu.mem.read32 cpu.esp

/-- What an instruction does once `eip` is behind it. -/
def exec (cpu : Cpu) : Instr → Cpu
  | .pushad =>
      [cpu.eax, cpu.ecx, cpu.edx, cpu.ebx, cpu.esp, cpu.ebp, cpu.esi, cpu.edi].foldl push cpu
  | .popad =>
      -- The stack pointer that was stored is skipped.
      { cpu with
        edi := cpu.mem.read32 cpu.esp
        esi := cpu.mem.read32 (cpu.esp + 4)
        ebp := cpu.mem.read32 (cpu.esp + 8)
        ebx := cpu.mem.read32 (cpu.esp + 16)
        edx := cpu.mem.read32 (cpu.esp + 20)
        ecx := cpu.mem.read32 (cpu.esp + 24)
        eax := cpu.mem.read32 (cpu.esp + 28)
        esp := cpu.esp + 32 }
  | .pushfd => cpu.push (cpu.eflags &&& storedMask)
  | .popfd =>
      { cpu with
        eflags := (cpu.eflags &&& ~~~userMask) ||| (cpu.top &&& userMask)
        esp := cpu.esp + 4 }
  | .push reg => cpu.push (cpu.get reg)
  | .pushImm v => cpu.push v
  | .movImm reg v => cpu.set reg v
  | .load dst base disp => cpu.set dst (cpu.mem.read32 (cpu.get base + disp.signExtend 32))
  | .addImm reg v =>
      { cpu.set reg (cpu.get reg + v.signExtend 32) with
        eflags := setStatus cpu.eflags (addFlags (cpu.get reg) (v.signExtend 32)) }
  | .cmpImm reg v =>
      { cpu with eflags := setStatus cpu.eflags (subFlags (cpu.get reg) (v.signExtend 32)) }
  | .call reg => { cpu.push cpu.eip with eip := cpu.get reg }
  | .ret => { cpu with eip := cpu.top, esp := cpu.esp + 4 }
  | .jmp rel => { cpu with eip := cpu.eip + rel }
  | .nop => cpu

/-- `eip` moves behind the instruction and the instruction is executed. -/
def run (cpu : Cpu) (instr : Instr) : Cpu :=
  { cpu with eip := cpu.eip + BitVec.ofNat 32 instr.encode.length }.exec instr

/-- One instruction from memory; there is none to be executed if it is not one of `Instr`. -/
def step (cpu : Cpu) : Option Cpu :=
  match decode cpu.mem cpu.eip with
  | none => none
  | some (instr, length) =>
      some ({ cpu with eip := cpu.eip + BitVec.ofNat 32 length }.exec instr)

/-- A block of instructions, one behind the other. -/
def runAll (cpu : Cpu) (instrs : List Instr) : Cpu :=
  instrs.foldl run cpu

end Cpu

/-! ## Functions -/

/-- A function compiled elsewhere: where it is entered, and the state in which it returns. -/
structure Function where
  entry : Word
  body : Cpu → Cpu

/-- What a caller may rely on.  `writes` is where the function may store when it is entered in a
state: its stack frame, its argument and what it is there to change.  In user mode it leaves the
system flags alone. -/
structure Cdecl (function : Function) (writes : Cpu → Set Word) : Prop where
  eip : ∀ cpu, (function.body cpu).eip = cpu.top
  esp : ∀ cpu, (function.body cpu).esp = cpu.esp + 4
  ebx : ∀ cpu, (function.body cpu).ebx = cpu.ebx
  ebp : ∀ cpu, (function.body cpu).ebp = cpu.ebp
  esi : ∀ cpu, (function.body cpu).esi = cpu.esi
  edi : ∀ cpu, (function.body cpu).edi = cpu.edi
  eflags : ∀ cpu, (function.body cpu).eflags &&& ~~~userMask = cpu.eflags &&& ~~~userMask
  mem : ∀ cpu, Set.EqOn (function.body cpu).mem cpu.mem (writes cpu)ᶜ

/-- One step of a program that may call the function. -/
def stepWith (function : Function) (cpu : Cpu) : Option Cpu :=
  if cpu.eip = function.entry then some (function.body cpu) else cpu.step

/-- The program goes on until it comes to `target` for the first time. -/
inductive Arrives (function : Function) (target : Word) : Cpu → Cpu → Prop
  | here {cpu : Cpu} : cpu.eip = target → Arrives function target cpu cpu
  | step {cpu next cpu' : Cpu} : cpu.eip ≠ target → stepWith function cpu = some next →
      Arrives function target next cpu' → Arrives function target cpu cpu'

theorem Arrives.unique {function : Function} {target : Word} {cpu first second : Cpu}
    (h : Arrives function target cpu first) (h' : Arrives function target cpu second) :
    first = second := by
  induction h with
  | here hat =>
    cases h' with
    | here => rfl
    | step hne => exact absurd hat hne
  -- Both go through the same states, so the first arrival is the same.
  | step hne hstep _ ih =>
    cases h' with
    | here hat => exact absurd hat hne
    | step _ hstep' hrest =>
      rw [hstep] at hstep'
      exact ih (Option.some.inj hstep' ▸ hrest)

/-! ## Executing code -/

/-- Where an instruction stores. -/
def Instr.writes (cpu : Cpu) : Instr → Set Word
  | .pushad => below cpu.esp 32
  | .pushfd => below cpu.esp 4
  | .push _ => below cpu.esp 4
  | .pushImm _ => below cpu.esp 4
  | .call _ => below cpu.esp 4
  | _ => ∅

/-- The instruction is followed by the next one. -/
def Instr.straight : Instr → Bool
  | .call _ => false
  | .ret => false
  | .jmp _ => false
  | _ => true

/-- None of the instructions stores into `code`. -/
def Spares (code : Set Word) : List Instr → Cpu → Prop
  | [], _ => True
  | instr :: instrs, cpu => Disjoint (instr.writes cpu) code ∧ Spares code instrs (cpu.run instr)

/-! ### The stack -/

section Stack

variable (cpu : Cpu) (v : Word) (vs : List Word)

theorem esp_pushAll : (vs.foldl Cpu.push cpu).esp = cpu.esp - BitVec.ofNat 32 (4 * vs.length) := by
  induction vs using List.reverseRecOn with
  | nil => exact (sub_zero _).symm
  | append_singleton vs v ih =>
    -- The induction is on the word pushed last.
    have hpushed : ((vs ++ [v]).foldl Cpu.push cpu).esp = (vs.foldl Cpu.push cpu).esp - 4 := by
      rw [List.foldl_append]
      rfl
    rw [hpushed, ih, sub_sub, List.length_append, Nat.mul_add, BitVec.ofNat_add]
    rfl

/-- Only the stack pointer and the memory change. -/
theorem pushAll_eq :
    vs.foldl Cpu.push cpu =
      { cpu with esp := (vs.foldl Cpu.push cpu).esp, mem := (vs.foldl Cpu.push cpu).mem } := by
  induction vs generalizing cpu with
  | nil => rfl
  | cons v vs ih =>
    rw [List.foldl_cons, ih]
    rfl

theorem eflags_pushAll : (vs.foldl Cpu.push cpu).eflags = cpu.eflags := by
  rw [pushAll_eq]

/-- The next word goes below the others. -/
theorem mem_pushAll_snoc :
    ((vs ++ [v]).foldl Cpu.push cpu).mem =
      (vs.foldl Cpu.push cpu).mem.write32 (cpu.esp - BitVec.ofNat 32 (4 * (vs.length + 1))) v := by
  have hnext : (vs.foldl Cpu.push cpu).esp - 4 =
      cpu.esp - BitVec.ofNat 32 (4 * (vs.length + 1)) := by
    rw [esp_pushAll, sub_sub, Nat.mul_succ, BitVec.ofNat_add]
    rfl
  rw [List.foldl_append, ← hnext]
  rfl

theorem eqOn_pushAll (hfits : 4 * vs.length ≤ 2 ^ 32) :
    Set.EqOn (vs.foldl Cpu.push cpu).mem cpu.mem (below cpu.esp (4 * vs.length))ᶜ := by
  induction vs using List.reverseRecOn with
  | nil => exact fun _ _ => rfl
  | append_singleton vs v ih =>
    rw [List.length_append, List.length_singleton] at hfits ⊢
    have hwider : below cpu.esp (4 * vs.length) ⊆ below cpu.esp (4 * (vs.length + 1)) :=
      below_mono (by omega)
    have hbefore := (ih (by omega)).mono (Set.compl_subset_compl.2 hwider)
    rw [mem_pushAll_snoc]
    exact eqOn_write32_of hbefore (span_mono (by omega)) v

/-- What has been pushed stands on the stack, the last word first. -/
theorem words_pushAll (hfits : 4 * vs.length ≤ 2 ^ 32) :
    words (vs.foldl Cpu.push cpu).mem (vs.foldl Cpu.push cpu).esp vs.length = vs.reverse := by
  induction vs using List.reverseRecOn with
  | nil => rfl
  | append_singleton vs v ih =>
    rw [List.length_append, List.length_singleton] at hfits
    have hnext : ((vs ++ [v]).foldl Cpu.push cpu).esp =
        cpu.esp - BitVec.ofNat 32 (4 * (vs.length + 1)) := by
      rw [esp_pushAll, List.length_append, List.length_singleton]
    -- What was pushed before begins one word further up.
    have habove : cpu.esp - BitVec.ofNat 32 (4 * (vs.length + 1)) + 4 =
        (vs.foldl Cpu.push cpu).esp := by
      rw [esp_pushAll, Nat.mul_succ, BitVec.ofNat_add, ← sub_sub]
      exact sub_add_cancel _ _
    rw [hnext, mem_pushAll_snoc, List.length_append, List.length_singleton, words_cons,
      read32_write32_self, habove, List.reverse_append]
    refine congrArg (v :: ·) ?_
    rw [← ih (by omega)]
    -- The new word is below all that were pushed before.
    refine words_congr ?_
    intro a ha
    refine eqOn_write32 _ _ _ ?_
    have hsplit : Disjoint (span (cpu.esp - BitVec.ofNat 32 (4 * (vs.length + 1))) 4)
        (span (cpu.esp - BitVec.ofNat 32 (4 * (vs.length + 1)) + 4) (4 * vs.length)) :=
      disjoint_span_add (by omega)
    rw [habove] at hsplit
    exact fun hmem => Set.disjoint_left.1 hsplit hmem ha

end Stack

/-! ### Blocks -/

section Blocks

variable {cpu : Cpu}

theorem eqOn_exec (cpu : Cpu) (instr : Instr) :
    Set.EqOn (cpu.exec instr).mem cpu.mem (instr.writes cpu)ᶜ := by
  cases instr with
  | pushad =>
    have hfits : 4 * 8 ≤ 2 ^ 32 := by decide
    exact eqOn_pushAll cpu _ hfits
  | pushfd => exact eqOn_write32 _ _ _
  | push reg => exact eqOn_write32 _ _ _
  | pushImm v => exact eqOn_write32 _ _ _
  | call reg => exact eqOn_write32 _ _ _
  -- These change registers only.
  | movImm reg v => cases reg <;> exact fun _ _ => rfl
  | load dst base disp => cases dst <;> exact fun _ _ => rfl
  | addImm reg v => cases reg <;> exact fun _ _ => rfl
  | _ => exact fun _ _ => rfl

theorem eqOn_run (cpu : Cpu) (instr : Instr) :
    Set.EqOn (cpu.run instr).mem cpu.mem (instr.writes cpu)ᶜ := by
  have hexec := eqOn_exec { cpu with eip := cpu.eip + BitVec.ofNat 32 instr.encode.length } instr
  cases instr <;> exact hexec

theorem eip_run {instr : Instr} (h : instr.straight = true) :
    (cpu.run instr).eip = cpu.eip + BitVec.ofNat 32 instr.encode.length := by
  cases instr with
  | pushad => exact congrArg Cpu.eip (pushAll_eq _ _)
  | movImm reg v => cases reg <;> rfl
  | load dst base disp => cases dst <;> rfl
  | addImm reg v => cases reg <;> rfl
  | call reg => cases h
  | ret => cases h
  | jmp rel => cases h
  | _ => rfl

theorem step_of_bytesAt {instr : Instr} (h : BytesAt cpu.mem cpu.eip instr.encode) :
    cpu.step = some (cpu.run instr) := by
  rw [Cpu.step, decode_encode instr h]
  rfl

theorem encode_pos (instr : Instr) : 0 < instr.encode.length := by
  cases instr with
  | load dst base disp =>
    rw [Instr.encode]
    split <;> exact Nat.succ_pos _
  | _ => exact Nat.succ_pos _

/-- A block that stands in memory and does not overwrite itself is executed from its beginning to
its end; only its last instruction may lead elsewhere. -/
theorem arrives_runAll {function : Function} {target : Word} {code : Set Word}
    {instrs : List Instr} {cpu' : Cpu}
    (hat : BytesAt cpu.mem cpu.eip (instrs.flatMap Instr.encode))
    (hstraight : ∀ instr ∈ instrs.dropLast, instr.straight = true)
    (hspares : Spares code instrs cpu)
    (hcode : span cpu.eip (instrs.flatMap Instr.encode).length ⊆ code)
    (hfits : (instrs.flatMap Instr.encode).length ≤ 2 ^ 32)
    (hentry : function.entry ∉ code) (htarget : target ∉ code)
    (hthen : Arrives function target (cpu.runAll instrs) cpu') :
    Arrives function target cpu cpu' := by
  induction instrs generalizing cpu with
  | nil => exact hthen
  | cons instr instrs ih =>
    rw [List.flatMap_cons] at hat hcode hfits
    rw [List.length_append] at hcode hfits
    have hpos := encode_pos instr
    rcases bytesAt_append.1 hat with ⟨hfirst, hrest⟩
    -- The target and the function are elsewhere, so it is the instruction that is executed.
    have hhere : cpu.eip ∈ code := hcode (mem_span_self (by omega))
    have hnotarget : cpu.eip ≠ target := fun heq => htarget (heq ▸ hhere)
    have hnoentry : cpu.eip ≠ function.entry := fun heq => hentry (heq ▸ hhere)
    have hstep : stepWith function cpu = some (cpu.run instr) := by
      rw [stepWith, if_neg hnoentry, step_of_bytesAt hfirst]
    refine Arrives.step hnotarget hstep ?_
    -- Behind the last instruction nothing is known of `eip`.
    cases instrs with
    | nil => exact hthen
    | cons next rest =>
      have heip : (cpu.run instr).eip = cpu.eip + BitVec.ofNat 32 instr.encode.length :=
        eip_run (hstraight instr (by simp))
      have hbehind : span (cpu.run instr).eip ((next :: rest).flatMap Instr.encode).length ⊆
          code := by
        rw [heip]
        exact (span_add_subset (Nat.le_refl _)).trans hcode
      -- What the instruction stores is not the code behind it.
      have hkept : Set.EqOn cpu.mem (cpu.run instr).mem
          (span (cpu.run instr).eip ((next :: rest).flatMap Instr.encode).length) := by
        intro a ha
        refine (eqOn_run cpu instr ?_).symm
        exact Set.disjoint_right.1 hspares.1 (hbehind ha)
      refine ih ?_ ?_ hspares.2 hbehind (by omega) hthen
      · rw [← heip] at hrest
        exact hrest.congr hkept (by omega)
      · intro instr' hmem
        exact hstraight instr' (List.mem_cons_of_mem _ hmem)

end Blocks

end X86
end Crossover
