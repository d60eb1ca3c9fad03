import Crossover.Lib.X86

/-!
# Breakpoint — exceptions at the factory

The handlers are called with an exception and the registers of the thread that it happened in, and
may change these.  The instruction at the breakpoint is `mov eax,[ebx+0x3C]`.
-/

namespace Crossover
namespace Tools

open X86

def factoryTypeRead : Word := 0x0041D249
def exceptionBreakpoint : Word := 0x80000003

/-- The registers of the thread. -/
structure Context where
  eax : Word
  ecx : Word
  edx : Word
  ebx : Word
  esp : Word
  ebp : Word
  esi : Word
  edi : Word
  eip : Word
  eflags : Word

/-- The processor with these registers. -/
def Context.cpu (context : Context) (mem : Memory) : Cpu :=
  { eax := context.eax, ecx := context.ecx, edx := context.edx, ebx := context.ebx
    esp := context.esp, ebp := context.ebp, esi := context.esi, edi := context.edi
    eip := context.eip, eflags := context.eflags, mem := mem }

structure Exception where
  code : Word
  address : Word
  context : Context

/-- The breakpoint of the factory. -/
def Exception.Ours (ep : Exception) : Prop :=
  ep.code = exceptionBreakpoint ∧ ep.address = factoryTypeRead

instance (ep : Exception) : Decidable ep.Ours :=
  inferInstanceAs (Decidable (_ ∧ _))

/-- The test with which the handlers begin. -/
theorem Exception.foreign_iff {ep : Exception} :
    ep.code ≠ exceptionBreakpoint ∨ ep.address ≠ factoryTypeRead ↔ ¬ ep.Ours :=
  not_and_or.symm

inductive Disposition
  | continueSearch
  | continueExecution
  deriving DecidableEq, Repr

end Tools
end Crossover
