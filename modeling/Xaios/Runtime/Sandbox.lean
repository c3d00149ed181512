import Mathlib.Order.Lattice
import Xaios.Status

/-!
# The build machine of the sandbox

`sandbox_execute_build` of `kernel/runtime/sandbox.c` runs a program on eight registers and
writes the bytes that it emits to the build arena. It is compared with the machine that keeps
all bytes and says how it has ended (`Sandbox.reference`).

The loop of the source ends when the program halts, when an instruction is none, and when the
cycles are used up; and bytes for which there is no room are dropped. Only an instruction that
is none is answered with an error: a program that never halts is answered with OK, and so is
one whose output was cut (`Sandbox.build_faithful_iff`).
-/

namespace Xaios.Sandbox

open List Function

/-- `XAIOS_SANDBOX_VM_OP_NOP` to `XAIOS_SANDBOX_VM_OP_EMIT_STR`. -/
inductive Op where
  | nop | loadImm | add | mul | emit | cmp | jnz | halt | emitStr

/-- `xaios_sandbox_vm_insn_t`. A number that is no operation is `none`. -/
structure Insn where
  op : Option Op
  dst : UInt8
  src1 : UInt8
  src2 : UInt8
  imm : UInt32

/-- `regs` and `pc`. -/
structure Vm where
  regs : Fin 8 → Int64
  pc : ℕ

/-- A register, by its number modulo `XAIOS_SANDBOX_VM_REGISTERS`. -/
def register (n : ℕ) : Fin 8 := ⟨n % 8, Nat.mod_lt n (Nat.succ_pos 7)⟩

/-- `(uint8_t)(regs[n] & 0xFF)`. -/
def Vm.lowByte (s : Vm) (n : ℕ) : UInt8 := (s.regs (register n)).toUInt64.toUInt8

/-- An instruction that goes on with the next one and sets a register. -/
def Vm.set (s : Vm) (dst : Fin 8) (x : Int64) : Vm := ⟨update s.regs dst x, s.pc + 1⟩

/-- The `switch` without its `default`: the registers and `pc`, and the bytes for the arena. -/
def execute (count : ℕ) (i : Insn) (s : Vm) (op : Op) : Vm × List UInt8 :=
  let dst := register i.dst.toNat
  let x := s.regs (register i.src1.toNat)
  let y := s.regs (register i.src2.toNat)
  match op with
  | .nop => ({ s with pc := s.pc + 1 }, [])
  | .loadImm => (s.set dst i.imm.toInt32.toInt64, [])
  | .add => (s.set dst (x + y), [])
  | .mul => (s.set dst (x * y), [])
  | .emit => ({ s with pc := s.pc + 1 }, [s.lowByte i.dst.toNat])
  | .cmp => (s.set dst (if x = y then 0 else 1), [])
  | .jnz => ({ s with pc := if s.regs dst ≠ 0 then i.imm.toNat else s.pc + 1 }, [])
  | .halt => ({ s with pc := count }, [])
  | .emitStr =>
    ({ s with pc := s.pc + 1 },
      (range i.imm.toNat).map fun ri => s.lowByte (i.src1.toNat + ri))

/-- Bytes are written to the arena while `out_pos < arena_cap`. -/
def store (cap : ℕ) : List UInt8 → List UInt8 → List UInt8
  | out, [] => out
  | out, b :: bytes => if out.length < cap then store cap (out ++ [b]) bytes else out

/-- The loop, with the cycles that are left: the status, and what is in the arena. -/
def runLoop (cap : ℕ) (program : List Insn) : ℕ → Vm → List UInt8 → Status × List UInt8
  | 0, _, out => (.ok, out)
  | cycles + 1, s, out =>
    match program[s.pc]? with
    | none => (.ok, out)
    | some i =>
      match i.op.map (execute program.length i s) with
      | none => (.invalid, out)
      | some (s, bytes) => runLoop cap program cycles s (store cap out bytes)

/-- `sandbox_execute_build` on a sandbox, with the size of its arena; without an arena the size
is zero. -/
def sandboxExecuteBuild (building : Bool) (cap : ℕ) (program : List Insn) : Status × List UInt8 :=
  if program = [] ∨ 4096 < program.length ∨ !building then (.invalid, [])
  else runLoop cap program (program.length * 64) ⟨fun _ => 0, 0⟩ []

/-- What has become of a program, and what it has emitted. -/
inductive Outcome where
  | halted (out : List UInt8)
  | invalid (out : List UInt8)
  | running (out : List UInt8)
  deriving DecidableEq

/-- **The meaning of a program**, for a number of cycles. It halts at `HALT` or by running past
its end. -/
def reference (program : List Insn) : ℕ → Vm → List UInt8 → Outcome
  | 0, s, out => if s.pc < program.length then .running out else .halted out
  | cycles + 1, s, out =>
    match program[s.pc]? with
    | none => .halted out
    | some i =>
      match i.op.map (execute program.length i s) with
      | none => .invalid out
      | some (s, bytes) => reference program cycles s (out ++ bytes)

/-- How an outcome is answered. -/
def Outcome.answer (cap : ℕ) : Outcome → Status × List UInt8
  | .halted out | .running out => (.ok, out.take cap)
  | .invalid out => (.invalid, out.take cap)

theorem store_eq (cap : ℕ) (out bytes : List UInt8) :
    store cap (out.take cap) bytes = (out ++ bytes).take cap := by
  induction bytes generalizing out with
  | nil => rw [store, append_nil]
  | cons b bytes ih =>
    rw [store, length_take]
    split
    · next hroom =>
      have hnext : (out ++ [b]).length ≤ cap := by
        rw [length_append, length_singleton]
        omega
      rw [take_of_length_le (by omega), ← take_of_length_le hnext, ih, append_assoc]
      rfl
    · rw [take_append_of_le_length (by omega)]

/-- **The loop does what the program means**, as far as there is room. -/
theorem runLoop_eq (cap : ℕ) (program : List Insn) (cycles : ℕ) (s : Vm) (out : List UInt8) :
    runLoop cap program cycles s (out.take cap) =
      (reference program cycles s out).answer cap := by
  induction cycles generalizing s out with
  | zero =>
    rw [reference]
    split <;> rfl
  | succ cycles ih =>
    rw [runLoop, reference]
    cases program[s.pc]? with
    | none => rfl
    | some i =>
      dsimp only
      cases i.op.map (execute program.length i s) with
      | none => rfl
      | some r => simp only [store_eq, ih]

/-- **When the machine is faithful.** It never writes behind the arena. It answers OK exactly
for the programs that halt within their cycles with an output that fits, and with this output,
if and only if the program is one of these or comes to an instruction that is none. -/
theorem build_faithful_iff (cap : ℕ) (program : List Insn)
    (hlen : program ≠ [] ∧ program.length ≤ 4096) :
    let answer := sandboxExecuteBuild true cap program
    let outcome := reference program (program.length * 64) ⟨fun _ => 0, 0⟩ []
    answer.2.length ≤ cap ∧
      ((∀ out, answer = (.ok, out) ↔ outcome = .halted out ∧ out.length ≤ cap) ↔
        (∃ out, outcome = .invalid out) ∨ ∃ out, outcome = .halted out ∧ out.length ≤ cap) := by
  intro answer outcome
  have hanswer : answer = outcome.answer cap := by
    have hrun := runLoop_eq cap program (program.length * 64) ⟨fun _ => 0, 0⟩ []
    rw [take_nil] at hrun
    exact (if_neg (by simp [hlen])).trans hrun
  rw [hanswer]
  clear_value outcome
  cases outcome with
  | halted out =>
    refine ⟨length_take_le _ _, fun h => .inr ⟨_, (h _).mp rfl⟩, ?_⟩
    rintro (⟨_, ⟨⟩⟩ | ⟨_, ⟨⟩, hfits⟩) out'
    rw [Outcome.answer, take_of_length_le hfits]
    constructor
    · rintro ⟨⟩
      exact ⟨rfl, hfits⟩
    · rintro ⟨⟨⟩, -⟩
      rfl
  | invalid | running => simp [Outcome.answer]

/-- A jump to itself, behind a `LOAD_IMM` of its register. -/
def endless : List Insn := [⟨some .loadImm, 0, 0, 0, 1⟩, ⟨some .jnz, 0, 0, 0, 1⟩]

theorem endless_within : (sandboxExecuteBuild true 2 endless).2.length ≤ 2 :=
  (build_faithful_iff 2 endless (by simp [endless])).1

/-- **A program that does not halt is answered with OK.** -/
theorem endless_ok :
    sandboxExecuteBuild true 2 endless = (.ok, []) ∧
      reference endless (endless.length * 64) ⟨fun _ => 0, 0⟩ [] = .running [] := by
  decide +kernel

end Xaios.Sandbox
