import Nachos.Machine.Translate

/-!
# The simulated processor

`machine/mipssim.cc` and the tables of `machine/mipssim.h`, as they are compiled
with `SIM_FIX`: `Instruction::Decode`, `Machine::OneInstruction`,
`Machine::DelayedLoad` and `Machine::RaiseException`.  An `int` is a 32-bit
word; its sums wrap and its right shift keeps the sign.  A register field of an
instruction has five bits, so it is a number below `NumGPRegs`; the index that
`DelayedLoad` takes from a register is checked.  Debug output is left out.
-/

namespace Nachos

open Foundation

/-- The `OP_` values, and the two that ask for further decoding. -/
inductive OpCode where
  | add | addi | addiu | addu | and | andi
  | beq | bgez | bgezal | bgtz | blez | bltz | bltzal | bne
  | div | divu | j | jal | jalr | jr
  | lb | lbu | lh | lhu | lui | lw | lwl | lwr
  | mfhi | mflo | mthi | mtlo | mult | multu
  | nor | or | ori | rfe | sb | sh
  | sll | sllv | slt | slti | sltiu | sltu
  | sra | srav | srl | srlv | sub | subu
  | sw | swl | swr | xor | xori | syscall | unimp | res
  | special | bcond
  deriving DecidableEq, Repr

inductive Format where
  | ifmt
  | jfmt
  | rfmt
  deriving DecidableEq, Repr

def opTable : List (OpCode × Format) := [
  (.special, .rfmt), (.bcond, .ifmt), (.j, .jfmt), (.jal, .jfmt),
  (.beq, .ifmt), (.bne, .ifmt), (.blez, .ifmt), (.bgtz, .ifmt),
  (.addi, .ifmt), (.addiu, .ifmt), (.slti, .ifmt), (.sltiu, .ifmt),
  (.andi, .ifmt), (.ori, .ifmt), (.xori, .ifmt), (.lui, .ifmt),
  (.unimp, .ifmt), (.unimp, .ifmt), (.unimp, .ifmt), (.unimp, .ifmt),
  (.res, .ifmt), (.res, .ifmt), (.res, .ifmt), (.res, .ifmt),
  (.res, .ifmt), (.res, .ifmt), (.res, .ifmt), (.res, .ifmt),
  (.res, .ifmt), (.res, .ifmt), (.res, .ifmt), (.res, .ifmt),
  (.lb, .ifmt), (.lh, .ifmt), (.lwl, .ifmt), (.lw, .ifmt),
  (.lbu, .ifmt), (.lhu, .ifmt), (.lwr, .ifmt), (.res, .ifmt),
  (.sb, .ifmt), (.sh, .ifmt), (.swl, .ifmt), (.sw, .ifmt),
  (.res, .ifmt), (.res, .ifmt), (.swr, .ifmt), (.res, .ifmt),
  (.unimp, .ifmt), (.unimp, .ifmt), (.unimp, .ifmt), (.unimp, .ifmt),
  (.res, .ifmt), (.res, .ifmt), (.res, .ifmt), (.res, .ifmt),
  (.unimp, .ifmt), (.unimp, .ifmt), (.unimp, .ifmt), (.unimp, .ifmt),
  (.res, .ifmt), (.res, .ifmt), (.res, .ifmt), (.res, .ifmt)]

def specialTable : List OpCode := [
  .sll, .res, .srl, .sra, .sllv, .res, .srlv, .srav,
  .jr, .jalr, .res, .res, .syscall, .unimp, .res, .res,
  .mfhi, .mthi, .mflo, .mtlo, .res, .res, .res, .res,
  .mult, .multu, .div, .divu, .res, .res, .res, .res,
  .add, .addu, .sub, .subu, .and, .or, .xor, .nor,
  .res, .res, .slt, .sltu, .res, .res, .res, .res,
  .res, .res, .res, .res, .res, .res, .res, .res,
  .res, .res, .res, .res, .res, .res, .res, .res]

structure Instruction where
  opCode : OpCode
  rs : Fin numGPRegs
  rt : Fin numGPRegs
  rd : Fin numGPRegs
  extra : Word

namespace Instruction

def registerField (value : Word) (position : Nat) : Fin numGPRegs :=
  ⟨((value >>> position) &&& 0x1f).toNat, by
    rw [BitVec.toNat_and]
    exact Nat.lt_of_le_of_lt Nat.and_le_right (by decide)⟩

def tableField (value : Word) (position : Nat) : Fin 64 :=
  ⟨((value >>> position) &&& 0x3f).toNat, by
    rw [BitVec.toNat_and]
    exact Nat.lt_of_le_of_lt Nat.and_le_right (by decide)⟩

def bcondCode (value : Word) : OpCode :=
  let i := value &&& 0x1f0000
  if i = 0 then
    .bltz
  else if i = 0x10000 then
    .bgez
  else if i = 0x100000 then
    .bltzal
  else if i = 0x110000 then
    .bgezal
  else
    .unimp

def extraField (value : Word) : Format → Word
  | .ifmt =>
    let extra := value &&& 0xffff
    if extra &&& 0x8000 ≠ 0 then extra ||| 0xffff0000 else extra
  | .rfmt => (value >>> 6) &&& 0x1f
  | .jfmt => value &&& 0x3ffffff

def decode (value : Word) : Instruction :=
  let info := opTable.get (tableField value 26)
  { opCode :=
      match info.1 with
      | .special => specialTable.get (tableField value 0)
      | .bcond => bcondCode value
      | opCode => opCode
    rs := registerField value 21
    rt := registerField value 16
    rd := registerField value 11
    extra := extraField value info.2 }

end Instruction

/-! ## Multiplication -/

structure MultState where
  a : Word
  bLo : Word
  bHi : Word
  lo : Word
  hi : Word

namespace MultState

def addIn (state : MultState) : MultState :=
  let lo := state.lo + state.bLo
  let hi := if lo < state.bLo then state.hi + 1 else state.hi
  { state with lo := lo, hi := hi + state.bHi }

def shift (state : MultState) : MultState :=
  let bHi := state.bHi <<< 1
  { state with
    bHi := if state.bLo &&& 0x80000000 ≠ 0 then bHi ||| 1 else bHi
    bLo := state.bLo <<< 1
    a := state.a.sshiftRight 1 }

/-- The loop of `Mult`, which stops early after the last bit of `a`. -/
def loop : Nat → MultState → MultState
  | 0, state => state
  | count + 1, state =>
    if state.a &&& 1 ≠ 0 then
      if state.a &&& 0xfffffffe = 0 then
        state.addIn
      else
        loop count state.addIn.shift
    else
      loop count state.shift

end MultState

def mult (a b : Word) (signedArith : Bool) : Word × Word :=
  if a = 0 ∨ b = 0 then
    (0, 0)
  else
    let negateA := signedArith && a.slt 0
    let negateB := signedArith && b.slt 0
    let product := MultState.loop 32
      ⟨if negateA then -a else a, if negateB then -b else b, 0, 0, 0⟩
    if negateA != negateB then
      let lo := ~~~product.lo + 1
      let hi := if lo = 0 then ~~~product.hi + 1 else ~~~product.hi
      (hi, lo)
    else
      (product.hi, product.lo)

/-! ## Registers -/

def hiReg : Fin numTotalRegs := ⟨32, by decide⟩

def loReg : Fin numTotalRegs := ⟨33, by decide⟩

def pcReg : Fin numTotalRegs := ⟨34, by decide⟩

def nextPCReg : Fin numTotalRegs := ⟨35, by decide⟩

def prevPCReg : Fin numTotalRegs := ⟨36, by decide⟩

def loadReg : Fin numTotalRegs := ⟨37, by decide⟩

def loadValueReg : Fin numTotalRegs := ⟨38, by decide⟩

def badVAddrReg : Fin numTotalRegs := ⟨39, by decide⟩

def r0 : Fin numGPRegs := ⟨0, by decide⟩

def r31 : Fin numGPRegs := ⟨31, by decide⟩

def gpr (num : Fin numGPRegs) : Fin numTotalRegs :=
  num.castLE (by decide)

/-- Where an instruction leaves the `switch` of `OneInstruction`: at a `break`,
with the delayed load and the program counter it has computed, or at a `return`
after an exception. -/
inductive Outcome where
  | completed (machine : Machine) (nextLoadReg : Fin numGPRegs)
      (nextLoadValue pcAfter : Word)
  | raised (machine : Machine) (which : ExceptionType) (badVAddr : Word)

namespace Machine

def set (machine : Machine) (num : Fin numTotalRegs) (value : Word) : Machine :=
  { machine with registers := Function.update machine.registers num value }

def setIndexed (machine : Machine) (num value : Word) : Except Fault Machine :=
  if inside : num.toNat < numTotalRegs then
    .ok (machine.set ⟨num.toNat, inside⟩ value)
  else
    .error .outOfBounds

def delayedLoad (machine : Machine) (nextReg : Fin numGPRegs)
    (nextValue : Word) : Except Fault Machine := do
  let loaded ← machine.setIndexed (machine.registers loadReg)
    (machine.registers loadValueReg)
  return ((loaded.set loadReg (BitVec.ofNat 32 nextReg)).set loadValueReg
    nextValue).set (gpr r0) 0

/-- `Machine::RaiseException` up to the call of `ExceptionHandler`. -/
def raiseException (machine : Machine) (badVAddr : Word) :
    Except Fault Machine :=
  (machine.set badVAddrReg badVAddr).delayedLoad r0 0

def operand (machine : Machine) (num : Fin numGPRegs) : Word :=
  machine.registers (gpr num)

def following (machine : Machine) : Word :=
  machine.registers nextPCReg + 4

/-- An instruction that does nothing more before the `break`. -/
def proceed (machine : Machine) : Outcome :=
  .completed machine r0 0 machine.following

def write (machine : Machine) (num : Fin numGPRegs) (value : Word) : Outcome :=
  (machine.set (gpr num) value).proceed

def jump (machine : Machine) (pcAfter : Word) : Outcome :=
  .completed machine r0 0 pcAfter

def branch (machine : Machine) (taken : Bool) (extra : Word) : Outcome :=
  if taken then
    machine.jump (machine.registers nextPCReg + (extra <<< 2))
  else
    machine.proceed

def writeHiLo (machine : Machine) (hi lo : Word) : Outcome :=
  ((machine.set loReg lo).set hiReg hi).proceed

def link (machine : Machine) (num : Fin numGPRegs) : Machine :=
  machine.set (gpr num) machine.following

def writeUnless (machine : Machine) (overflows : Bool) (num : Fin numGPRegs)
    (value : Word) : Outcome :=
  if overflows then
    .raised machine .overflowException 0
  else
    machine.write num value

/-- `LB` to `LW`: a delayed load of `extend` of what is read. -/
def load (machine : Machine) (rt : Fin numGPRegs) (addr : Word) (size : Nat)
    (extend : Word → Word) : Except Fault Outcome := do
  let (result, next) ← machine.readMem addr size
  match result with
  | .error exception => return .raised next exception addr
  | .ok value => return .completed next rt (extend value) next.following

/-- `LWL` and `LWR`: a delayed load of what is read, merged with the register
or with the load that is pending for it. -/
def loadPart (machine : Machine) (rt : Fin numGPRegs) (addr : Word)
    (merge : Word → Word → Word → Word) : Except Fault Outcome := do
  let byte := addr &&& 3
  let (result, next) ← machine.readMem (addr - byte) 4
  match result with
  | .error exception => return .raised next exception (addr - byte)
  | .ok value =>
    let old :=
      if next.registers loadReg = BitVec.ofNat 32 rt then
        next.registers loadValueReg
      else
        next.operand rt
    return .completed next rt (merge (3 - byte) old value) next.following

def store (machine : Machine) (addr : Word) (size : Nat) (value : Word) :
    Except Fault Outcome := do
  let (result, next) ← machine.writeMem addr size value
  match result with
  | .error exception => return .raised next exception addr
  | .ok () => return next.proceed

def storePart (machine : Machine) (rt : Fin numGPRegs) (addr : Word)
    (merge : Word → Word → Word → Word) : Except Fault Outcome := do
  let byte := addr &&& 3
  let (result, next) ← machine.readMem (addr - byte) 4
  match result with
  | .error exception => return .raised next exception (addr - byte)
  | .ok value =>
    next.store (addr - byte) 4 (merge (3 - byte) value (next.operand rt))

def signBit (value : Word) : Bool :=
  value &&& 0x80000000 != 0

/-- The sum of `left` and `right` overflows, as `OP_ADD` and `OP_ADDI` test it
with the sign of `tested`. -/
def addOverflows (left right tested sum : Word) : Bool :=
  !signBit (left ^^^ right) && signBit (tested ^^^ sum)

def lwlMerge (part old value : Word) : Word :=
  if part = 0 then value
  else if part = 1 then (old &&& 0xff) ||| (value <<< 8)
  else if part = 2 then (old &&& 0xffff) ||| (value <<< 16)
  else (old &&& 0xffffff) ||| (value <<< 24)

def lwrMerge (part old value : Word) : Word :=
  if part = 0 then (old &&& 0xffffff00) ||| (value.sshiftRight 24 &&& 0xff)
  else if part = 1 then
    (old &&& 0xffff0000) ||| (value.sshiftRight 16 &&& 0xffff)
  else if part = 2 then
    (old &&& 0xff000000) ||| (value.sshiftRight 8 &&& 0xffffff)
  else value

def swlMerge (part value register : Word) : Word :=
  if part = 0 then register
  else if part = 1 then
    (value &&& 0xff000000) ||| (register.sshiftRight 8 &&& 0xffffff)
  else if part = 2 then
    (value &&& 0xffff0000) ||| (register.sshiftRight 16 &&& 0xffff)
  else (value &&& 0xffffff00) ||| (register.sshiftRight 24 &&& 0xff)

def swrMerge (part value register : Word) : Word :=
  if part = 0 then (value &&& 0xffffff) ||| (register <<< 24)
  else if part = 1 then (value &&& 0xffff) ||| (register <<< 16)
  else if part = 2 then (value &&& 0xff) ||| (register <<< 8)
  else register

def extended (isSigned : Bool) (sign ones mask value : Word) : Word :=
  if value &&& sign ≠ 0 ∧ isSigned then value ||| ones else value &&& mask

/-- `OP_LH` and `OP_LHU` check the alignment themselves. -/
def loadHalf (machine : Machine) (rt : Fin numGPRegs) (addr : Word)
    (isSigned : Bool) : Except Fault Outcome :=
  if addr &&& 1 ≠ 0 then
    .ok (.raised machine .addressErrorException addr)
  else
    machine.load rt addr 2 (extended isSigned 0x8000 0xffff0000 0xffff)

def loadByte (machine : Machine) (rt : Fin numGPRegs) (addr : Word)
    (isSigned : Bool) : Except Fault Outcome :=
  machine.load rt addr 1 (extended isSigned 0x80 0xffffff00 0xff)

def loadWord (machine : Machine) (rt : Fin numGPRegs) (addr : Word) :
    Except Fault Outcome :=
  if addr &&& 3 ≠ 0 then
    .ok (.raised machine .addressErrorException addr)
  else
    machine.load rt addr 4 id

/-- `OP_DIV`; the host traps if the quotient is no `int`. -/
def divide (machine : Machine) (rs rt : Word) : Except Fault Outcome :=
  if rt = 0 then
    .ok (machine.writeHiLo 0 0)
  else if rs = 0x80000000 ∧ rt = 0xffffffff then
    .error .divisionOverflow
  else
    .ok (machine.writeHiLo (rs.srem rt) (rs.sdiv rt))

def divideUnsigned (machine : Machine) (rs rt : Word) : Outcome :=
  if rt = 0 then
    machine.writeHiLo 0 0
  else
    machine.writeHiLo (rs % rt) (rs / rt)

def flag (condition : Bool) : Word :=
  if condition then 1 else 0

def execute (machine : Machine) (instr : Instruction) :
    Except Fault Outcome :=
  let rs := machine.operand instr.rs
  let rt := machine.operand instr.rt
  let extra := instr.extra
  match instr.opCode with
  | .add =>
    .ok (machine.writeUnless (addOverflows rs rt rs (rs + rt)) instr.rd
      (rs + rt))
  | .addi =>
    .ok (machine.writeUnless (addOverflows rs extra extra (rs + extra))
      instr.rt (rs + extra))
  | .addiu => .ok (machine.write instr.rt (rs + extra))
  | .addu => .ok (machine.write instr.rd (rs + rt))
  | .and => .ok (machine.write instr.rd (rs &&& rt))
  | .andi => .ok (machine.write instr.rt (rs &&& (extra &&& 0xffff)))
  | .beq => .ok (machine.branch (rs == rt) extra)
  | .bgezal =>
    let linked := machine.link r31
    .ok (linked.branch (!signBit (linked.operand instr.rs)) extra)
  | .bgez => .ok (machine.branch (!signBit rs) extra)
  | .bgtz => .ok (machine.branch ((0 : Word).slt rs) extra)
  | .blez => .ok (machine.branch (rs.sle 0) extra)
  | .bltzal =>
    let linked := machine.link r31
    .ok (linked.branch (signBit (linked.operand instr.rs)) extra)
  | .bltz => .ok (machine.branch (signBit rs) extra)
  | .bne => .ok (machine.branch (rs != rt) extra)
  | .div => machine.divide rs rt
  | .divu => .ok (machine.divideUnsigned rs rt)
  | .jal =>
    .ok ((machine.link r31).jump
      ((machine.following &&& 0xf0000000) ||| (extra <<< 2)))
  | .j =>
    .ok (machine.jump
      ((machine.following &&& 0xf0000000) ||| (extra <<< 2)))
  | .jalr =>
    let linked := machine.link instr.rd
    .ok (linked.jump (linked.operand instr.rs))
  | .jr => .ok (machine.jump rs)
  | .lb => machine.loadByte instr.rt (rs + extra) true
  | .lbu => machine.loadByte instr.rt (rs + extra) false
  | .lh => machine.loadHalf instr.rt (rs + extra) true
  | .lhu => machine.loadHalf instr.rt (rs + extra) false
  | .lui => .ok (machine.write instr.rt (extra <<< 16))
  | .lw => machine.loadWord instr.rt (rs + extra)
  | .lwl => machine.loadPart instr.rt (rs + extra) lwlMerge
  | .lwr => machine.loadPart instr.rt (rs + extra) lwrMerge
  | .mfhi => .ok (machine.write instr.rd (machine.registers hiReg))
  | .mflo => .ok (machine.write instr.rd (machine.registers loReg))
  | .mthi => .ok (machine.set hiReg rs).proceed
  | .mtlo => .ok (machine.set loReg rs).proceed
  | .mult =>
    let product := mult rs rt true
    .ok (machine.writeHiLo product.1 product.2)
  | .multu =>
    let product := mult rs rt false
    .ok (machine.writeHiLo product.1 product.2)
  | .nor => .ok (machine.write instr.rd (~~~(rs ||| rt)))
  | .or => .ok (machine.write instr.rd (rs ||| rt))
  | .ori => .ok (machine.write instr.rt (rs ||| (extra &&& 0xffff)))
  | .sb => machine.store (rs + extra) 1 rt
  | .sh => machine.store (rs + extra) 2 rt
  | .sll => .ok (machine.write instr.rd (rt <<< extra.toNat))
  | .sllv => .ok (machine.write instr.rd (rt <<< (rs &&& 0x1f).toNat))
  | .slt => .ok (machine.write instr.rd (flag (rs.slt rt)))
  | .slti => .ok (machine.write instr.rt (flag (rs.slt extra)))
  | .sltiu => .ok (machine.write instr.rt (flag (rs.ult extra)))
  | .sltu => .ok (machine.write instr.rd (flag (rs.ult rt)))
  | .sra => .ok (machine.write instr.rd (rt.sshiftRight extra.toNat))
  | .srav =>
    .ok (machine.write instr.rd (rt.sshiftRight (rs &&& 0x1f).toNat))
  | .srl => .ok (machine.write instr.rd (rt.sshiftRight extra.toNat))
  | .srlv =>
    .ok (machine.write instr.rd (rt.sshiftRight (rs &&& 0x1f).toNat))
  | .sub =>
    .ok (machine.writeUnless
      (signBit (rs ^^^ rt) && signBit (rs ^^^ (rs - rt))) instr.rd
      (rs - rt))
  | .subu => .ok (machine.write instr.rd (rs - rt))
  | .sw => machine.store (rs + extra) 4 rt
  | .swl => machine.storePart instr.rt (rs + extra) swlMerge
  | .swr => machine.storePart instr.rt (rs + extra) swrMerge
  | .syscall => .ok (.raised machine .syscallException 0)
  | .xor => .ok (machine.write instr.rd (rs ^^^ rt))
  | .xori => .ok (machine.write instr.rt (rs ^^^ (extra &&& 0xffff)))
  | .res | .unimp => .ok (.raised machine .illegalInstrException 0)
  | .rfe | .special | .bcond => .error (.assertion .unknownOpCode)

def advance (machine : Machine) (pcAfter : Word) : Machine :=
  ((machine.set prevPCReg (machine.registers pcReg)).set pcReg
    (machine.registers nextPCReg)).set nextPCReg pcAfter

/-- The end of `Machine::OneInstruction`: with the exception whose handler is
entered, if there is one. -/
def finish : Outcome → Except Fault (Machine × Option ExceptionType)
  | .raised machine which badVAddr => do
    return (← machine.raiseException badVAddr, some which)
  | .completed machine nextLoadReg nextLoadValue pcAfter => do
    let machine ← machine.delayedLoad nextLoadReg nextLoadValue
    return (machine.advance pcAfter, none)

/-- `Machine::OneInstruction`, up to the call of `ExceptionHandler` if an
exception is raised. -/
def oneInstruction (machine : Machine) :
    Except Fault (Machine × Option ExceptionType) := do
  let pc := machine.registers pcReg
  let (raw, fetched) ← machine.readMem pc 4
  match raw with
  | .error exception => finish (.raised fetched exception pc)
  | .ok value => finish (← fetched.execute (Instruction.decode value))

end Machine

end Nachos
