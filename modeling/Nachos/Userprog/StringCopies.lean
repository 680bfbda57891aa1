import Nachos.Machine.ByteMemory
import Nachos.Userprog.Returns

/-!
# Strings between user and kernel memory
-/

namespace Nachos.Userprog

open Foundation

variable {World : Type}

/-! ## The bytes that are sent -/

def sent (limit : Nat) (buffer : List Byte) : List Byte :=
  (cString buffer ++ [0]).take limit

theorem sent_succ (limit : Nat) (buffer : List Byte) :
    sent (limit + 1) buffer =
      if buffer.headD 0 = 0 then [0]
      else buffer.headD 0 :: sent limit buffer.tail := by
  unfold sent
  cases buffer with
  | nil => simp [cString]
  | cons byte bytes =>
    rw [cString_cons, List.headD_cons, List.tail_cons]
    split_ifs with isNul
    · simp
    · rfl

theorem length_sent_le (limit : Nat) (buffer : List Byte) :
    (sent limit buffer).length ≤ limit := by
  unfold sent
  rw [List.length_take]
  exact Nat.min_le_left _ _

/-- Of a buffer that has a NUL or is as long as the limit, the first bytes are
sent. -/
theorem sent_eq_take
    {limit : Nat} {buffer : List Byte}
    (supplied : 0 ∈ buffer ∨ limit ≤ buffer.length) :
    sent limit buffer =
      buffer.take (min limit ((cString buffer).length + 1)) := by
  induction buffer generalizing limit with
  | nil =>
    obtain rfl : limit = 0 := Nat.le_zero.mp (supplied.resolve_left (by simp))
    rfl
  | cons byte bytes ih =>
    cases limit with
    | zero =>
      simp [sent]
    | succ limit =>
      rw [sent_succ, cString_cons, List.headD_cons, List.tail_cons]
      split_ifs with isNul
      · simp [isNul]
      · have suppliedRest : 0 ∈ bytes ∨ limit ≤ bytes.length := by
          refine supplied.imp ?_ Nat.le_of_succ_le_succ
          intro terminated
          exact (List.mem_cons.mp terminated).resolve_left (Ne.symm isNul)
        rw [ih suppliedRest, List.length_cons,
          Nat.add_min_add_right, List.take_succ_cons]

/-! ## Memory as user code sees it -/

def listFrom (addr : Word) (bytes : List Byte) (other : Word) : Option Byte :=
  bytes[(other - addr).toNat]?

theorem listFrom_cons
    (addr : Word) (byte : Byte) {bytes : List Byte}
    (few : bytes.length < 4294967296) (other : Word) :
    (listFrom (addr + 1) bytes other).or (listFrom addr [byte] other) =
      listFrom addr (byte :: bytes) other := by
  unfold listFrom
  by_cases same : other = addr
  · have past : bytes.length ≤ (other - (addr + 1)).toNat := by
      rw [same]
      bv_omega
    have here : (other - addr).toNat = 0 := by
      rw [same, BitVec.sub_self]
      rfl
    rw [List.getElem?_eq_none past, here]
    rfl
  · have behind : (other - addr).toNat = (other - (addr + 1)).toNat + 1 := by
      bv_omega
    rw [behind, List.getElem?_cons_succ, List.getElem?_cons_succ,
      List.getElem?_nil, Option.or_none]

variable {machine next : Machine} {addr : Word}

theorem add_ofNat_succ (addr : Word) (index : Nat) :
    addr + BitVec.ofNat 32 (index + 1) =
      addr + 1 + BitVec.ofNat 32 index := by
  rw [BitVec.ofNat_add, BitVec.add_comm (BitVec.ofNat 32 index),
    ← BitVec.add_assoc]
  rfl

theorem holds_of_byteAt
    {bytes : List Byte}
    (seen : ∀ index (inside : index < bytes.length),
      machine.byteAt (addr + BitVec.ofNat 32 index) = some bytes[index]) :
    machine.Holds addr bytes := by
  induction bytes generalizing addr with
  | nil =>
    trivial
  | cons byte bytes ih =>
    constructor
    · have here := seen 0 (Nat.zero_lt_succ _)
      rw [BitVec.add_zero] at here
      exact Option.map_eq_some_iff.mp here
    · apply ih
      intro index inside
      have there := seen (index + 1) (Nat.succ_lt_succ inside)
      rw [add_ofNat_succ] at there
      exact there

def Writable (machine : Machine) (addr : Word) (count : Nat) : Prop :=
  ∀ index < count,
    (machine.translation.physical (addr + BitVec.ofNat 32 index) true).isSome

theorem Writable.tail
    {count : Nat} (writable : Writable machine addr (count + 1))
    (settings : next.translation.settings = machine.translation.settings) :
    Writable next (addr + 1) count := by
  intro index inside
  have there := writable (index + 1) (Nat.succ_lt_succ inside)
  rw [add_ofNat_succ, ← Translation.physical_congr settings] at there
  exact there

theorem holds_of_edits
    {bytes : List Byte} (few : bytes.length < 4294967296)
    (writable : Writable machine addr bytes.length)
    (edits : machine.Edits (listFrom addr bytes) next) :
    next.Holds addr bytes := by
  apply holds_of_byteAt
  intro index inside
  obtain ⟨place, isPlace⟩ := Option.isSome_iff_exists.mp
    (Machine.isSome_read_of_write (writable index inside))
  rw [edits.bytes, listFrom, toNat_add_sub addr (by omega),
    List.getElem?_eq_getElem inside, Machine.byteAt, isPlace]
  rfl

/-! ## Storing a string -/

theorem writeByte_edits
    (ready : machine.translation.Ready)
    (separate : machine.translation.Separate)
    (writable : (machine.translation.physical addr true).isSome)
    (byte : Byte) :
    ∃ next, writeByte machine addr (byte.signExtend 32) = .ok next ∧
      next.registers = machine.registers ∧
      machine.Edits (listFrom addr [byte]) next := by
  obtain ⟨place, isPlace⟩ := Option.isSome_iff_exists.mp writable
  obtain ⟨_, written, _⟩ :=
    Machine.writeMem_mapped ready (byte.signExtend 32) isPlace
  obtain ⟨registers, _, edits⟩ :=
    Machine.writeMem_edits ready separate (Or.inl rfl) written
  refine ⟨_, writeByte_of_writeMem written, registers, edits.congr ?_⟩
  intro other old _
  unfold Machine.bytesFrom listFrom
  split_ifs with near
  · rw [Nat.lt_one_iff.mp near]
    exact extract_signExtend byte
  · rw [List.getElem?_eq_none (Nat.not_lt.mp near)]

theorem copyOut_edits
    {limit : Nat} {buffer : List Byte} (ready : machine.translation.Ready)
    (separate : machine.translation.Separate) (few : limit < 4294967296)
    (writable : Writable machine addr (sent limit buffer).length) :
    ∃ next, copyOut machine limit addr buffer =
        .ok ((sent limit buffer).length, next) ∧
      next.registers = machine.registers ∧
      machine.Edits (listFrom addr (sent limit buffer)) next := by
  induction limit generalizing machine addr buffer with
  | zero =>
    exact ⟨machine, rfl, rfl, Machine.Quiet.edits ⟨rfl, rfl, ready⟩⟩
  | succ limit ih =>
    rw [sent_succ] at writable ⊢
    have here : (machine.translation.physical addr true).isSome := by
      have first := writable 0 (by split_ifs <;> exact Nat.zero_lt_succ _)
      rw [BitVec.add_zero] at first
      exact first
    obtain ⟨after, written, registers, edits⟩ :=
      writeByte_edits ready separate here (buffer.headD 0)
    rw [copyOut_succ written]
    by_cases isNul : buffer.headD 0 = 0
    · rw [if_pos isNul, if_pos isNul]
      rw [isNul] at edits
      exact ⟨after, rfl, registers, edits⟩
    · rw [if_neg isNul] at writable
      rw [if_neg isNul, if_neg isNul]
      obtain ⟨last, stored, lastRegisters, lastEdits⟩ :=
        ih edits.ready (separate.congr edits.settings)
          (Nat.lt_of_succ_lt few) (writable.tail edits.settings)
      rw [stored]
      refine ⟨last, rfl, lastRegisters.trans registers,
        (edits.trans lastEdits).congr ?_⟩
      intro other old _
      have short := length_sent_le limit buffer.tail
      rw [listFrom_cons addr _ (by omega)]

/-! ## Copies -/

variable {platform : Platform World} {world : World}

def BringsIn (platform : Platform World) (world : World) (machine : Machine)
    (source : Word) (limit : Nat) (text : List Byte) : Prop :=
  text.length ≤ limit ∧
    ∃ next, user2System platform world machine source limit =
        .ok (some (text ++ List.replicate (limit + 1 - text.length) 0), next) ∧
      machine.Looked next

def TakesOut (machine : Machine) (buffer : List Byte) (target : Word)
    (limit : Nat) (bytes : List Byte) : Prop :=
  ∃ next, system2User machine buffer target limit =
      .ok ((bytes.length : Int), next) ∧
    next.registers = machine.registers ∧
    next.Holds target bytes ∧
    machine.Edits (listFrom target bytes) next

def Reproduces (platform : Platform World) (world : World) (machine : Machine)
    (source target : Word) (limit : Nat) (text : List Byte) : Prop :=
  ∃ buffer middle last,
    user2System platform world machine source limit =
      .ok (some buffer, middle) ∧
    system2User middle buffer target limit = .ok (text.length + 1, last) ∧
    last.registers = machine.registers ∧
    last.Holds target (text ++ [0]) ∧
    machine.Edits (listFrom target (text ++ [0])) last

theorem length_cString_le
    {limit : Nat} {bytes : List Byte} (covers : Covers limit bytes) :
    (cString bytes).length ≤ limit := by
  have short : (cString bytes).length ≤ bytes.length :=
    (List.takeWhile_sublist _).length_le
  rcases covers with all | ⟨few, _⟩
  · exact all ▸ short
  · exact short.trans few

theorem takesOut_sent
    (ready : machine.translation.Ready)
    (separate : machine.translation.Separate) {buffer : List Byte}
    {limit : Nat} (isInt : limit < 2 ^ 31)
    (writable : Writable machine addr (sent limit buffer).length) :
    TakesOut machine buffer addr limit (sent limit buffer) := by
  have few := length_sent_le limit buffer
  obtain ⟨next, stored, registers, edits⟩ :=
    copyOut_edits ready separate (by omega) writable
  refine ⟨next, ?_, registers, holds_of_edits (by omega) writable edits, edits⟩
  rw [system2User_natCast, stored]
  rfl

theorem sent_padded
    (bytes : List Byte) {limit : Nat} (below : (cString bytes).length < limit)
    (count : Nat) :
    sent limit (cString bytes ++ List.replicate count 0) =
      cString bytes ++ [0] := by
  unfold sent
  rw [cString_padded, List.take_of_length_le]
  rw [List.length_append, List.length_singleton]
  exact below

theorem user2System_overflows
    (platform : Platform World) (world : World) (machine : Machine)
    (source : Word) :
    user2System platform world machine source 2147483647 =
      .error .badAlloc := by
  rfl

section Exact

variable {source target : Word} {limit : Nat} {bytes buffer : List Byte}

theorem bringsIn_cString
    (ready : machine.translation.Ready) (holds : machine.Holds source bytes)
    (covers : Covers limit bytes)
    (allocated : platform.newChars (limit + 1) world = .allocated)
    (small : limit + 1 < 2 ^ 31) :
    BringsIn platform world machine source limit (cString bytes) :=
  ⟨length_cString_le covers,
    user2System_holds ready holds covers allocated small⟩

theorem BringsIn.reproduces
    (bringsIn : BringsIn platform world machine source limit (cString bytes))
    (separate : machine.translation.Separate) (isInt : limit < 2 ^ 31)
    (below : (cString bytes).length < limit)
    (writable : Writable machine target ((cString bytes).length + 1)) :
    Reproduces platform world machine source target limit (cString bytes) := by
  obtain ⟨-, middle, copiedIn, looked⟩ := bringsIn
  have isSent := sent_padded bytes below (limit + 1 - (cString bytes).length)
  have writableMiddle : Writable middle target
      (sent limit (cString bytes ++ List.replicate
        (limit + 1 - (cString bytes).length) 0)).length := by
    rw [isSent, List.length_append, List.length_singleton]
    unfold Writable
    rw [Translation.physical_congr looked.settings]
    exact writable
  obtain ⟨last, copiedOut, registers, holds, edits⟩ :=
    takesOut_sent looked.ready (looked.separate separate) isInt writableMiddle
  rw [isSent] at copiedOut holds edits
  rw [List.length_append, List.length_singleton] at copiedOut
  exact ⟨_, middle, last, copiedIn, copiedOut,
    registers.trans looked.registers, holds, looked.edits edits⟩

/-- The copies are exact, except that `user2System` has no buffer for the
greatest limit. -/
theorem copies_exact_iff
    (ready : machine.translation.Ready)
    (separate : machine.translation.Separate) (isInt : limit < 2 ^ 31)
    (allocated : platform.newChars (limit + 1) world = .allocated)
    (holds : machine.Holds source bytes) (covers : Covers limit bytes)
    (supplied : 0 ∈ buffer ∨ limit ≤ buffer.length)
    (writable : Writable machine target
      (min limit ((cString buffer).length + 1))) :
    (BringsIn platform world machine source limit (cString bytes) ∧
      TakesOut machine buffer target limit
        (buffer.take (min limit ((cString buffer).length + 1))) ∧
      ∀ place, (cString bytes).length < limit →
        Writable machine place ((cString bytes).length + 1) →
        Reproduces platform world machine source place limit
          (cString bytes)) ↔
      limit ≠ 2 ^ 31 - 1 := by
  constructor
  · rintro ⟨⟨-, next, copiedIn, -⟩, -⟩ rfl
    cases (user2System_overflows platform world machine source).symm.trans
      copiedIn
  · intro notGreatest
    have bringsIn : BringsIn platform world machine source limit
        (cString bytes) :=
      bringsIn_cString ready holds covers allocated (by omega)
    refine ⟨bringsIn, ?_, fun place below writablePlace =>
      bringsIn.reproduces separate isInt below writablePlace⟩
    rw [← sent_eq_take supplied]
    apply takesOut_sent ready separate isInt
    unfold sent
    rw [List.length_take, List.length_append, List.length_singleton]
    exact writable

end Exact

def greeting : Machine :=
  Machine.onePage (fun address => ([104, 105, 0] : List Byte).getD address 0)
    false

theorem holds_greeting : greeting.Holds 0 [104, 105, 0] :=
  ⟨⟨0, rfl, rfl⟩, ⟨1, rfl, rfl⟩, ⟨2, rfl, rfl⟩, trivial⟩

theorem writable_greeting : Writable greeting 64 3 := by
  unfold Writable
  decide

/-- The string is copied in, and copied out again at 64. -/
theorem copies_exact_greeting :
    BringsIn smallPlatform .initial greeting 0 5 [104, 105] ∧
      TakesOut greeting [104, 105, 0] 64 5 [104, 105, 0] ∧
      Reproduces smallPlatform .initial greeting 0 64 5 [104, 105] := by
  have exactCopies := (@copies_exact_iff _ greeting smallPlatform .initial 0 64
    5 [104, 105, 0] [104, 105, 0] rfl (Machine.separate_onePage _ _)
    (by decide) rfl holds_greeting (Or.inr (by decide)) (Or.inl (by decide))
    writable_greeting).mpr (by decide)
  exact ⟨exactCopies.1, exactCopies.2.1,
    exactCopies.2.2 64 (by decide) writable_greeting⟩

/-- `user2System` of the string with the greatest limit throws. -/
theorem greatest_limit_throws :
    greeting.translation.Ready ∧ greeting.translation.Separate ∧
      greeting.Holds 0 [104, 105, 0] ∧ Covers 2147483647 [104, 105, 0] ∧
      smallPlatform.newChars 2147483648 .initial = .allocated ∧
      user2System smallPlatform .initial greeting 0 2147483647 =
        .error .badAlloc :=
  ⟨rfl, Machine.separate_onePage _ _, holds_greeting,
    Or.inr (by decide), rfl, user2System_overflows ..⟩

end Nachos.Userprog
