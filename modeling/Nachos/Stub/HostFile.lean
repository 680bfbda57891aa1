import Nachos.Stub.FileSystem

/-!
# A file of the host

What the kernel may expect of a descriptor that is open on a regular file, if
the host transfers full counts: `lseek` sets the position, `write` replaces
bytes from there on, and `read` gives the bytes from there up to the end of the
file.
-/

namespace Nachos.Stub

open Foundation

variable {World : Type}

/-- The contents of a file after a `write`.  Bytes between the end of the file
and the position become zeros; writing nothing changes nothing. -/
def written (contents : List Byte) (position : Nat) (data : List Byte) :
    List Byte :=
  if data = [] then
    contents
  else
    window contents 0 position ++ data ++
      contents.drop (position + data.length)

theorem slice_written (contents : List Byte) (position : Nat)
    (data : List Byte) :
    slice (written contents position data) position data.length = data := by
  unfold written
  split_ifs with nothing
  · rw [nothing]
    exact List.take_zero
  · have start : (window contents 0 position).length = position :=
      length_window contents 0 position
    unfold slice
    rw [List.append_assoc, List.drop_append_of_le_length start.ge,
      List.drop_of_length_le start.le, List.nil_append, List.take_left]

/-- A regular file behind descriptor `fd`, at positions that fit in an `int`. -/
structure HostFile (host : Host World) (fd : Int) where
  /-- The descriptor is open on the file, for reading and writing. -/
  valid : World → Prop
  contents : World → List Byte
  position : World → Nat
  lseek : ∀ {world : World} (offset : Nat), valid world → offset < 2 ^ 31 →
    ∃ next, host.lseek fd offset 0 world = (↑offset, next) ∧ valid next ∧
      contents next = contents world ∧ position next = offset
  write : ∀ {world : World} (data : List Byte), valid world →
    position world + data.length < 2 ^ 31 →
    ∃ next, host.write fd data world = (↑data.length, next) ∧ valid next ∧
      contents next = written (contents world) (position world) data
  read : ∀ {world : World} (count : Nat), valid world →
    position world + count < 2 ^ 31 →
    ∃ next, host.read fd count world =
        (↑(slice (contents world) (position world) count).length,
          slice (contents world) (position world) count, next) ∧
      valid next ∧ contents next = contents world

namespace HostFile

variable {host : Host World} {fd : Int} (file : HostFile host fd)

theorem openFile_write
    {state : HostState World} (valid : file.valid state.world)
    {offset count : Nat} (source : List Byte)
    (enough : count ≤ source.length) (fits : offset + count < 2 ^ 31) :
    ∃ world, (OpenFile.mk fd offset).write host source count state =
        .ok (count, ⟨fd, ↑(offset + count)⟩, { state with world := world }) ∧
      file.valid world ∧
      file.contents world =
        written (file.contents state.world) offset (source.take count) := by
  obtain ⟨middle, sought, middleValid, sameContents, atOffset⟩ :=
    file.lseek offset valid (by omega)
  have taken : (source.take count).length = count :=
    List.length_take_of_le enough
  obtain ⟨world, wrote, nextValid, stored⟩ :=
    file.write (source.take count) middleValid (by omega)
  rw [taken] at wrote
  rw [sameContents, atOffset] at stored
  refine ⟨world, ?_, nextValid, stored⟩
  have moved : wrap (↑offset + ↑count) = ↑(offset + count) := wrap_natCast fits
  simp only [OpenFile.write, OpenFile.writeAt, Stub.lseek, sought,
    Int.natCast_nonneg, if_true, ok_bind, writeFile, Int.toNat_natCast, wrote,
    moved, pure, Except.pure]

theorem openFile_readAt
    {state : HostState World} (valid : file.valid state.world)
    (currentOffset : Int) {offset : Nat} (into : List Byte) {count : Nat}
    {bytes : List Byte} (fits : offset + count < 2 ^ 31)
    (held : slice (file.contents state.world) offset count = bytes) :
    ∃ world, (OpenFile.mk fd currentOffset).readAt host into count offset
        state =
        .ok (bytes.length, overlay into bytes 0, { state with world := world }) ∧
      file.valid world ∧ file.contents world = file.contents state.world := by
  obtain ⟨middle, sought, middleValid, sameContents, atOffset⟩ :=
    file.lseek offset valid (by omega)
  obtain ⟨world, wasRead, nextValid, kept⟩ :=
    file.read count middleValid (by omega)
  rw [sameContents, atOffset, held] at wasRead
  refine ⟨world, ?_, nextValid, kept.trans sameContents⟩
  simp only [OpenFile.readAt, Stub.lseek, sought, Int.natCast_nonneg, if_true,
    ok_bind, readPartial, wasRead, pure, Except.pure]

theorem openFile_read
    {state : HostState World} (valid : file.valid state.world)
    {offset : Nat} (into : List Byte) {count : Nat} {bytes : List Byte}
    (fits : offset + count < 2 ^ 31)
    (held : slice (file.contents state.world) offset count = bytes) :
    ∃ world, (OpenFile.mk fd offset).read host into count state =
        .ok (bytes.length, overlay into bytes 0,
          ⟨fd, ↑(offset + bytes.length)⟩, { state with world := world }) ∧
      file.valid world ∧ file.contents world = file.contents state.world := by
  obtain ⟨world, wasRead, nextValid, kept⟩ :=
    file.openFile_readAt valid offset into fits held
  refine ⟨world, ?_, nextValid, kept⟩
  have short : bytes.length ≤ count := by
    rw [← held]
    exact List.length_take_le _ _
  have moved : wrap (↑offset + ↑bytes.length) = ↑(offset + bytes.length) :=
    wrap_natCast (by omega)
  simp only [OpenFile.read, wasRead, ok_bind, moved, pure, Except.pure]

end HostFile

/-! ## Short reads -/

/-- A file behind descriptor `fd` of which `read` may give fewer bytes than it
is asked for, or fail.  `lseek` may fail too. -/
structure ReadableFile (host : Host World) (fd : Int) where
  valid : World → Prop
  contents : World → List Byte
  position : World → Nat
  lseek : ∀ {world : World} (offset : Int), valid world →
    (host.lseek fd offset 0 world).1 < 0 ∨
      (0 ≤ offset ∧ ∃ next, host.lseek fd offset 0 world = (offset, next) ∧
        valid next ∧ contents next = contents world ∧
        position next = offset.toNat)
  read : ∀ {world : World} (count : Nat), valid world →
    ∃ result bytes next, host.read fd count world = (result, bytes, next) ∧
      ((result = -1 ∧ bytes = []) ∨
        (result = bytes.length ∧ bytes.length ≤ count ∧
          slice (contents world) (position world) bytes.length = bytes))

theorem ReadableFile.of_lseek
    {host : Host World} {fd offset : Int} (file : ReadableFile host fd)
    {state sought : HostState World} (valid : file.valid state.world)
    (seeks : Stub.lseek host fd offset 0 state = .ok sought) :
    file.valid sought.world ∧
      file.contents sought.world = file.contents state.world ∧
      file.position sought.world = offset.toNat := by
  unfold Stub.lseek at seeks
  rcases file.lseek offset valid with
    failed | ⟨nonneg, next, succeeded, nextValid, sameContents, atOffset⟩
  · dsimp only at seeks
    rw [if_neg (Int.not_le.mpr failed)] at seeks
    cases seeks
  · rw [succeeded] at seeks
    dsimp only at seeks
    rw [if_pos nonneg] at seeks
    cases seeks
    exact ⟨nextValid, sameContents, atOffset⟩

/-! ## A host with one file -/

structure OneFile where
  contents : List Byte
  position : Nat

def oneFileHost : Host OneFile where
  openFile _ _ world := (2, { world with position := 0 })
  read _ count world :=
    let bytes := slice world.contents world.position count.toNat
    (bytes.length, bytes,
      { world with position := world.position + bytes.length })
  write _ data world :=
    (data.length, ⟨written world.contents world.position data,
      world.position + data.length⟩)
  lseek _ offset _ world := (offset, { world with position := offset.toNat })
  close _ world := (0, world)
  unlink _ world := (-1, world)
  getChar world := (0, world)
  putChar _ world := world
  sameName fileName recorded _ := fileName == recorded

def oneFile (fd : Int) : HostFile oneFileHost fd where
  valid _ := True
  contents := OneFile.contents
  position := OneFile.position
  lseek _ _ _ := ⟨_, rfl, trivial, rfl, rfl⟩
  write _ _ _ := ⟨_, rfl, trivial, rfl⟩
  read _ _ _ := ⟨_, rfl, trivial, rfl⟩

def oneReadableFile (fd : Int) : ReadableFile oneFileHost fd where
  valid _ := True
  contents := OneFile.contents
  position := OneFile.position
  lseek offset _ := by
    by_cases negative : offset < 0
    · exact Or.inl negative
    · exact Or.inr ⟨by omega, _, rfl, trivial, rfl, rfl⟩
  read count _ := by
    refine ⟨_, _, _, rfl, Or.inr ⟨rfl, List.length_take_le _ _, ?_⟩⟩
    simp [slice]

end Nachos.Stub
