import Nachos.Lib.CString
import Nachos.Lib.Utility
import Mathlib.Logic.Relation

/-!
# The host operating system

With `FILESYS_STUB` the file system hands every request to UNIX.  The host is a
parameter: any functions of a state `World` that the kernel never looks into.
Over it stand the wrappers of `lib/sysdep.cc`, which abort the simulation if the
host reports an error.
-/

namespace Nachos.Stub

open Foundation

inductive OpenFlags where
  /-- `O_RDONLY`. -/
  | readOnly
  /-- `O_RDWR`. -/
  | readWrite
  /-- `O_RDWR|O_CREAT|O_TRUNC`. -/
  | createTruncate
  deriving DecidableEq, Repr

/-- The host system calls.  Names are the characters before the NUL; `read`
also gives the bytes it stored.

`sameName` is what `strcmp(fileName, name[i][j]) == 0` makes of a recorded file
name.  The loop that records it, `name[i][j][index++] = fileName[index]`, leaves
open which of the two indices is read first, and it never stores a NUL, so the
bytes that `strcmp` compares depend on the compiler and on the heap. -/
structure Host (World : Type) where
  openFile : OpenFlags → List Byte → World → Int × World
  read : Int → Int → World → Int × List Byte × World
  write : Int → List Byte → World → Int × World
  lseek : Int → Int → Int → World → Int × World
  close : Int → World → Int × World
  unlink : List Byte → World → Int × World
  getChar : World → Byte × World
  putChar : Byte → World → World
  sameName : List Byte → List Byte → World → Bool

/-- The `ASSERT`s of the wrappers, and a recursion that exhausts the stack. -/
inductive Abort where
  | openForWrite
  | writeFile
  | lseek
  | close
  | endlessRecursion
  deriving DecidableEq, Repr

/-- The host, and the descriptors that the file system opened and has not
closed on it. -/
structure HostState (World : Type) where
  world : World
  opened : List Int

variable {World : Type}

def hostOpen
    (host : Host World) (flags : OpenFlags) (name : List Byte)
    (state : HostState World) : Int × HostState World :=
  let (fd, world) := host.openFile flags (cString name) state.world
  (fd, ⟨world, if 0 ≤ fd then fd :: state.opened else state.opened⟩)

def openForWrite
    (host : Host World) (name : List Byte) (state : HostState World) :
    Except Abort (Int × HostState World) :=
  let (fd, state) := hostOpen host .createTruncate name state
  if 0 ≤ fd then .ok (fd, state) else .error .openForWrite

def openForRead
    (host : Host World) (name : List Byte) (state : HostState World) :
    Int × HostState World :=
  hostOpen host .readOnly name state

def openForReadWrite
    (host : Host World) (name : List Byte) (state : HostState World) :
    Int × HostState World :=
  hostOpen host .readWrite name state

def readPartial
    (host : Host World) (fd : Int) (buffer : List Byte) (nBytes : Int)
    (state : HostState World) : Int × List Byte × HostState World :=
  let (retVal, bytes, world) := host.read fd nBytes state.world
  (retVal, overlay buffer bytes 0, { state with world := world })

def writeFile
    (host : Host World) (fd : Int) (buffer : List Byte) (nBytes : Int)
    (state : HostState World) : Except Abort (HostState World) :=
  let (retVal, world) := host.write fd (buffer.take nBytes.toNat) state.world
  if retVal = nBytes then
    .ok { state with world := world }
  else
    .error .writeFile

def lseek
    (host : Host World) (fd offset whence : Int) (state : HostState World) :
    Except Abort (HostState World) :=
  let (retVal, world) := host.lseek fd offset whence state.world
  if 0 ≤ retVal then .ok { state with world := world } else .error .lseek

def tell (host : Host World) (fd : Int) (state : HostState World) :
    Int × HostState World :=
  let (retVal, world) := host.lseek fd 0 1 state.world
  (retVal, { state with world := world })

def hostClose (host : Host World) (fd : Int) (state : HostState World) :
    Except Abort (HostState World) :=
  let (retVal, world) := host.close fd state.world
  if 0 ≤ retVal then
    .ok ⟨world, state.opened.filter (· ≠ fd)⟩
  else
    .error .close

/-- `Unlink(name)`: the `int` of the host turned into a `bool`. -/
def unlink (host : Host World) (name : List Byte) (state : HostState World) :
    Bool × HostState World :=
  let (retVal, world) := host.unlink (cString name) state.world
  (retVal != 0, { state with world := world })

@[simp]
theorem ok_bind {Result Next : Type}
    (value : Result) (next : Result → Except Abort Next) :
    (Except.ok value >>= next) = next value :=
  rfl

@[simp]
theorem error_bind {Result Next : Type}
    (abort : Abort) (next : Result → Except Abort Next) :
    ((Except.error abort : Except Abort Result) >>= next) = .error abort :=
  rfl

/-! ## Calls that open and close nothing -/

inductive Host.Pass (host : Host World) (world : World) : World → Prop
  | read (fd count : Int) : Pass host world (host.read fd count world).2.2
  | write (fd : Int) (bytes : List Byte) :
      Pass host world (host.write fd bytes world).2
  | lseek (fd offset whence : Int) :
      Pass host world (host.lseek fd offset whence world).2
  | unlink (name : List Byte) : Pass host world (host.unlink name world).2
  | getChar : Pass host world (host.getChar world).2
  | putChar (character : Byte) :
      Pass host world (host.putChar character world)

structure Host.Passes
    (host : Host World) (state state' : HostState World) : Prop where
  opened : state'.opened = state.opened
  world : Relation.ReflTransGen host.Pass state.world state'.world

namespace Host.Passes

variable {host : Host World} {first second third : HostState World}

theorem refl (state : HostState World) : host.Passes state state :=
  ⟨rfl, .refl⟩

theorem trans
    (earlier : host.Passes first second) (later : host.Passes second third) :
    host.Passes first third :=
  ⟨later.opened.trans earlier.opened, earlier.world.trans later.world⟩

theorem single
    {state : HostState World} {world : World}
    (pass : host.Pass state.world world) :
    host.Passes state { state with world := world } :=
  ⟨rfl, .single pass⟩

end Host.Passes

theorem lseek_passes
    {host : Host World} {fd offset whence : Int}
    {state state' : HostState World}
    (returned : lseek host fd offset whence state = .ok state') :
    host.Passes state state' := by
  unfold lseek at returned
  dsimp only at returned
  split_ifs at returned with nonnegative
  cases returned
  exact .single (.lseek fd offset whence)

theorem writeFile_passes
    {host : Host World} {fd nBytes : Int} {buffer : List Byte}
    {state state' : HostState World}
    (returned : writeFile host fd buffer nBytes state = .ok state') :
    host.Passes state state' := by
  unfold writeFile at returned
  dsimp only at returned
  split_ifs at returned with complete
  cases returned
  exact .single (.write fd _)

/-! ## A small UNIX -/

/-- The state of a host with empty files and the directory `"."`. -/
structure SmallWorld where
  next : Int
  live : List Int
  writable : List Int
  directories : List Int
  files : List (List Byte)

def SmallWorld.give (world : SmallWorld) (name : List Byte)
    (flags : OpenFlags) : Int × SmallWorld :=
  (world.next, { world with
    next := world.next + 1
    live := world.next :: world.live
    writable :=
      if flags = .readOnly then world.writable
      else world.next :: world.writable
    directories :=
      if name = [46] then world.next :: world.directories
      else world.directories
    files := if name ∈ world.files then world.files else name :: world.files })

/-- A host to try the file system on: it gives out descriptors in order, opens
`"."` for reading only and cannot read it, and fails on descriptors that are
not open and on negative positions. -/
def smallHost : Host SmallWorld where
  openFile flags name world :=
    if name = [46] then
      if flags = .readOnly then world.give name flags else (-1, world)
    else if flags = .createTruncate ∨ name ∈ world.files then
      world.give name flags
    else
      (-1, world)
  read fd _ world :=
    if fd ∈ world.live ∧ fd ∉ world.directories then
      (0, [], world)
    else
      (-1, [], world)
  write fd bytes world :=
    if fd ∈ world.writable then (bytes.length, world) else (-1, world)
  lseek fd offset _ world :=
    if fd ∈ world.live ∧ 0 ≤ offset then (offset, world) else (-1, world)
  close fd world :=
    if fd ∈ world.live then
      (0, { world with
        live := world.live.filter (· ≠ fd)
        writable := world.writable.filter (· ≠ fd) })
    else
      (-1, world)
  unlink name world :=
    if name ∈ world.files then
      (0, { world with files := world.files.filter (· ≠ name) })
    else
      (-1, world)
  getChar world := (0, world)
  putChar _ world := world
  sameName fileName recorded _ := fileName == recorded

def SmallWorld.initial : SmallWorld :=
  ⟨2, [], [], [], [[97]]⟩

theorem smallHost_openFile
    (flags : OpenFlags) (name : List Byte) (world : SmallWorld) :
    smallHost.openFile flags name world = (-1, world) ∨
      smallHost.openFile flags name world = world.give name flags := by
  unfold smallHost
  dsimp only
  split_ifs <;> simp

end Nachos.Stub
