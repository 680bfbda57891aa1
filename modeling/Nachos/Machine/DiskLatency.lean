import Nachos.Foundation.Transitions
import Nachos.Machine.Disk

/-!
# The latency of the disk

`Disk::ComputeLatency` of `machine/disk.cc`.  The disk turns by one sector in
`RotationTime` ticks.  A request waits for the seek, for the next sector
boundary and for its sector, or finds the sector in the track buffer.
-/

namespace Nachos

open Foundation

namespace Disk

def rotationTime : Int := 500

def seekTime : Int := 500

structure Timing where
  active : Bool
  lastSector : Int
  bufferInit : Int

namespace Timing

def timeToSeek (disk : Timing) (totalTicks newSector : Int) : Int × Int :=
  let newTrack := newSector.tdiv sectorsPerTrack
  let oldTrack := disk.lastSector.tdiv sectorsPerTrack
  let seek := (newTrack - oldTrack).natAbs * seekTime
  let past := (wrap (totalTicks + seek)).tmod rotationTime
  (seek, if 0 < past then rotationTime - past else 0)

end Timing

def moduloDiff (target start : Int) : Int :=
  let targetOffset := target.tmod sectorsPerTrack
  let startOffset := start.tmod sectorsPerTrack
  (targetOffset - startOffset + sectorsPerTrack).tmod sectorsPerTrack

namespace Timing

def timeAfter (disk : Timing) (totalTicks newSector : Int) : Int :=
  let (seek, rotation) := disk.timeToSeek totalTicks newSector
  wrap (wrap (totalTicks + seek) + rotation)

def usesBuffer (disk : Timing) (totalTicks newSector : Int)
    (writing : Bool) : Bool :=
  !writing && (disk.timeToSeek totalTicks newSector).1 == 0 &&
    decide (moduloDiff newSector (disk.bufferInit.tdiv rotationTime) <
      (wrap (disk.timeAfter totalTicks newSector - disk.bufferInit)).tdiv
        rotationTime)

def computeLatency (disk : Timing) (totalTicks newSector : Int)
    (writing : Bool) : Int :=
  if disk.usesBuffer totalTicks newSector writing then
    rotationTime
  else
    let (seek, rotation) := disk.timeToSeek totalTicks newSector
    let timeAfter := disk.timeAfter totalTicks newSector
    seek + (rotation +
      moduloDiff newSector (timeAfter.tdiv rotationTime) * rotationTime) +
      rotationTime

def updateLast (disk : Timing) (totalTicks newSector : Int) : Timing :=
  let (seek, rotate) := disk.timeToSeek totalTicks newSector
  { disk with
    bufferInit :=
      if seek ≠ 0 then wrap (wrap (totalTicks + seek) + rotate)
      else disk.bufferInit
    lastSector := newSector }

/-- `Disk::ReadRequest` and `Disk::WriteRequest` without the transfer, with the
check of `Interrupt::Schedule` and the time at which the interrupt is due. -/
def request (disk : Timing) (totalTicks newSector : Int) (writing : Bool) :
    Except Fault (Timing × Int) := do
  let ticks := disk.computeLatency totalTicks newSector writing
  assertThat (!disk.active) .diskActive
  assertThat (SynchDisk.inRange newSector) .diskRequest
  assertThat (0 < ticks) .scheduleDelay
  return ({ disk.updateLast totalTicks newSector with active := true },
    wrap (totalTicks + ticks))

end Timing

/-! ## Runs -/

structure Clocked where
  disk : Timing
  totalTicks : Int
  due : Int

/-- What happens to the disk.  `CheckIfDue` calls no handler before its time. -/
inductive ClockedEvent where
  /-- Time passes. -/
  | advance (totalTicks : Int)
  | request (newSector : Int) (writing : Bool)
  | callBack

/-- A disk from its creation on, at ticks that are `int`s. -/
def timed : TransitionSystem Clocked ClockedEvent where
  start state := state.disk = ⟨false, 0, 0⟩ ∧ 0 ≤ state.totalTicks ∧
    state.totalTicks < 2 ^ 31
  step state event next :=
    match event with
    | .advance totalTicks =>
      state.totalTicks ≤ totalTicks ∧ totalTicks < 2 ^ 31 ∧
        next = { state with totalTicks := totalTicks }
    | .request newSector writing =>
      state.totalTicks +
          state.disk.computeLatency state.totalTicks newSector writing <
        2 ^ 31 ∧
      ∃ disk due,
        state.disk.request state.totalTicks newSector writing =
          .ok (disk, due) ∧
        next = { state with disk := disk, due := due }
    | .callBack =>
      state.disk.active = true ∧ state.due ≤ state.totalTicks ∧
        next = { state with disk := { state.disk with active := false } }

def underHead (tick : Int) : Int :=
  tick / rotationTime % sectorsPerTrack

def stepEnd (tick : Int) : Int :=
  (tick + rotationTime - 1) / rotationTime * rotationTime

structure Sound (disk : Timing) (totalTicks newSector : Int) (writing : Bool)
    (latency : Int) : Prop where
  atLeast : rotationTime ≤ latency
  atMost : latency ≤ (numTracks - 1) * seekTime + (rotationTime - 1) +
    sectorsPerTrack * rotationTime
  /-- Without the track buffer, the request ends when its sector has passed. -/
  direct : disk.usesBuffer totalTicks newSector writing = false →
    rotationTime ∣ totalTicks + latency ∧
      underHead (totalTicks + latency - 1) = newSector % sectorsPerTrack
  /-- The track buffer is used for a sector of the current track that has passed
  since the buffer was started. -/
  buffered : disk.usesBuffer totalTicks newSector writing = true →
    writing = false ∧
      newSector / sectorsPerTrack = disk.lastSector / sectorsPerTrack ∧
      ∃ begins, disk.bufferInit ≤ begins ∧ rotationTime ∣ begins ∧
        begins + rotationTime ≤ stepEnd totalTicks ∧
        underHead begins = newSector % sectorsPerTrack

/-! ## Ranges -/

theorem tmod_range (number : Int) :
    -32 < number.tmod sectorsPerTrack ∧ number.tmod sectorsPerTrack < 32 :=
  ⟨Int.lt_tmod_of_pos number (by decide), Int.tmod_lt_of_pos number (by decide)⟩

theorem moduloDiff_range {target : Int} (nonnegative : 0 ≤ target) (start : Int) :
    0 ≤ moduloDiff target start ∧ moduloDiff target start ≤ 31 := by
  have targetNonneg := Int.tmod_nonneg sectorsPerTrack nonnegative
  have startRange := tmod_range start
  have range := tmod_range (target.tmod sectorsPerTrack -
    start.tmod sectorsPerTrack + sectorsPerTrack)
  have nonneg : 0 ≤ moduloDiff target start := by
    refine Int.tmod_nonneg _ ?_
    have tracks : (sectorsPerTrack : Int) = 32 := rfl
    omega
  have atMost : moduloDiff target start < 32 := range.2
  exact ⟨nonneg, by omega⟩

theorem moduloDiff_eq
    {target start : Int} (targetNonneg : 0 ≤ target) (startNonneg : 0 ≤ start) :
    moduloDiff target start = (target - start) % 32 := by
  have tracks : (sectorsPerTrack : Int) = 32 := rfl
  unfold moduloDiff
  rw [tracks, Int.tmod_eq_emod_of_nonneg targetNonneg,
    Int.tmod_eq_emod_of_nonneg startNonneg, Int.tmod_eq_emod_of_nonneg (by omega)]
  omega

namespace Timing

variable {disk : Timing} {totalTicks newSector : Int} {writing : Bool}

def OnDisk (sector : Int) : Prop :=
  0 ≤ sector ∧ sector < numSectors

theorem seek_eq
    (old : OnDisk disk.lastSector) (new : OnDisk newSector) :
    (disk.timeToSeek totalTicks newSector).1 =
      (newSector / 32 - disk.lastSector / 32).natAbs * 500 := by
  unfold timeToSeek
  dsimp only
  rw [show (sectorsPerTrack : Int) = 32 from rfl,
    Int.tdiv_eq_ediv_of_nonneg new.1, Int.tdiv_eq_ediv_of_nonneg old.1]
  rfl

theorem seek_range
    (old : OnDisk disk.lastSector) (new : OnDisk newSector) :
    0 ≤ (disk.timeToSeek totalTicks newSector).1 ∧
      (disk.timeToSeek totalTicks newSector).1 ≤ 15500 := by
  obtain ⟨oldNonneg, oldBound⟩ := old
  obtain ⟨newNonneg, newBound⟩ := new
  have sectors : (numSectors : Int) = 1024 := rfl
  rw [seek_eq ⟨oldNonneg, oldBound⟩ ⟨newNonneg, newBound⟩]
  omega

theorem rotation_eq :
    (disk.timeToSeek totalTicks newSector).2 =
      if 0 < (wrap (totalTicks + (disk.timeToSeek totalTicks newSector).1)).tmod
          rotationTime then
        rotationTime - (wrap (totalTicks +
          (disk.timeToSeek totalTicks newSector).1)).tmod rotationTime
      else 0 :=
  rfl

theorem rotation_range :
    0 ≤ (disk.timeToSeek totalTicks newSector).2 ∧
      (disk.timeToSeek totalTicks newSector).2 ≤ 499 := by
  have range := Int.tmod_lt_of_pos (wrap (totalTicks +
    (disk.timeToSeek totalTicks newSector).1)) (show 0 < rotationTime by decide)
  rw [rotation_eq]
  unfold rotationTime at *
  split_ifs <;> omega

theorem computeLatency_cases :
    (disk.usesBuffer totalTicks newSector writing = true ∧
      disk.computeLatency totalTicks newSector writing = 500 ∧
      writing = false ∧ (disk.timeToSeek totalTicks newSector).1 = 0 ∧
      moduloDiff newSector (disk.bufferInit.tdiv 500) <
        (wrap (disk.timeAfter totalTicks newSector - disk.bufferInit)).tdiv
          500) ∨
    (disk.usesBuffer totalTicks newSector writing = false ∧
      disk.computeLatency totalTicks newSector writing =
        (disk.timeToSeek totalTicks newSector).1 +
          ((disk.timeToSeek totalTicks newSector).2 + moduloDiff newSector
            ((disk.timeAfter totalTicks newSector).tdiv 500) * 500) + 500) := by
  unfold computeLatency
  cases uses : disk.usesBuffer totalTicks newSector writing with
  | true =>
    left
    unfold usesBuffer at uses
    rw [Bool.and_eq_true, Bool.and_eq_true, Bool.not_eq_true', beq_iff_eq,
      decide_eq_true_eq] at uses
    exact ⟨rfl, rfl, uses.1.1, uses.1.2, uses.2⟩
  | false => exact Or.inr ⟨rfl, rfl⟩

/-- The seek and the rotation are part of every latency, also where the clock
would wrap. -/
theorem latency_range
    (old : OnDisk disk.lastSector) (new : OnDisk newSector) :
    (disk.timeToSeek totalTicks newSector).1 +
        (disk.timeToSeek totalTicks newSector).2 ≤
      disk.computeLatency totalTicks newSector writing ∧
    500 ≤ disk.computeLatency totalTicks newSector writing ∧
    disk.computeLatency totalTicks newSector writing ≤
      31 * 500 + 499 + 32 * 500 := by
  obtain ⟨seekNonneg, seekBound⟩ := @seek_range disk totalTicks newSector old new
  obtain ⟨rotationNonneg, rotationBound⟩ :=
    @rotation_range disk totalTicks newSector
  have turn := moduloDiff_range new.1
    ((disk.timeAfter totalTicks newSector).tdiv 500)
  rcases @computeLatency_cases disk totalTicks newSector writing with
    ⟨-, latency, -, noSeek, -⟩ | ⟨-, latency⟩
  · rw [latency]
    omega
  · rw [latency]
    omega

theorem timeAfter_eq
    (now : 0 ≤ totalTicks) (old : OnDisk disk.lastSector)
    (new : OnDisk newSector)
    (before : totalTicks + (disk.timeToSeek totalTicks newSector).1 +
      (disk.timeToSeek totalTicks newSector).2 < 2 ^ 31) :
    disk.timeAfter totalTicks newSector =
        totalTicks + (disk.timeToSeek totalTicks newSector).1 +
          (disk.timeToSeek totalTicks newSector).2 ∧
      disk.timeAfter totalTicks newSector =
        stepEnd (totalTicks + (disk.timeToSeek totalTicks newSector).1) := by
  have seekNonneg := (@seek_range disk totalTicks newSector old new).1
  have rotationNonneg := (@rotation_range disk totalTicks newSector).1
  have rotation := @rotation_eq disk totalTicks newSector
  have isTime : disk.timeAfter totalTicks newSector =
      wrap (wrap (totalTicks + (disk.timeToSeek totalTicks newSector).1) +
        (disk.timeToSeek totalTicks newSector).2) := rfl
  generalize disk.timeToSeek totalTicks newSector = seeks at *
  rw [wrap_eq_self (by omega) (by omega)] at rotation
  rw [wrap_eq_self (show -2 ^ 31 ≤ totalTicks + seeks.1 by omega) (by omega),
    wrap_eq_self (by omega) (by omega)] at isTime
  refine ⟨isTime, ?_⟩
  rw [isTime, rotation, Int.tmod_eq_emod_of_nonneg (by omega)]
  unfold stepEnd rotationTime
  split_ifs <;> omega

structure Prepared (disk : Timing) (totalTicks : Int) : Prop where
  now : 0 ≤ totalTicks
  onDisk : OnDisk disk.lastSector
  boundary : rotationTime ∣ disk.bufferInit
  bufferNonneg : 0 ≤ disk.bufferInit
  bufferBefore : disk.bufferInit ≤ totalTicks

theorem Prepared.timeAfter
    (prepared : disk.Prepared totalTicks) (new : OnDisk newSector)
    (before : totalTicks + disk.computeLatency totalTicks newSector writing <
      2 ^ 31) :
    disk.timeAfter totalTicks newSector =
        totalTicks + (disk.timeToSeek totalTicks newSector).1 +
          (disk.timeToSeek totalTicks newSector).2 ∧
      disk.timeAfter totalTicks newSector =
        stepEnd (totalTicks + (disk.timeToSeek totalTicks newSector).1) := by
  have range := (@latency_range disk totalTicks newSector writing
    prepared.onDisk new).1
  exact timeAfter_eq prepared.now prepared.onDisk new (by omega)

theorem Prepared.direct
    (prepared : disk.Prepared totalTicks) (new : OnDisk newSector)
    (before : totalTicks + disk.computeLatency totalTicks newSector writing <
      2 ^ 31)
    (unused : disk.usesBuffer totalTicks newSector writing = false) :
    rotationTime ∣ totalTicks +
        disk.computeLatency totalTicks newSector writing ∧
      underHead (totalTicks +
          disk.computeLatency totalTicks newSector writing - 1) =
        newSector % sectorsPerTrack := by
  obtain ⟨isTime, atEnd⟩ := prepared.timeAfter new before
  have seekNonneg := (@seek_range disk totalTicks newSector
    prepared.onDisk new).1
  have rotationNonneg := (@rotation_range disk totalTicks newSector).1
  have now := prepared.now
  rcases @computeLatency_cases disk totalTicks newSector writing with
    ⟨used, -⟩ | ⟨-, latency⟩
  · rw [used] at unused
    cases unused
  · rw [Int.tdiv_eq_ediv_of_nonneg (by omega),
      moduloDiff_eq new.1 (by omega)] at latency
    rw [latency]
    unfold stepEnd underHead rotationTime at *
    rw [show (sectorsPerTrack : Int) = 32 from rfl]
    omega

theorem Prepared.buffered
    (prepared : disk.Prepared totalTicks) (new : OnDisk newSector)
    (before : totalTicks + disk.computeLatency totalTicks newSector writing <
      2 ^ 31)
    (used : disk.usesBuffer totalTicks newSector writing = true) :
    writing = false ∧
      newSector / sectorsPerTrack = disk.lastSector / sectorsPerTrack ∧
      ∃ begins, disk.bufferInit ≤ begins ∧ rotationTime ∣ begins ∧
        begins + rotationTime ≤ stepEnd totalTicks ∧
        underHead begins = newSector % sectorsPerTrack := by
  obtain ⟨isTime, atEnd⟩ := prepared.timeAfter new before
  obtain ⟨rotationNonneg, rotationBound⟩ :=
    @rotation_range disk totalTicks newSector
  obtain ⟨now, onDisk, boundary, bufferNonneg, bufferBefore⟩ := prepared
  have seek := @seek_eq disk totalTicks newSector onDisk new
  rcases @computeLatency_cases disk totalTicks newSector writing with
    ⟨-, latency, reading, noSeek, passed⟩ | ⟨unused, -⟩
  · rw [noSeek] at seek
    rw [noSeek, Int.add_zero] at isTime atEnd
    rw [wrap_eq_self (by omega) (by omega), Int.tdiv_eq_ediv_of_nonneg
      bufferNonneg, Int.tdiv_eq_ediv_of_nonneg (by omega),
      moduloDiff_eq new.1 (by omega)] at passed
    unfold underHead rotationTime at *
    rw [show (sectorsPerTrack : Int) = 32 from rfl]
    refine ⟨reading, by omega, disk.bufferInit +
      (newSector - disk.bufferInit / 500) % 32 * 500, ?_, ?_, ?_, ?_⟩
    all_goals omega
  · rw [used] at unused
    cases unused

theorem Prepared.sound
    (prepared : disk.Prepared totalTicks) (new : OnDisk newSector)
    (before : totalTicks + disk.computeLatency totalTicks newSector writing <
      2 ^ 31) :
    Sound disk totalTicks newSector writing
      (disk.computeLatency totalTicks newSector writing) := by
  obtain ⟨-, atLeast, atMost⟩ := @latency_range disk totalTicks newSector writing
    prepared.onDisk new
  exact ⟨atLeast, atMost, prepared.direct new before,
    prepared.buffered new before⟩

theorem request_eq_ok
    {next : Timing} {due : Int}
    (requested : disk.request totalTicks newSector writing = .ok (next, due)) :
    disk.active = false ∧ OnDisk newSector ∧
      next = { disk.updateLast totalTicks newSector with active := true } ∧
      due = wrap (totalTicks +
        disk.computeLatency totalTicks newSector writing) := by
  obtain ⟨_, isIdle, requested⟩ := exists_of_bind_eq_ok requested
  obtain ⟨_, inRange, requested⟩ := exists_of_bind_eq_ok requested
  obtain ⟨_, _, requested⟩ := exists_of_bind_eq_ok requested
  cases requested
  have new : 0 ≤ newSector ∧ newSector < numSectors := of_assertThat inRange
  refine ⟨?_, new, rfl, rfl⟩
  cases active : disk.active with
  | false => rfl
  | true =>
    rw [active] at isIdle
    cases isIdle

theorem request_eq
    (idle : disk.active = false) (new : OnDisk newSector)
    (positive : 0 < disk.computeLatency totalTicks newSector writing) :
    disk.request totalTicks newSector writing =
      .ok ({ disk.updateLast totalTicks newSector with active := true },
        wrap (totalTicks +
          disk.computeLatency totalTicks newSector writing)) := by
  have inRange : SynchDisk.inRange newSector = true := decide_eq_true new
  unfold request
  simp only [idle, inRange, positive, decide_true, Bool.not_false,
    assertThat_true, ok_bind]
  rfl

theorem Prepared.updateLast
    (prepared : disk.Prepared totalTicks) (new : OnDisk newSector)
    (before : totalTicks + disk.computeLatency totalTicks newSector writing <
      2 ^ 31) :
    rotationTime ∣ (disk.updateLast totalTicks newSector).bufferInit ∧
      0 ≤ (disk.updateLast totalTicks newSector).bufferInit ∧
      (disk.updateLast totalTicks newSector).bufferInit ≤
        totalTicks + disk.computeLatency totalTicks newSector writing := by
  obtain ⟨isTime, atEnd⟩ := prepared.timeAfter new before
  obtain ⟨contained, atLeast, -⟩ := @latency_range disk totalTicks newSector
    writing prepared.onDisk new
  have seekNonneg := (@seek_range disk totalTicks newSector
    prepared.onDisk new).1
  have rotationNonneg := (@rotation_range disk totalTicks newSector).1
  obtain ⟨now, onDisk, boundary, bufferNonneg, bufferBefore⟩ := prepared
  have updated : (disk.updateLast totalTicks newSector).bufferInit =
      if (disk.timeToSeek totalTicks newSector).1 ≠ 0 then
        disk.timeAfter totalTicks newSector
      else disk.bufferInit := rfl
  rw [updated]
  split_ifs
  · unfold stepEnd rotationTime at atEnd
    unfold rotationTime
    omega
  · exact ⟨boundary, bufferNonneg, by omega⟩

end Timing

/-! ## Every run -/

structure Clocked.Good (state : Clocked) : Prop where
  now : 0 ≤ state.totalTicks
  onDisk : Timing.OnDisk state.disk.lastSector
  boundary : rotationTime ∣ state.disk.bufferInit
  bufferNonneg : 0 ≤ state.disk.bufferInit
  busy : state.disk.active = true → state.disk.bufferInit ≤ state.due
  idle : state.disk.active = false →
    state.disk.bufferInit ≤ state.totalTicks

variable {state next : Clocked}

theorem Clocked.Good.prepared
    (good : state.Good) (idle : state.disk.active = false) :
    state.disk.Prepared state.totalTicks :=
  ⟨good.now, good.onDisk, good.boundary, good.bufferNonneg, good.idle idle⟩

theorem Clocked.Good.request
    (good : state.Good) {newSector : Int} {writing : Bool}
    (before : state.totalTicks +
      state.disk.computeLatency state.totalTicks newSector writing < 2 ^ 31)
    {disk : Timing} {due : Int}
    (requested : state.disk.request state.totalTicks newSector writing =
      .ok (disk, due)) :
    Clocked.Good ⟨disk, state.totalTicks, due⟩ := by
  obtain ⟨idle, new, rfl, rfl⟩ := Timing.request_eq_ok requested
  have prepared := good.prepared idle
  obtain ⟨boundary, bufferNonneg, bufferBefore⟩ := prepared.updateLast new before
  have positive := (@Timing.latency_range state.disk state.totalTicks newSector
    writing good.onDisk new).2.1
  have now := good.now
  refine ⟨good.now, new, boundary, bufferNonneg, fun _ => ?_,
    fun impossible => (by cases impossible)⟩
  change _ ≤ wrap _
  rw [wrap_eq_self (by omega) before]
  exact bufferBefore

theorem good_of_reachable (reachable : timed.Reachable state) : state.Good := by
  refine reachable.invariant ?_ ?_
  · rintro ⟨disk, totalTicks, due⟩ ⟨rfl, now, -⟩
    have first : Timing.OnDisk 0 := ⟨by decide, by decide⟩
    exact ⟨now, first, ⟨0, rfl⟩, Int.le_refl 0,
      fun impossible => (by cases impossible), fun _ => now⟩
  · intro source event target good taken
    cases event with
    | advance totalTicks =>
      obtain ⟨later, -, rfl⟩ := taken
      exact ⟨good.now.trans later, good.onDisk, good.boundary,
        good.bufferNonneg, good.busy, fun idle => (good.idle idle).trans later⟩
    | request newSector writing =>
      obtain ⟨before, disk, due, requested, rfl⟩ := taken
      exact good.request before requested
    | callBack =>
      obtain ⟨active, isDue, rfl⟩ := taken
      exact ⟨good.now, good.onDisk, good.boundary, good.bufferNonneg,
        fun impossible => (by cases impossible),
        fun _ => (good.busy active).trans isDue⟩

/-- Every request of a run has a sound latency, and is accepted. -/
theorem latency_sound
    (reachable : timed.Reachable state) (idle : state.disk.active = false)
    {newSector : Int} (new : Timing.OnDisk newSector) (writing : Bool)
    (before : state.totalTicks +
      state.disk.computeLatency state.totalTicks newSector writing < 2 ^ 31) :
    Sound state.disk state.totalTicks newSector writing
        (state.disk.computeLatency state.totalTicks newSector writing) ∧
      ∃ disk, state.disk.request state.totalTicks newSector writing =
        .ok (disk, state.totalTicks +
          state.disk.computeLatency state.totalTicks newSector writing) := by
  have good := good_of_reachable reachable
  have positive := (@Timing.latency_range state.disk state.totalTicks newSector
    writing good.onDisk new).2.1
  have now := good.now
  refine ⟨(good.prepared idle).sound new before, ?_⟩
  rw [Timing.request_eq idle new (by omega), wrap_eq_self (by omega) before]
  exact ⟨_, rfl⟩

/-- Sector 40 is read one tick after the creation of the disk.  Sector 36 of the
same track is then in the track buffer. -/
theorem latency_sound_buffered :
    Sound ⟨false, 0, 0⟩ 1 40 false 4499 ∧
      Timing.usesBuffer ⟨false, 40, 1000⟩ 4600 36 false = true ∧
      Sound ⟨false, 40, 1000⟩ 4600 36 false 500 := by
  have starting : timed.Reachable ⟨⟨false, 0, 0⟩, 1, 0⟩ :=
    .start ⟨rfl, by decide, by decide⟩
  have requested : timed.step ⟨⟨false, 0, 0⟩, 1, 0⟩ (.request 40 false)
      ⟨⟨true, 40, 1000⟩, 1, 4500⟩ := ⟨by decide, _, _, rfl, rfl⟩
  have advanced : timed.step ⟨⟨true, 40, 1000⟩, 1, 4500⟩ (.advance 4600)
      ⟨⟨true, 40, 1000⟩, 4600, 4500⟩ := ⟨by decide, by decide, rfl⟩
  have called : timed.step ⟨⟨true, 40, 1000⟩, 4600, 4500⟩ .callBack
      ⟨⟨false, 40, 1000⟩, 4600, 4500⟩ := ⟨rfl, by decide, rfl⟩
  have idle := ((starting.step requested).step advanced).step called
  exact ⟨(latency_sound starting rfl ⟨by decide, by decide⟩ false
      (by decide)).1, by decide,
    (latency_sound idle rfl ⟨by decide, by decide⟩ false (by decide)).1⟩

end Disk

end Nachos
