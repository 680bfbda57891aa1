import Nachos.Filesys.OpenFile
import Nachos.Lib.Bitmap

/-!
# Bitmaps stored in a file

`PersistentBitmap` of `filesys/pbitmap.cc`: the words of a bitmap, read from
and written to a file as they lie in memory.
-/

namespace Nachos

open Foundation

namespace PersistentBitmap

def toBytes (bitmap : Bitmap) : List Byte :=
  encodeWords bitmap.map

def ofBytes (numBits : Nat) (bytes : List Byte) : Bitmap where
  numBits := numBits
  map := window (decodeWords bytes) 0 ((numBits + 31) / 32)
  numWords_eq := length_window _ _ _

def fetch
    (file : OpenFile) (disk : DiskImage) (junk : Junk) (numItems : Nat) :
    Except Fault Bitmap := do
  let bitmap ← Bitmap.create numItems
  let (_, bytes) ←
    file.readAt disk junk (toBytes bitmap) 0
      ((4 * bitmap.map.length : Nat) : Int) 0
  return ofBytes numItems bytes

def writeBack
    (bitmap : Bitmap) (file : OpenFile) (disk : DiskImage)
    (junk : Nat → Junk) : Except Fault DiskImage := do
  let (_, disk) ←
    file.writeAt disk junk (toBytes bitmap)
      ((4 * bitmap.map.length : Nat) : Int) 0
  return disk

theorem length_toBytes (bitmap : Bitmap) :
    (toBytes bitmap).length = 4 * bitmap.map.length :=
  length_encodeWords bitmap.map

theorem ofBytes_toBytes (bitmap : Bitmap) :
    ofBytes bitmap.numBits (toBytes bitmap) = bitmap := by
  obtain ⟨numBits, map, numWords⟩ := bitmap
  have whole : window map 0 ((numBits + 31) / 32) = map := by
    rw [window_eq_slice (by omega), ← numWords, slice_full]
  simp only [ofBytes, toBytes, decodeWords_encodeWords, whole]

theorem fetch_spec
    {file : OpenFile} (wellFormed : file.hdr.WellFormed)
    {numItems : Nat} (positive : 0 < numItems)
    (whole : 4 * ((numItems + 31) / 32) = file.hdr.length)
    (disk : DiskImage) (junk : Junk) :
    fetch file disk junk numItems =
      .ok (ofBytes numItems (OpenFile.fileBytes disk file.hdr)) := by
  obtain ⟨bitmap, created, sizeEq, _⟩ := Bitmap.create_spec positive
  have wordCount : 4 * bitmap.map.length = file.hdr.length := by
    rw [bitmap.numWords_eq, sizeEq, whole]
  unfold fetch
  rw [created, ok_bind,
    OpenFile.readAt_whole wellFormed disk junk wordCount
      (length_toBytes bitmap)]
  rfl

theorem writeBack_spec
    (bitmap : Bitmap) {file : OpenFile}
    (wellFormed : file.hdr.WellFormed) (nodup : file.hdr.sectors.Nodup)
    (whole : 4 * ((bitmap.numBits + 31) / 32) = file.hdr.length)
    (disk : DiskImage) (junk : Nat → Junk) :
    ∃ disk',
      writeBack bitmap file disk junk = .ok disk' ∧
        (∀ sector, sector ∉ file.hdr.sectors → disk' sector = disk sector) ∧
        ofBytes bitmap.numBits (OpenFile.fileBytes disk' file.hdr) =
          bitmap := by
  obtain ⟨disk', written, frame, bytes⟩ :=
    OpenFile.writeAt_whole wellFormed nodup disk junk
      (by rw [bitmap.numWords_eq, whole]) (length_toBytes bitmap)
  refine ⟨disk', ?_, frame, ?_⟩
  · unfold writeBack
    rw [written]
    rfl
  · rw [bytes, ofBytes_toBytes]

end PersistentBitmap

end Nachos
