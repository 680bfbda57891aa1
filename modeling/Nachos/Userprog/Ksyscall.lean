import Nachos.Userprog.Copies

/-!
# Numbers and characters on the console

The part of `userprog/ksyscall.h` that is not about files.  `SysReadNum` keeps
the line in the array `_numberBuffer`; a character that does not fit there, and
a scan that finds no NUL in it, are faults of the model.
-/

namespace Nachos.Userprog

open Foundation

variable {World : Type}

def sysAdd (op1 op2 : Int) : Int :=
  wrap (op1 + op2)

def sysRandomNum (platform : Platform World) (world : World) : Int × World :=
  let (number, world) := platform.rand world
  (wrap (number + 1), world)

def maxNumLen : Nat := 11

def numberBufferSize : Nat := maxNumLen + 2

def charAt (buffer : List Byte) (index : Int) : Except Fault Byte :=
  if 0 ≤ index then
    match buffer[index.toNat]? with
    | some character => .ok character
    | none => .error .outOfBounds
  else
    .error .outOfBounds

/-- What `strcmp` and `strlen` see of `_numberBuffer`. -/
def scanBuffer (buffer : List Byte) : Except Fault (List Byte) :=
  if 0 ∈ buffer then .ok (cString buffer) else .error .outOfBounds

/-- The loop of `checkNumString`; `s` points at `buffer[start]`. -/
def checkDigits (buffer : List Byte) (start integer len : Int) :
    Except Fault Bool :=
  if 0 < integer then do
    let character ← charAt buffer (start + (len - 1))
    if character.toInt - 48 ≠ integer % 10 then
      return false
    else
      checkDigits buffer start (integer / 10) (len - 1)
  else
    return len == 0
termination_by integer.toNat
decreasing_by omega

def checkNumString (integer : Int) (buffer : List Byte) :
    Except Fault Bool := do
  let text ← scanBuffer buffer
  if integer = 0 then
    return text == [48]
  else if integer < 0 then
    if buffer.headD 0 ≠ 45 then
      return false
    else
      checkDigits buffer 1 (wrap (-integer)) (text.length - 1)
  else
    checkDigits buffer 0 integer text.length

def readLine (host : Stub.Host World) : Nat → World →
    Except Fault (List Byte × World)
  | 0, world =>
    let (character, world) := host.getChar world
    if character = 10 then .ok ([], world) else .error .outOfBounds
  | room + 1, world =>
    let (character, world) := host.getChar world
    if character = 10 then
      .ok ([], world)
    else do
      let (characters, world) ← readLine host room world
      return (character :: characters, world)

def readDigits : List Byte → Int → Option Int
  | [], num => some num
  | temp :: rest, num =>
    if temp.toInt < 48 ∨ 57 < temp.toInt then
      none
    else
      readDigits rest (wrap (num * 10 + (temp.toInt - 48)))

def minText : List Byte :=
  [45, 50, 49, 52, 55, 52, 56, 51, 54, 52, 56]

def parseNum (buffer : List Byte) : Except Fault Int := do
  let text ← scanBuffer buffer
  if text = minText then
    return -2 ^ 31
  else if maxNumLen ≤ text.length then
    return 0
  else
    let nega := buffer.headD 0 == 45
    match readDigits (if nega then text.tail else text) 0 with
    | none => return 0
    | some num =>
      let num := if nega then wrap (-num) else num
      if ← checkNumString num buffer then return num else return 0

def sysReadNum (host : Stub.Host World) (world : World) :
    Except Fault (Int × World) := do
  let (line, world) ← readLine host numberBufferSize world
  let num ← parseNum (line ++ List.replicate (numberBufferSize - line.length) 0)
  return (num, world)

def putChars (host : Stub.Host World) (characters : List Byte) (world : World) :
    World :=
  characters.foldl (fun world character => host.putChar character world) world

def storeDigits (num : Int) (n : Nat) : Except Fault (List Byte) :=
  if 0 < num then
    if n < numberBufferSize then do
      let digits ← storeDigits (num / 10) (n + 1)
      return BitVec.ofInt 8 (num % 10) :: digits
    else
      .error .outOfBounds
  else
    .ok []
termination_by num.toNat
decreasing_by omega

def sysPrintNum (host : Stub.Host World) (num : Int) (world : World) :
    Except Fault World :=
  if num = 0 then
    .ok (putChars host [48] world)
  else if num = -2 ^ 31 then
    .ok (putChars host minText world)
  else do
    let digits ← storeDigits num.natAbs 0
    let characters := (digits.map (· + 48)).reverse
    return putChars host
      (if num < 0 then 45 :: characters else characters) world

end Nachos.Userprog
