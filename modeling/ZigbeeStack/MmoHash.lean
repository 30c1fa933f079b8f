import ZigbeeStack.CcmStar

/-! The Matyas-Meyer-Oseas hash over a cipher, given as a function of its key and a block. -/
namespace ZigbeeStack.Security

structure MMOHash where
  hash : Block
  buffer : Block
  filled : Fin 16
  length : UInt64

namespace MMOHash

def new : MMOHash := ⟨Vector.replicate 16 0, Vector.replicate 16 0, unfilled, 0⟩

variable (cipher : Block → Block → Block)

def processBlock (mmo : MMOHash) : MMOHash :=
  { mmo with
    hash := Vector.zipWith (· ^^^ ·) (cipher mmo.hash mmo.buffer) mmo.buffer
    buffer := Vector.replicate 16 0
    filled := unfilled }

def inputByte (mmo : MMOHash) (byte : UInt8) : MMOHash :=
  let buffer := mmo.buffer.set mmo.filled byte
  if h : mmo.filled.val + 1 = 16 then processBlock cipher { mmo with buffer }
  else { mmo with buffer, filled := ⟨mmo.filled.val + 1, by omega⟩ }

def input (mmo : MMOHash) (data : List UInt8) : MMOHash :=
  let mmo := data.foldl (inputByte cipher) mmo
  { mmo with length := mmo.length + len data }

def overlayLength (lengthInBits : UInt64) : Int → List UInt8 → List UInt8
  | _, [] => []
  | shift, byte :: padding =>
    let shift := shift - 8
    let byte := if shift < 64 ∧ shift > -8 then
        byte ||| ((lengthInBits >>> UInt64.ofNat shift.toNat) &&& 0xFF).toUInt8
      else byte
    byte :: overlayLength lengthInBits shift padding

/-- The hash, `none` where an assertion fails. -/
def fixedResult (mmo : MMOHash) : Option Block :=
  let paddingBuffer : List UInt8 := 0x80 :: List.replicate 31 0
  let lengthInBits := mmo.length * 8
  let fitsSmallSuffix := lengthInBits >>> 16 = 0
  let fitsBigSuffix := lengthInBits >>> 32 = 0
  if ¬ fitsBigSuffix then none
  else
    let paddingBitsRequired := 1 + if fitsSmallSuffix then 16 else 16 * 3
    let paddingBytesRequired := (paddingBitsRequired + 7) / 8
    let paddingBytes := 16 - mmo.filled.val
    let paddingBytes :=
      if paddingBytes < paddingBytesRequired then paddingBytes + 16 else paddingBytes
    let shift : Int := paddingBytes * 8
    let shift := if fitsSmallSuffix then shift else shift - 8
    let padding := overlayLength lengthInBits shift (paddingBuffer.take paddingBytes)
    let mmo := input cipher mmo padding
    if mmo.filled = unfilled then some mmo.hash else none

def digest (message : List UInt8) : Option Block := fixedResult cipher (input cipher new message)

end MMOHash

end ZigbeeStack.Security
