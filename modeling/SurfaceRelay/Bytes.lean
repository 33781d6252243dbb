/-! Bytes in writing.

Up to a limit bytes are written out, two lower-case hexadecimal digits each. Longer
data is written as its length and a 64-bit hash, which is the FNV-1a hash: each byte is
mixed in by exclusive or, and the result multiplied by a prime modulo 2^64. -/
namespace SurfaceRelay.Bytes

/-- The digits of a number in base sixteen. -/
def hexDigits (n : Nat) : String := String.ofList (Nat.toDigits 16 n)

/-- A number as a hexadecimal literal. -/
def hexLiteral (n : Nat) : String := "0x" ++ hexDigits n

/-- The two digits of a byte. -/
def byteDigits (b : UInt8) : List Char := [(b.toNat / 16).digitChar, (b.toNat % 16).digitChar]

def hex (data : List UInt8) : String := String.ofList (data.flatMap byteDigits)

def hashOffset : UInt64 := 0xcbf29ce484222325
def hashPrime : UInt64 := 0x100000001b3

def hash (data : List UInt8) : UInt64 :=
  data.foldl (fun h b => (h ^^^ b.toUInt64) * hashPrime) hashOffset

/-- All sixteen digits of a 64-bit number. -/
def hex64 (n : UInt64) : String :=
  let digits := Nat.toDigits 16 n.toNat
  String.ofList (List.replicate (16 - digits.length) '0' ++ digits)

/-- Data of up to this many bytes is written out. -/
def writtenLimit : Nat := 256

def text (data : List UInt8) : String :=
  if data.length ≤ writtenLimit then hex data
  else "#" ++ toString data.length ++ ":" ++ hex64 (hash data)

end SurfaceRelay.Bytes
