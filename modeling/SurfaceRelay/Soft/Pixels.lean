import SurfaceRelay.Extent

/-! Pixel storages and the copy of a region between two of them.

Storages are meant to have less than `2 ^ 64` bytes, which a 64-bit word counts as well as a number
(`Extent.toNat_byteWord`). -/
namespace SurfaceRelay.Soft

/-- The bytes of an image, row after row. -/
abbrev Pixels := List UInt8

/-- A fresh storage holds zeros. -/
def Pixels.blank (size : Extent) : Pixels := List.replicate size.byteCount 0

/-- Overwrites a whole storage. Only bytes that fill it exactly can be written. -/
def Pixels.overwrite (old data : Pixels) : Option Pixels :=
  if old.length = data.length then some data else none

/-- Copies `row` bytes at the start of each of the first `rows` rows. A row is
`fromStride` bytes long in the source and `toStride` bytes in the target, which must
both be at least `row`; there is no result when a row would run past an end. -/
def copyRows (row fromStride toStride : Nat) : Nat → Pixels → Pixels → Option Pixels
  | 0, _, target => some target
  | rows + 1, source, target =>
    let bytes := source.take row
    if bytes.length = row ∧ (target.take row).length = row then
      (copyRows row fromStride toStride rows (source.drop fromStride) (target.drop toStride)).map
        fun rest => bytes ++ ((target.take toStride).drop row ++ rest)
    else none

/-- How many rows of a region hold anything. -/
def copiedRows (region : Extent) : Nat := if region.width = 0 then 0 else region.height.toNat

/-- Copies the top left region of a source of extent `sourceSize` into a target of
extent `targetSize`. -/
def blit (region sourceSize targetSize : Extent) (source target : Pixels) :
    Option Pixels :=
  copyRows region.rowBytes sourceSize.rowBytes targetSize.rowBytes (copiedRows region)
    source target

end SurfaceRelay.Soft
