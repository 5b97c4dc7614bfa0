import WinFloor.Image.Header
import WinFloor.Metadata.Root

/-!
Where metadata stands in a file: at its beginning, or in a PE image, whose CLI header points at it.
-/
namespace WinFloor.Metadata

open Image

/-- Whether a file begins like metadata, bare or in an image. -/
def isMetadata (d : Octets) : Bool :=
  d.startsWith signature || d.startsWith Header.dosSignature

/-- Where the CLI header names the metadata and its size. -/
def metadataAddressOffset : Nat := 8
def metadataSizeOffset : Nat := 12

/-- The address `n` further on, or the last one of 32 bits. -/
def saturatingAdvance (address : UInt32) (n : Nat) : UInt32 :=
  (advance? address n).getD (0xffffffff)

/-- A field of the CLI header at an address. -/
def cliField (v : View) (address : UInt32) (offset : Nat) : Except Fault UInt32 :=
  match v.dword (saturatingAdvance address offset) with
  | .ok value => .ok value
  | .error _ => .error (.metadata .cliHeaderTruncated)

/-- The metadata in a file, from its root on. -/
def locate (d : Octets) : Except Fault Octets :=
  if d.startsWith signature then .ok d
  else
    match Header.read d with
    | .error f => .error (.metadata (.wrapper f.message))
    | .ok header => do
      let cli := header.directory cliDirectory
      if !cli.isPresent then throw (.metadata .noCliHeader)
      let view := header.view d
      let address ← cliField view cli.address metadataAddressOffset
      let size ← cliField view cli.address metadataSizeOffset
      match view.slice address size.toNat with
      | .ok root => return root
      | .error _ => throw (.metadata .directoryOutOfBounds)

end WinFloor.Metadata
