import WinFloor.Image.Section
import WinFloor.Octets

/-!
A file seen through the addresses of the image loaded from it.
-/
namespace WinFloor.Image

structure View where
  data : Octets
  map : SectionMap

namespace View

def slice (v : View) (address : UInt32) (length : Nat) : Except Fault Octets :=
  v.data.slice (v.map.offset address) length

def word (v : View) (address : UInt32) : Except Fault UInt16 :=
  v.data.word (v.map.offset address)

def dword (v : View) (address : UInt32) : Except Fault UInt32 :=
  v.data.dword (v.map.offset address)

def qword (v : View) (address : UInt32) : Except Fault UInt64 :=
  v.data.qword (v.map.offset address)

def name (v : View) (address : UInt32) : Except Fault String :=
  v.data.name (v.map.offset address)

end View

end WinFloor.Image
