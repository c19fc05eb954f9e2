import PackagePower.Host.Layout

/-!
# The mapped chipset window

A window is a stretch of physical memory. Registers in it are eight bytes at an offset that
is a multiple of four and leaves them inside the window. A window that was mapped for reading
refuses every write before it looks at the offset.

Memory may end before the window does. `read` and `write` go on to the end of the page in which
it ends, where there are zeros and nothing that is stored is kept. Further on there is no page,
and a process that gets there is ended; `lacks` says where that is.
-/

namespace PackagePower

/-- A mapped stretch of memory. -/
structure Window where
  memory : FileId
  base : Word
  size : Nat
  access : Access

namespace Window

/-- Bytes of a page, which bases are multiples of. -/
def pageSize : Nat := 4096

/-- Bytes of the pages that `size` bytes take up. -/
def pagedSize (size : Nat) : Nat := (size + pageSize - 1) / pageSize * pageSize

/-- Bytes that a process can address: half of all 48-bit addresses, but for the last page. -/
def addressable : Nat := UInt32.size * UInt16.size / 2 - pageSize

/-- The longest stretch of free addresses, which is the one below the program. A program
stands at two thirds of its addresses. -/
def longestStretch : Nat := addressable / 3 * 2

/-- The memory that `size` bytes at `base` can be mapped from, or what keeps them from being
mapped. -/
def mappable (handle : Handle) (base : Word) (size : Nat) : Except MapCause FileId :=
  if size = 0 then .error .invalid
  else if Host.positionBound ≤ base.toNat then .error .overflow
  else if base.toNat % pageSize ≠ 0 then .error .invalid
  else if longestStretch < pagedSize size then .error .noRoom
  else
    match handle with
    | .directory => .error .unsupported
    | .file memory =>
      if Host.positionBound ≤ base.toNat + pagedSize size then .error .overflow else .ok memory

def map (host : Host) (layout : Layout) (base : Word) (access : Access) : Except Fault Window :=
  let path := layout.memory
  match host.openNode path.names access with
  | .error cause => .error (.deviceOpen path.text cause)
  | .ok handle =>
    match mappable handle base layout.windowSize with
    | .error cause => .error (.mapping base layout.windowSize cause)
    | .ok memory => .ok { memory, base, size := layout.windowSize, access }

variable (window : Window)

/-- Whether a register can be at `offset`. -/
def contains (offset : Nat) : Bool := offset % 4 = 0 && offset + 8 ≤ window.size

/-- Whether the register at `offset` gets to a page that memory does not have. -/
def lacks (host : Host) (offset : Nat) : Bool :=
  window.contains offset &&
    (host.contents window.memory).size ≤ (window.base.toNat + offset + 7) / pageSize * pageSize

/-- The register at `offset`, for an offset the window contains. -/
def register (host : Host) (offset : Nat) : Word :=
  Word.ofBytes (host.contents window.memory).byte (window.base.toNat + offset)

def read (host : Host) (offset : Nat) : Except Fault Word :=
  if window.contains offset then .ok (window.register host offset)
  else .error (.outOfWindow offset window.size)

/-- A read by a process, which a page that is not there ends. -/
def load (host : Host) (offset : Nat) : Except Fault Word :=
  if window.lacks host offset then .error .noPage else window.read host offset

def write (host : Host) (offset : Nat) (value : Word) : Except Fault Host :=
  if window.access = .readOnly then .error (.readOnlyWindow window.base)
  else if window.contains offset then
    .ok (host.update window.memory fun contents =>
      contents.store (window.base.toNat + offset) value)
  else .error (.outOfWindow offset window.size)

end Window
end PackagePower
