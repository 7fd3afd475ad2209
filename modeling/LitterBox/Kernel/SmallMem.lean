import Mathlib.Logic.Function.Basic

/-!
# The heap of `rt-thread/src/mem.c`

`rt_malloc`, `rt_realloc` and `rt_free` of `kservice.c` hold a mutex while they call the small
memory algorithm, so their calls come one after the other.  In front of every block there is an item
of three words: the pool with a bit for `used`, and the offsets of the next and of the previous
item.  The items and what the holders of the blocks keep there share one memory: `SmallMem.heap`.

* `SmallMem`     the object, and the memory it manages;
* `SmallMem.join`, `SmallMem.split`   what happens to two neighbours, and to one item;
* `rtSmemInit`, `rtSmemAlloc`, `rtSmemRealloc`, `rtSmemFree`   the algorithm, word by word;
* `rtSystemHeapInit`   the heap of the board.
-/

namespace LitterBox

/-! ## the items -/

/-- `SIZEOF_STRUCT_MEM` -/
def sizeofStructMem : Nat := 12

/-- `MIN_SIZE_ALIGNED` -/
def minSizeAligned : Nat := 12

/-- `MEM_MASK` -/
def memMask : BitVec 32 := 0xfffffffe

/-- `RT_ALIGN(size, RT_ALIGN_SIZE)` -/
def rtAlign (size : BitVec 32) : BitVec 32 := (size + 3) &&& ~~~3

/-- `struct rt_small_mem`; pointers are offsets from `heap_ptr` -/
structure SmallMem where
  /-- the words of the memory, by the offsets of their first bytes -/
  heap : Nat → BitVec 32
  /-- the address of the object -/
  self : BitVec 32
  heapEnd : Nat
  lfree : Nat
  memSizeAligned : Nat
  used : Nat
  max : Nat

namespace SmallMem

def set (q : Nat) (v : BitVec 32) (m : SmallMem) : SmallMem :=
  { m with heap := Function.update m.heap q v }

/-- `mem->next` -/
def next (m : SmallMem) (mem : Nat) : Nat := (m.heap (mem + 4)).toNat

/-- `mem->prev` -/
def prev (m : SmallMem) (mem : Nat) : Nat := (m.heap (mem + 8)).toNat

/-- `MEM_ISUSED` -/
def isUsed (m : SmallMem) (mem : Nat) : Bool := m.heap mem &&& ~~~memMask ≠ 0

/-- `MEM_POOL` -/
def memPool (m : SmallMem) (mem : Nat) : BitVec 32 := m.heap mem &&& memMask

/-- `MEM_USED` -/
def memUsed (m : SmallMem) : BitVec 32 := m.self &&& memMask ||| 1

/-- `MEM_FREED` -/
def memFreed (m : SmallMem) : BitVec 32 := m.self &&& memMask ||| 0

def setPool (mem : Nat) (pool : BitVec 32) (m : SmallMem) : SmallMem := m.set mem pool

def setNext (mem next : Nat) (m : SmallMem) : SmallMem := m.set (mem + 4) (BitVec.ofNat 32 next)

def setPrev (mem prev : Nat) (m : SmallMem) : SmallMem := m.set (mem + 8) (BitVec.ofNat 32 prev)

/-- the item `nmem` behind the item `mem` becomes a part of it -/
def join (mem nmem : Nat) (m : SmallMem) : SmallMem :=
  let m := if m.lfree = nmem then { m with lfree := mem } else m
  let m := m.setPool nmem 0
  let m := m.setNext mem (m.next nmem)
  m.setPrev (m.next nmem) mem

/-- "plug hole forward" -/
def plugForward (mem : Nat) (m : SmallMem) : SmallMem :=
  let nmem := m.next mem
  if mem ≠ nmem ∧ m.isUsed nmem = false ∧ nmem ≠ m.heapEnd then m.join mem nmem else m

/-- "plug hole backward" -/
def plugBackward (mem : Nat) (m : SmallMem) : SmallMem :=
  let pmem := m.prev mem
  if pmem ≠ mem ∧ m.isUsed pmem = false then m.join pmem mem else m

/-- `plug_holes`; `none`: an assertion of it fails -/
def plugHoles (mem : Nat) (m : SmallMem) : Option SmallMem :=
  if mem < m.heapEnd then some ((m.plugForward mem).plugBackward mem) else none

/-- the rest of the item `ptr` from `ptr2` on becomes a free item of its own -/
def split (ptr ptr2 : Nat) (m : SmallMem) : SmallMem :=
  let m := m.setPool ptr2 m.memFreed
  let m := m.setNext ptr2 (m.next ptr)
  let m := m.setPrev ptr2 ptr
  let m := m.setNext ptr ptr2
  if m.next ptr2 ≠ m.memSizeAligned + sizeofStructMem then m.setPrev (m.next ptr2) ptr2 else m

/-- `parent.used` grows -/
def addUsed (size : Nat) (m : SmallMem) : SmallMem :=
  { m with used := m.used + size, max := Nat.max m.max (m.used + size) }

/-- the item `mem` is free and may be the lowest one -/
def lower (mem : Nat) (m : SmallMem) : SmallMem :=
  if mem < m.lfree then { m with lfree := mem } else m

/-- the loop of `rt_smem_alloc` from `ptr` on, at most `n` turns: the item it takes, if it takes
one -/
def findFit (m : SmallMem) (size : Nat) : Nat → Nat → Option (Option Nat)
  | 0, _ => none
  | n + 1, ptr =>
    if ptr ≤ m.memSizeAligned - size then
      if m.isUsed ptr = false ∧ size ≤ m.next ptr - (ptr + sizeofStructMem) then some (some ptr)
      else m.findFit size n (m.next ptr)
    else some none

/-- the loop that looks for the lowest free item, from `lfree` on, at most `n` turns -/
def findFree (m : SmallMem) : Nat → Nat → Option Nat
  | 0, _ => none
  | n + 1, lfree =>
    if m.isUsed lfree = true ∧ lfree ≠ m.heapEnd then m.findFree n (m.next lfree) else some lfree

/-- the item `mem` is no longer free: "find next free block after mem and update lowest free
pointer" -/
def raise (mem : Nat) (m : SmallMem) : Option SmallMem :=
  if mem = m.lfree then
    (m.findFree (m.heapEnd + 1) m.lfree).map fun lfree => { m with lfree := lfree }
  else some m

/-- `rt_smem_alloc` once the item `ptr` has been found -/
def allocAt (ptr size : Nat) (m : SmallMem) : Option SmallMem :=
  let m :=
    if size + sizeofStructMem + minSizeAligned ≤ m.next ptr - (ptr + sizeofStructMem) then
      (m.split ptr (ptr + sizeofStructMem + size)).addUsed (size + sizeofStructMem)
    else m.addUsed (m.next ptr - ptr)
  ((m.setPool ptr m.memUsed).raise ptr).bind fun m =>
    if ptr + sizeofStructMem + size ≤ m.heapEnd ∧ (ptr + sizeofStructMem) % 4 = 0 then some m
    else none

/-- `rt_memcpy` of blocks that do not overlap -/
def copy (dst src n : Nat) (m : SmallMem) : SmallMem :=
  { m with heap := fun q => if dst ≤ q ∧ q < dst + n then m.heap (src + (q - dst)) else m.heap q }

end SmallMem

/-! ## the calls -/

/-- the size that `rt_smem_alloc` looks for -/
def allocSize (size : BitVec 32) : Nat := Nat.max (rtAlign size).toNat minSizeAligned

/-- `rt_smem_alloc`; `none`: an assertion fails or a loop does not end -/
def rtSmemAlloc (size : BitVec 32) (m : SmallMem) : Option (SmallMem × Option Nat) :=
  if size = 0 then some (m, none)
  else if m.memSizeAligned < allocSize size then some (m, none)
  else
    (m.findFit (allocSize size) (m.heapEnd + 1) m.lfree).bind fun
      | none => some (m, none)
      | some ptr =>
        (m.allocAt ptr (allocSize size)).map fun m => (m, some (ptr + sizeofStructMem))

/-- `rt_smem_free` -/
def rtSmemFree (rmem : Option Nat) (m : SmallMem) : Option SmallMem :=
  match rmem with
  | none => some m
  | some r =>
    let mem := r - sizeofStructMem
    if r % 4 = 0 ∧ m.memPool mem ≠ 0 ∧ m.memPool mem = m.self ∧ m.isUsed mem = true ∧
        r < m.heapEnd ∧ m.memPool (m.next mem) = m.self then
      let m := (m.setPool mem m.memFreed).lower mem
      { m with used := m.used - (m.next mem - mem) }.plugHoles mem
    else none

/-- `rt_smem_realloc` -/
def rtSmemRealloc (rmem : Option Nat) (newsize : BitVec 32) (m : SmallMem) :
    Option (SmallMem × Option Nat) :=
  let newsize := rtAlign newsize
  if m.memSizeAligned < newsize.toNat then some (m, none)
  else if newsize = 0 then (rtSmemFree rmem m).map fun m => (m, none)
  else
    match rmem with
    | none => rtSmemAlloc newsize m
    | some r =>
      if r % 4 = 0 ∧ r < m.heapEnd then
        let ptr := r - sizeofStructMem
        let size := m.next ptr - ptr - sizeofStructMem
        if size = newsize.toNat then some (m, some r)
        else if newsize.toNat + sizeofStructMem + minSizeAligned < size then
          let ptr2 := ptr + sizeofStructMem + newsize.toNat
          let m := { m with used := m.used - (size - newsize.toNat) }
          (((m.split ptr ptr2).lower ptr2).plugHoles ptr2).map fun m => (m, some r)
        else
          (rtSmemAlloc newsize m).bind fun
            | (m, none) => some (m, none)
            | (m, some p) =>
              (rtSmemFree (some r) (m.copy p r (Nat.min size newsize.toNat))).map fun m =>
                (m, some p)
      else none

/-- `sizeof(struct rt_small_mem)` -/
def sizeofSmallMem : BitVec 32 := 56

/-- `rt_smem_init`; `none`: there is no room -/
def rtSmemInit (heap : Nat → BitVec 32) (beginAddr size : BitVec 32) : Option SmallMem :=
  let self := rtAlign beginAddr
  let startAddr := self + sizeofSmallMem
  let beginAlign := rtAlign startAddr
  let endAlign := (beginAddr + size) &&& ~~~3
  if 24 < endAlign ∧ startAddr ≤ endAlign - 24 then
    let memSize := (endAlign - beginAlign - 24).toNat
    let m : SmallMem :=
      { heap := heap
        self := self
        heapEnd := memSize + sizeofStructMem
        lfree := 0
        memSizeAligned := memSize
        used := 0
        max := 0 }
    let m := ((m.setPool 0 m.memFreed).setNext 0 m.heapEnd).setPrev 0 0
    some (((m.setPool m.heapEnd m.memUsed).setNext m.heapEnd m.heapEnd).setPrev m.heapEnd m.heapEnd)
  else none

/-- `HEAP_END`, which is `HC32_SRAM_END` -/
def heapEndAddr : BitVec 32 := 0x1FFF8000 + 188 * 1024

/-- `rt_system_heap_init`; `none`: its assertion fails, or there is no room -/
def rtSystemHeapInit (heap : Nat → BitVec 32) (beginAddr endAddr : BitVec 32) : Option SmallMem :=
  let beginAlign := rtAlign beginAddr
  let endAlign := endAddr &&& ~~~3
  if beginAlign < endAlign then rtSmemInit heap beginAddr (endAlign - beginAlign) else none

end LitterBox
