import LitterBox.Lib.Stable
import Mathlib.Data.List.Basic

/-!
# What the IPC objects of `rt-thread/src/ipc.c` share

A semaphore has one list of suspended threads and a mailbox has two.  The code that waits puts the
calling thread into a list by `_ipc_list_suspend`; the code that wakes takes the first one out.

* `RtErr`, `IpcFlag`   the results of the calls and the two ways of queueing;
* `ipcListSuspend`     where a newcomer stands.
-/

namespace LitterBox

/-- `RT_EOK`, `-RT_ERROR`, `-RT_ETIMEOUT`, `-RT_EFULL` -/
inductive RtErr where
  | eok
  | error
  | etimeout
  | efull
  deriving DecidableEq, Repr

/-- `RT_IPC_FLAG_FIFO`, `RT_IPC_FLAG_PRIO` -/
inductive IpcFlag where
  | fifo
  | prio
  deriving DecidableEq, Repr

variable {α : Type}

/-- the loop of `_ipc_list_suspend` over the list: before the first thread of lower priority; `prio`
is `current_priority`, of which lower numbers come first -/
def insertPrio (prio : α → BitVec 8) (w : α) : List α → List α
  | [] => [w]
  | s :: l => if prio w < prio s then w :: s :: l else s :: insertPrio prio w l

/-- `_ipc_list_suspend` -/
def ipcListSuspend (prio : α → BitVec 8) (flag : IpcFlag) (w : α) (list : List α) : List α :=
  match flag with
  | .fifo => list ++ [w]
  | .prio => insertPrio prio w list

/-- it is the insertion of a stable queue -/
theorem insertPrio_eq (prio : α → BitVec 8) (w : α) (l : List α) :
    insertPrio prio w l = Stable.insert (fun x => (prio x).toNat) w l := by
  induction l with
  | nil => rfl
  | cons s l ih =>
    unfold insertPrio Stable.insert
    rw [ih]
    rfl

theorem mem_insertPrio {prio : α → BitVec 8} {w x : α} {l : List α} :
    x ∈ insertPrio prio w l ↔ x = w ∨ x ∈ l := by
  rw [insertPrio_eq]
  exact Stable.mem_insert

theorem mem_ipcListSuspend {prio : α → BitVec 8} {flag : IpcFlag} {w x : α} {l : List α} :
    x ∈ ipcListSuspend prio flag w l ↔ x = w ∨ x ∈ l := by
  cases flag with
  | fifo =>
    show x ∈ l ++ [w] ↔ _
    rw [List.mem_append, List.mem_singleton]
    exact or_comm
  | prio => exact mem_insertPrio

end LitterBox
