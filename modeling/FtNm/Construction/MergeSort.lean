import FtNm.Construction.Printer
import FtNm.Framework.BlockHeap

/-!
# The merge sort in memory

`merge` and `mergeSort` of `srcs/printer.c` as they work on memory: the array and the two copies
are blocks, which are allocated, copied into, read and written through subscripts, and freed.
`Printer.lean` has the same two functions on lists.

A cell is a `t_symb`, and sizes count cells.  `malloc` may refuse; its result is used as it is.
Every call of `ft_strcmp` is counted.
-/

namespace FtNm

open BlockHeap

/-- `merge`, the first loop, with the final `i`, `j` and `k`. -/
def mergeLoopAt (m : MappedFile) (order : ℤ) (array left right : Ptr) (leftSize rightSize : ℕ)
    (i j k : ℕ) : Command TSymb (ℕ × ℕ × ℕ) :=
  if _h : i < leftSize ∧ j < rightSize then do
    let a ← load left i
    let b ← load right j
    tick
    if order * compareNames m a b ≤ 0 then do
      let a ← load left i
      store array k a
      mergeLoopAt m order array left right leftSize rightSize (i + 1) j (k + 1)
    else do
      let b ← load right j
      store array k b
      mergeLoopAt m order array left right leftSize rightSize i (j + 1) (k + 1)
  else pure (i, j, k)
termination_by (leftSize - i) + (rightSize - j)

/-- `while (i < size) array[k++] = src[i++];`, with the final `k`. -/
def copyLoopAt (array src : Ptr) (size i k : ℕ) : Command TSymb ℕ :=
  if _h : i < size then do
    let a ← load src i
    store array k a
    copyLoopAt array src size (i + 1) (k + 1)
  else pure k
termination_by size - i

/-- `merge`. -/
def mergeAt (m : MappedFile) (order : ℤ) (array left : Ptr) (leftSize : ℕ) (right : Ptr)
    (rightSize : ℕ) : Command TSymb Unit := do
  let (i, j, k) ← mergeLoopAt m order array left right leftSize rightSize 0 0 0
  let k ← copyLoopAt array left leftSize i k
  let _ ← copyLoopAt array right rightSize j k
  pure ()

/-- `mergeSort`. -/
def mergeSortAt (A : Allocator TSymb) (m : MappedFile) (order : ℤ) (array : Ptr) (size : ℕ) :
    Command TSymb Unit :=
  if _h : size ≤ 1 then pure ()
  else do
    let mid := size / 2
    let leftSize := mid
    let rightSize := size - mid
    let left ← malloc A leftSize
    let right ← malloc A rightSize
    memcpy left array 0 leftSize
    memcpy right array leftSize rightSize
    mergeSortAt A m order left leftSize
    mergeSortAt A m order right rightSize
    mergeAt m order array left leftSize right rightSize
    free left
    free right
termination_by size

end FtNm
