import FtNm.Construction.DecimalStrings

/-!
# `get_next_line`

`libft/get_next_line.c`: the reader that returns the lines of a descriptor one by one, and keeps
what it has read beyond them in `the_rest[fd]`.

* `Chunk` is what one call of `read` delivers.  The stream of a descriptor is the list of the
  chunks it still has to deliver; behind the last one `read` returns `0`.
* `getIndexOfLineFeed`, `readLoop` and `manageLines` are the parts of a call, `nextLine` puts them
  together, and `getNextLine` has the test of the descriptor in front.
* `successive` is a caller that calls it again and again.

The source keeps the remainders of all descriptors in one array; a call touches the entry and
the stream of its own descriptor only, and these two are the state here.  `read` does not fail,
and the pointer `line` is not null.  `none` is a call that does not come back in an orderly way:
an `int` subscript that overflows, a string that has been freed, or an entry outside the array.
-/

namespace FtNm

/-- `BUFF_SIZE`. -/
def buffSize : ℕ := 2

/-- The line feed. -/
def lineFeed : UInt8 := '\n'.toUInt8

/-- What a call of `read` puts into the buffer. -/
structure Chunk where
  bytes : List UInt8
  bytes_ne : bytes ≠ []
  length_le : bytes.length ≤ buffSize
  nulFree : 0 ∉ bytes

/-- The pointer `the_rest[fd]`. -/
inductive Rest
  | null
  | held (s : List UInt8)
  | freed
  deriving DecidableEq, Repr

/-- A descriptor as `get_next_line` sees it. -/
structure Reader where
  rest : Rest
  unread : List Chunk

/-- What a call returns, and the line that it hands over. -/
structure Answer where
  ret : ℤ
  line : Option (List UInt8)
  deriving DecidableEq, Repr

/-! ## The parts of a call -/

/-- The loop of `get_index_of_line_feed`, at the index `i` of the string that starts there. -/
def lineFeedFrom (i : ℕ) : List UInt8 → Option ℤ
  | [] => some (-1)
  | c :: cs =>
    if c = lineFeed then some i
    else if i + 1 < 2 ^ 31 then lineFeedFrom (i + 1) cs
    else none

/-- `get_index_of_line_feed`. -/
def getIndexOfLineFeed (str : List UInt8) : Option ℤ := lineFeedFrom 0 str

/-- The string that a chunk is joined to: a new one for the null pointer. -/
def Rest.orNew : Rest → Option (List UInt8)
  | .null => some []
  | .held s => some s
  | .freed => none

/-- The loop of `get_next_line`: the remainder, whether the stream has ended, and what is still
to be read. -/
def readLoop (rest : Rest) : List Chunk → Option (Rest × Bool × List Chunk)
  | [] => some (rest, true, [])
  | chunk :: unread => do
    let tmp ← rest.orNew
    let joined ← ftStrjoin tmp chunk.bytes
    let index ← getIndexOfLineFeed joined
    if index ≠ -1 then some (.held joined, false, unread) else readLoop (.held joined) unread

/-- `manage_lines`: what it returns, and the remainder behind the line. -/
def manageLines : Rest → Option (Answer × Rest)
  | .null => some (⟨0, none⟩, .null)
  | .freed => none
  | .held s => do
    let index ← getIndexOfLineFeed s
    if index ≠ -1 then
      let line ← ftStrsub s 0 index
      let temp ← (if index = int32 (toInt s.length - 1) then some []
        else ftStrdup (s.drop (index.toNat + 1)))
      some (⟨1, some line⟩, .held temp)
    else if s.length ≠ 0 then
      let line ← ftStrsub s 0 s.length
      -- the remainder is freed, and the pointer keeps its value
      some (⟨1, some line⟩, .freed)
    else some (⟨0, none⟩, .null)

/-! ## The call -/

/-- The body of `get_next_line`, on an entry of the array. -/
def nextLine (reader : Reader) : Option (Answer × Reader) := do
  let (rest, ended, unread) ← readLoop reader.rest reader.unread
  match rest, ended with
  | .freed, true => none
  | .held (c :: cs), true =>
    let line ← ftStrdup (c :: cs)
    some (⟨1, some line⟩, ⟨.null, unread⟩)
  | rest, _ =>
    let (answer, rest) ← manageLines rest
    if answer.ret = 1 then some (answer, ⟨rest, unread⟩) else some (⟨0, none⟩, ⟨rest, unread⟩)

/-- `get_next_line`. -/
def getNextLine (fd : ℤ) (reader : Reader) : Option (Answer × Reader) :=
  if fd < 0 ∨ 4864 < fd then some (⟨-1, none⟩, reader)
  -- the last descriptor that passes the test has no entry
  else if fd = 4864 then none
  else nextLine reader

/-- The answers to the next `n` calls. -/
def successive (fd : ℤ) : ℕ → Reader → Option (List Answer)
  | 0, _ => some []
  | n + 1, reader => do
    let (answer, reader) ← getNextLine fd reader
    let answers ← successive fd n reader
    some (answer :: answers)

end FtNm
