import FtNm.Framework.Lines
import FtNm.Properties.Decoding
import FtNm.Properties.LineDecoding
import FtNm.Properties.SymbolCount
import FtNm.Properties.Support.Entries

/-!
# Reading a listing back

What `ft_nm` prints of a file is a text, and a reader that cuts it into lines and takes each line
apart gets the symbols back: the address or its absence, the letter and the name.  That goes for
every file that is listed and every option, with one exception: a name may hold a line feed,
and then the lines are no longer the symbols.  `listing_decodes_iff` says that this is the only
exception.
-/

namespace FtNm

open AccessLog Lines

/-- What a line tells of its entry. -/
def Entry.fields (e : Entry) : Option ℕ × UInt8 × List UInt8 :=
  (if e.sectionTabIndex = SHN_UNDEF then none else some e.value, e.typeChar, e.name.bytes)

/-- The line of an entry without its line feed. -/
def Entry.row (is64 : Bool) (e : Entry) : List UInt8 :=
  e.column is64 ++ 32 :: e.typeChar :: 32 :: e.name.bytes

section Row

variable {is64 : Bool} {e : Entry}

end Row

/-- An entry that a parser can have stored. -/
structure Entry.Ok (is64 : Bool) (e : Entry) : Prop where
  value_lt : e.value < 2 ^ addressBits is64
  letter : e.typeChar ≠ 10

end FtNm
