import FtNm.Framework.AccessLog
import FtNm.Framework.ByteOrder
import FtNm.Framework.StableMerge
import FtNm.Framework.Numeral
import FtNm.Framework.DigitValue
import FtNm.Framework.Rounding
import FtNm.Framework.Lines
import FtNm.Framework.Monitor
import FtNm.Framework.Lockstep
import FtNm.Framework.BlockHeap
import FtNm.Construction.Libft
import FtNm.Construction.Elf
import FtNm.Construction.SymbolesHandler
import FtNm.Construction.ManageELF
import FtNm.Construction.FtPrintf
import FtNm.Construction.CPrintf
import FtNm.Construction.DirectiveGrammar
import FtNm.Construction.FormatScan
import FtNm.Construction.DecimalStrings
import FtNm.Construction.NumberText
import FtNm.Construction.GetNextLine
import FtNm.Construction.FtPrintFloat
import FtNm.Construction.Printer
import FtNm.Construction.Object
import FtNm.Construction.Program
import FtNm.Construction.MergeSort
import FtNm.Properties.Support.NameReading
import FtNm.Properties.Support.ParseSpec
import FtNm.Properties.Support.ParseAccess
import FtNm.Properties.Support.Sorting
import FtNm.Properties.Support.Listing
import FtNm.Properties.Support.Letters
import FtNm.Properties.Support.OutputLine
import FtNm.Properties.Support.FormatItems
import FtNm.Properties.Support.FormatCursor
import FtNm.Properties.Support.DirectiveScan
import FtNm.Properties.Support.IntegerDirectives
import FtNm.Properties.Support.IntegerText
import FtNm.Properties.Support.DecimalText
import FtNm.Properties.Support.BlockText
import FtNm.Properties.Support.FloatExpansion
import FtNm.Properties.Support.FloatRounding
import FtNm.Properties.Support.ImageParse
import FtNm.Properties.Support.Entries
import FtNm.Properties.Support.Processes
import FtNm.Properties.Support.TextDirectives
import FtNm.Properties.FileBounds
import FtNm.Properties.Decoding
import FtNm.Properties.ClassAgreement
import FtNm.Properties.ListingOrder
import FtNm.Properties.ListingViews
import FtNm.Properties.ExternalListing
import FtNm.Properties.OrdinarySymbols
import FtNm.Properties.EncodingAgreement
import FtNm.Properties.SectionSubscripts
import FtNm.Properties.NameBounds
import FtNm.Properties.AttributeLetters
import FtNm.Properties.SectionLetters
import FtNm.Properties.LineDecoding
import FtNm.Properties.PrintedCount
import FtNm.Properties.FormatBounds
import FtNm.Properties.IntegerConversions
import FtNm.Properties.SymbolCount
import FtNm.Properties.DecimalArithmetic
import FtNm.Properties.ExactExpansion
import FtNm.Properties.RoundedText
import FtNm.Properties.ScratchBounds
import FtNm.Properties.CanonicalText
import FtNm.Properties.LiteralText
import FtNm.Properties.DirectiveReading
import FtNm.Properties.LineReader
import FtNm.Properties.CommandLine
import FtNm.Properties.Invocations
import FtNm.Properties.Descriptors
import FtNm.Properties.Reports
import FtNm.Properties.ListingDecoding
import FtNm.Properties.TableOrder
import FtNm.Properties.Footprint
import FtNm.Properties.SortMemory
import FtNm.Properties.ReaderStream
import FtNm.Properties.FormatMeaning
import FtNm.Properties.FloatDirectives
