import UiMarkup.Config
import UiMarkup.Host.Plugin
import UiMarkup.Main
import UiMarkup.Proofs.Grammar
import UiMarkup.Proofs.Parsing
import UiMarkup.Proofs.Endings
import UiMarkup.Proofs.Surveys
import UiMarkup.Proofs.Tokens
import UiMarkup.Proofs.TokenLanguages
import UiMarkup.Proofs.Partition
import UiMarkup.Proofs.StringTokens
import UiMarkup.Proofs.NameTokens
import UiMarkup.Proofs.Recovery
import UiMarkup.Proofs.Relocation
import UiMarkup.Proofs.Seams
import UiMarkup.Proofs.Locality
import UiMarkup.Proofs.Document
import UiMarkup.Proofs.Generation
import UiMarkup.Proofs.Vlq
import UiMarkup.Proofs.VlqSegments
import UiMarkup.Proofs.SingleLine
import UiMarkup.Proofs.Masking
import UiMarkup.Proofs.MaskedCode
import UiMarkup.Proofs.Ownership
import UiMarkup.Proofs.Mappings
import UiMarkup.Proofs.SourceMaps
import UiMarkup.Proofs.Printing
import UiMarkup.Proofs.Lexing
import UiMarkup.Proofs.Restarting
import UiMarkup.Proofs.OversizedIntegers
import UiMarkup.Proofs.RoundTrip
import UiMarkup.Proofs.TreeWalk
import UiMarkup.Proofs.Spans
import UiMarkup.Proofs.BuildConcat
import UiMarkup.Proofs.FileListing
import UiMarkup.Proofs.BrokenFiles
import UiMarkup.Proofs.Places
import UiMarkup.Proofs.Progress
import UiMarkup.Proofs.Numbering
import UiMarkup.Proofs.StyleBatches
import UiMarkup.Proofs.Pruning
import UiMarkup.Proofs.ReportTotals
import UiMarkup.Proofs.BraceChoices
import UiMarkup.Proofs.Utf8
import UiMarkup.Proofs.CharacterOffsets
import UiMarkup.Proofs.ConcatChains
import UiMarkup.Proofs.Lowercasing
import UiMarkup.Proofs.PathTails
import UiMarkup.Proofs.PathFilters
import UiMarkup.Proofs.VariantEndings
import UiMarkup.Proofs.OptionReading
import UiMarkup.Proofs.Destinations
import UiMarkup.Proofs.StrictCompile
