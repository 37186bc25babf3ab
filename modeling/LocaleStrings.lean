import LocaleStrings.Main
import LocaleStrings.Tree.Record
import LocaleStrings.Tree.Shape
import LocaleStrings.Proofs.Source.Lines
import LocaleStrings.Proofs.Source.Shifting
import LocaleStrings.Proofs.Component.InnerTags
import LocaleStrings.Proofs.Component.Delimiters
import LocaleStrings.Proofs.Document.Anchored
import LocaleStrings.Proofs.Document.Filtering
import LocaleStrings.Proofs.Document.Shape
import LocaleStrings.Proofs.Document.Strings
import LocaleStrings.Proofs.Document.Faults
import LocaleStrings.Proofs.Document.Counts
import LocaleStrings.Proofs.Glob.Directories
import LocaleStrings.Proofs.Locale.Filter
import LocaleStrings.Proofs.Locale.Reports
import LocaleStrings.Proofs.Options
import LocaleStrings.Proofs.Processor
import LocaleStrings.Proofs.Tree.Json
import LocaleStrings.Proofs.Tree.Validation
import LocaleStrings.Proofs.Command.Batch
import LocaleStrings.Proofs.Command.JsonFiles
