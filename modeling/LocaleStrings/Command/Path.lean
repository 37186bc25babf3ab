import LocaleStrings.Text.Ascii

/-!
# File names and extensions

* `Path.components`: the parts of a path between slashes, without empty ones and `.`;
* `Path.extension?`: the part of the file name behind its last dot, unless the name starts with
  that dot.
-/

namespace LocaleStrings.Path

/-- The parts of a text between slashes. -/
def splitSlashes : Text → List Text
  | [] => [[]]
  | c :: cs =>
    if c = '/' then [] :: splitSlashes cs
    else match splitSlashes cs with
      | [] => [[c]]
      | part :: parts => (c :: part) :: parts

/-- The parts of a path that name something. -/
def components (path : Text) : List Text :=
  (splitSlashes path).filter fun part => !part.isEmpty && part != ['.']

/-- The name of the file at a path. -/
def fileName? (path : Text) : Option Text :=
  match (components path).getLast? with
  | some name => if name = ['.', '.'] then none else some name
  | none => none

/-- The extension of a file name. -/
def extensionOf? (name : Text) : Option Text :=
  let backwards := name.reverse
  match backwards.dropWhile (· != '.') with
  | _ :: _ :: _ => some (backwards.takeWhile (· != '.')).reverse
  | _ => none

/-- The extension of the file at a path. -/
def extension? (path : Text) : Option Text := (fileName? path).bind extensionOf?

/-- Whether the file at a path has an extension, in any case. -/
def hasExtension (path : Text) (extension : String) : Bool :=
  match extension? path with
  | some e => Ascii.sameIgnoringCase e extension.toList
  | none => false

end LocaleStrings.Path
