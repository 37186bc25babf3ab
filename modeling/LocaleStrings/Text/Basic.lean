/-!
# Texts and their bytes

A text is a list of characters. Offsets into it count the bytes of its UTF-8 form, so that an
offset may fall inside a character.

* `Text.size`, `Text.bytes`: how many bytes a text takes, and which;
* `Text.within`: the longest initial part that fits into a number of bytes;
* `Text.splitAt?`: the cut at an offset that is a character boundary;
* `Text.upTo`, `Text.sizeUpTo`: the part before a suffix, and how many bytes it takes.
-/

namespace LocaleStrings

/-- A text, as the list of its characters. -/
abbrev Text := List Char

namespace Text

/-- The number of bytes of the text's UTF-8 form. -/
def size : Text → Nat
  | [] => 0
  | c :: cs => c.utf8Size + size cs

/-- The bytes of the text's UTF-8 form. -/
def bytes (t : Text) : List UInt8 := t.flatMap String.utf8EncodeChar

/-- The longest initial part of the text that takes at most `n` bytes. -/
def within : Nat → Text → Text
  | _, [] => []
  | n, c :: cs => if c.utf8Size ≤ n then c :: within (n - c.utf8Size) cs else []

/-- The parts before and after byte `n`, if `n` is a character boundary of the text. -/
def splitAt? : Nat → Text → Option (Text × Text)
  | 0, cs => some ([], cs)
  | _ + 1, [] => none
  | n + 1, c :: cs =>
    if c.utf8Size ≤ n + 1 then
      (splitAt? (n + 1 - c.utf8Size) cs).map fun (before, after) => (c :: before, after)
    else none

/-- The part of `text` before its suffix `rest`. -/
def upTo (text rest : Text) : Text := text.take (text.length - rest.length)

/-- The number of bytes of `text` before its suffix `rest`. -/
def sizeUpTo (text rest : Text) : Nat := size (upTo text rest)

/-- Whether `t` begins with the characters of `s`. -/
def startsWith (t : Text) (s : String) : Bool := s.toList.isPrefixOf t

@[simp] theorem size_nil : size [] = 0 := rfl

@[simp] theorem size_cons (c : Char) (cs : Text) : size (c :: cs) = c.utf8Size + size cs := rfl

@[simp] theorem size_append (s t : Text) : size (s ++ t) = size s + size t := by
  induction s with
  | nil => simp
  | cons c cs ih => simp [ih, Nat.add_assoc]

end Text

end LocaleStrings
