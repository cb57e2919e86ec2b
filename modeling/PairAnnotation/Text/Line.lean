/-
# Lines of bytes

A line ends with a line feed, and a carriage return right before the line feed
belongs to the end.  The last line may lack its end.  Lines are cut as bytes, since
a line that is no UTF-8 text spoils only itself and what comes after it.
-/

namespace PairAnnotation
namespace Text

/-- The lines of a byte sequence, ends cut off, from bytes whose current line is given reversed. -/
def linesFrom (line : List UInt8) : List UInt8 → List (List UInt8)
  | [] => if line = [] then [] else [line.reverse]
  | b :: rest =>
    if b = 10 then
      let line := match line with
        | 13 :: line => line
        | line => line
      line.reverse :: linesFrom [] rest
    else linesFrom (b :: line) rest

/-- The lines of a byte sequence, without their line feeds and without a carriage return in front of
one. -/
def byteLines (bytes : List UInt8) : List (List UInt8) := linesFrom [] bytes

/-- The text that bytes encode in UTF-8, if they encode one. -/
def decode? (bytes : List UInt8) : Option String := String.fromUTF8? ⟨bytes.toArray⟩

end Text
end PairAnnotation
