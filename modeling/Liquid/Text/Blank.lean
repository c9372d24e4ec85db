/-!
# White space

Which characters separate words, what is left of a text between its outer blanks, and the words of
a text.  The class is the Unicode property White_Space.
-/

namespace Liquid
namespace Text

/-- White space: the twenty-five characters of the Unicode property White_Space. -/
def isBlank (c : Char) : Bool :=
  (9 ≤ c.toNat && c.toNat ≤ 13) || c == ' ' || c.toNat == 0x85 || c.toNat == 0xA0 ||
    c.toNat == 0x1680 || (0x2000 ≤ c.toNat && c.toNat ≤ 0x200A) || c.toNat == 0x2028 ||
    c.toNat == 0x2029 || c.toNat == 0x202F || c.toNat == 0x205F || c.toNat == 0x3000

/-- The characters from the first to the last that is not blank. -/
def trimChars (cs : List Char) : List Char :=
  ((cs.dropWhile isBlank).reverse.dropWhile isBlank).reverse

def trim (s : String) : String :=
  String.ofList (trimChars s.toList)

/-- Puts a finished word in front of the words after it; an empty word is none. -/
def consWord (word : List Char) (words : List (List Char)) : List (List Char) :=
  if word.isEmpty then words else word :: words

/-- One character before a text whose first word so far, possibly empty, and later words are
known. -/
def extendWords (c : Char) (later : List Char × List (List Char)) :
    List Char × List (List Char) :=
  if isBlank c then ([], consWord later.1 later.2) else (c :: later.1, later.2)

/-- The maximal runs of characters that are not blank, in order. -/
def wordsOf (cs : List Char) : List (List Char) :=
  let scanned := cs.foldr extendWords ([], [])
  consWord scanned.1 scanned.2

/-- The words of a text. -/
def words (s : String) : List String :=
  (wordsOf s.toList).map String.ofList

end Text
end Liquid
