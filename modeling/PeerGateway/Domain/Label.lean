import PeerGateway.Domain.Character
import PeerGateway.Domain.Punycode
import PeerGateway.Text.Composition
import PeerGateway.Text.Direction
import PeerGateway.Text.Joining

/-!
# Labels of domain names

The parts of a domain name between points. A label beyond ASCII is written in ASCII as the
mark `xn--` and its Punycode. `Label.text?` reads what a label stands for,
`Label.isValid` and `Label.isDirected` are the rules that the text has to meet, and
`Label.ascii` is the written form.
-/

namespace PeerGateway

namespace Domain

namespace Label

/-- What a label in Punycode starts with. -/
def mark : List Char := "xn--".toList

/-- The most characters of Punycode that are read. -/
def longestCode : Nat := 2000

/-- The most characters of a text that is written in Punycode. -/
def longestText : Nat := 1000

/-- Whether a text could be a label without Punycode: it is composed, and its characters
stand for themselves. -/
def isSettled (text : List Char) : Bool :=
  text.all (fun c => meaning? c = some [c]) && normalized text = text

/-- The text that a label stands for. Punycode must stand for a text that needs it. -/
def text? (label : List Char) : Option (List Char) :=
  if !mark.isPrefixOf label then some label
  else if !label.all isAscii || mark.length + longestCode < label.length then none
  else (Punycode.decode? (label.drop mark.length)).filter fun text =>
    !text.all isAscii && isSettled text

/-! ## Joiners -/

/-- The character that forbids its neighbours to join. -/
def nonJoiner : Char := Char.ofNat 0x200C

/-- The character that asks its neighbours to join. -/
def joiner : Char := Char.ofNat 0x200D

/-- The combining class of the signs that take the vowel from a consonant. -/
def viramaClass : Nat := 9

/-- Whether the first character that is not transparent for joining is one that joins. -/
def meets (joins : Joining → Bool) (s : List Char) : Bool :=
  match (s.map Joining.of).find? (· ≠ .transparent) with
  | some j => joins j
  | none => false

/-- Whether each joiner stands where it has an effect: behind a virama, or, if it forbids to
join, between letters that would. `before` are the characters in front, the nearest
first. -/
def joinersFit (before : List Char) : List Char → Bool
  | [] => true
  | c :: rest =>
    let isBehindVirama := before.head?.any fun v => Composition.combiningClass v = viramaClass
    let parts := meets Joining.joinsAfter before && meets Joining.joinsBefore rest
    (if c = joiner then isBehindVirama else if c = nonJoiner then isBehindVirama || parts else true)
      && joinersFit (c :: before) rest

/-- Whether a label may stand for a text: it does not start with a mark, its joiners have an
effect, and it is not too long. -/
def isValid (text : List Char) : Bool :=
  !text.head?.any isMark && joinersFit [] text && (text.all isAscii || text.length ≤ longestText)

/-! ## Directions -/

/-- Whether a text has characters that are written from right to left. -/
def hasRightToLeft (text : List Char) : Bool :=
  text.any fun c => Direction.of c = .rightToLeft || Direction.of c = .arabicNumber

/-- Whether a text keeps its order beside texts of either direction: it starts with a letter,
all of it goes with the direction of that letter, and it ends in a letter or a number. Of
the two kinds of numbers a text from right to left has one. -/
def isDirected (text : List Char) : Bool :=
  let directions := text.map Direction.of
  let last? := directions.reverse.find? (· ≠ .inherited)
  match directions.head? with
  | none => true
  | some .leftToRight =>
    directions.all (fun d => d ≠ .rightToLeft && d ≠ .arabicNumber) &&
      (last? = some .leftToRight || last? = some .europeanNumber)
  | some .rightToLeft =>
    directions.all (· ≠ .leftToRight) && last? ≠ some .neutral &&
      !(directions.contains .europeanNumber && directions.contains .arabicNumber)
  | some _ => false

/-! ## Writing -/

/-- The written form of a text that a label stands for. -/
def ascii (text : List Char) : List Char :=
  if text.all isAscii then text else mark ++ Punycode.encode text

end Label

end Domain

end PeerGateway
