import PeerGateway.Text.Blank
import PeerGateway.Text.Digit

/-!
# Tables of characters

Properties of characters as data. A `CharSet` is a set of characters as ranges of code
points, and a `CharMap` gives a text to each of some characters. Both are read from a list
of words in which code points are hexadecimal:

* `CharSet.ofText`: a word is a code point, or the first and the last one of a range with a
  hyphen between them;
* `CharMap.ofText`: a word `A=T` says that the character with the code point `A` has the
  text `T`, and a word `T` after it gives the next character its text; the code points of a
  text have plus signs between them.
-/

namespace PeerGateway

/-- The words of a text: its runs of characters that are not blank. -/
def words (s : String) : List (List Char) :=
  let step (c : Char) (ws : List (List Char)) : List (List Char) :=
    if isBlank c then [] :: ws
    else match ws with
      | [] => [[c]]
      | w :: ws => (c :: w) :: ws
  (s.toList.foldr step []).filter fun w => !w.isEmpty

/-- A set of characters, as closed ranges of code points. -/
structure CharSet where
  ranges : List (Nat × Nat)

namespace CharSet

/-- Whether a character is in the set. -/
def contains (s : CharSet) (c : Char) : Bool :=
  s.ranges.any fun (first, last) => first ≤ c.toNat && c.toNat ≤ last

/-- The range that a word stands for. -/
def range? (word : List Char) : Option (Nat × Nat) :=
  match (splitAtChar '-' word).mapM (numberIn? 16) with
  | some [only] => some (only, only)
  | some [first, last] => some (first, last)
  | _ => none

/-- The set of the ranges that the words of a text stand for. -/
def ofText (s : String) : CharSet := ⟨(words s).filterMap range?⟩

end CharSet

/-- Texts for some characters, as runs: the code point of the first character of a run, and
the texts for it and for those that follow it. -/
structure CharMap where
  runs : List (Nat × List (List Char))

namespace CharMap

/-- The text for a character, if there is one. -/
def find? (m : CharMap) (c : Char) : Option (List Char) :=
  m.runs.findSome? fun (first, texts) =>
    if first ≤ c.toNat then texts[c.toNat - first]? else none

/-- The first character with a text, if there is one. -/
def source? (m : CharMap) (text : List Char) : Option Char :=
  m.runs.findSome? fun (first, texts) =>
    (texts.idxOf? text).bind fun i => charOf? (first + i)

/-- The text that a word gives the code points of. -/
def text? (word : List Char) : Option (List Char) :=
  (splitAtChar '+' word).mapM fun code => (numberIn? 16 code).bind charOf?

/-- The map that the words of a text give. -/
def ofText (s : String) : CharMap :=
  let step (word : List Char) : List (List Char) × List (Nat × List (List Char)) → _
    | (texts, runs) =>
      match splitAtChar '=' word with
      | [text] => ((text? text).getD [] :: texts, runs)
      | [code, text] => ([], ((numberIn? 16 code).getD 0, (text? text).getD [] :: texts) :: runs)
      | _ => (texts, runs)
  ⟨((words s).foldr step ([], [])).2⟩

end CharMap

end PeerGateway
