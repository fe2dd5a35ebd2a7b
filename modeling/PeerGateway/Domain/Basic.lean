import PeerGateway.Domain.Label

/-!
# Domain names

Names of hosts in all scripts, and their form in ASCII that the name service knows.
Characters are replaced by what they stand for, the name is composed and taken apart into
labels at its points, and each label has to meet the rules for its text. In a name with
characters that are written from right to left all labels must keep their order.

`Domain.ascii?` gives the form in ASCII. Which characters of ASCII a name may have is left
to its use.
-/

namespace PeerGateway

namespace Domain

/-- The texts that the labels of a name stand for. -/
def labels? (name : List Char) : Option (List (List Char)) := do
  let meanings ← name.mapM meaning?
  let texts ← (splitAtChar '.' (normalized meanings.flatten)).mapM Label.text?
  if texts.all Label.isValid && (!texts.any Label.hasRightToLeft || texts.all Label.isDirected) then
    return texts
  else none

/-- The form of a name in ASCII, if it is one. -/
def ascii? (name : List Char) : Option (List Char) :=
  (labels? name).map fun texts => ['.'].intercalate (texts.map Label.ascii)

end Domain

end PeerGateway
