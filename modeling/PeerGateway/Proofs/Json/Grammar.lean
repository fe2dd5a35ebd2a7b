import PeerGateway.Proofs.Json.Containers
import Mathlib.Data.List.Forall2

/-!
# The grammar of JSON

Which texts are JSON values (`Json.IsValue`), with any blanks between their tokens, numbers of any
size, strings with any escapes, and nesting of any depth. A text with the blanks around it is
`Json.Padded`, and a list or an object is made of such texts with commas between them
(`Json.Open.enclosed`).

The grammar says of a string only that it ends where it seems to. Which characters it has, in
whatever spelling, is said by `Json.Spells`; it leaves out the strings with half a surrogate pair,
which have none. Every reader skips the blanks in front of a token (`Json.skipBlank_blanks`), and
so those behind the token before.
-/

namespace PeerGateway

namespace Json

/-! ## Blanks -/

/-- A byte that means nothing between two tokens. -/
def IsBlank (b : UInt8) : Prop := b = 0x20 ∨ b = 0x0A ∨ b = 0x09 ∨ b = 0x0D

/-- What may stand between two tokens. -/
structure Blanks where
  text : Bytes
  areBlank : ∀ b ∈ text, IsBlank b

/-- No blanks. -/
def Blanks.none : Blanks := ⟨[], nofun⟩

@[simp] theorem Blanks.text_none : none.text = [] := rfl

/-- A text with the blanks around it. -/
structure Padded where
  before : Blanks
  core : Bytes
  after : Blanks

def Padded.text (p : Padded) : Bytes := p.before.text ++ (p.core ++ p.after.text)

theorem Padded.text_append (p : Padded) (s : Bytes) :
    p.text ++ s = p.before.text ++ (p.core ++ (p.after.text ++ s)) := by
  simp [Padded.text]

/-- A text without blanks around it. -/
def Padded.bare (core : Bytes) : Padded := ⟨.none, core, .none⟩

@[simp] theorem Padded.text_bare (core : Bytes) : (bare core).text = core :=
  List.append_nil core

theorem skipBlank_blanks (bl : Blanks) (s : Bytes) : skipBlank (bl.text ++ s) = skipBlank s := by
  obtain ⟨bs, hbs⟩ := bl
  induction bs with
  | nil => rfl
  | cons b bs ih =>
    have hb : (b = 0x20 || b = 0x0A || b = 0x09 || b = 0x0D) = true := by
      rcases hbs b List.mem_cons_self with rfl | rfl | rfl | rfl <;> decide
    show skipBlank (b :: (bs ++ s)) = _
    rw [skipBlank, if_pos hb]
    exact ih fun b' hb' => hbs b' (List.mem_cons_of_mem b hb')

theorem endsNumber_blanks (bl : Blanks) {s : Bytes} (hs : EndsNumber s) :
    EndsNumber (bl.text ++ s) := by
  obtain ⟨bs, hbs⟩ := bl
  cases bs with
  | nil => exact hs
  | cons b bs =>
    refine endsNumber_cons _ ?_
    rcases hbs b List.mem_cons_self with rfl | rfl | rfl | rfl <;> decide

/-! ## Strings -/

/-- Four hexadecimal digits and the number that they are. -/
inductive IsQuad : Bytes → ℕ → Prop
  | intro {a b c d : UInt8} {w x y z : ℕ} (ha : Bytes.hexValue? a = some w)
      (hb : Bytes.hexValue? b = some x) (hc : Bytes.hexValue? c = some y)
      (hd : Bytes.hexValue? d = some z) : IsQuad [a, b, c, d] (((w * 16 + x) * 16 + y) * 16 + z)

/-- The letters that are escapes with a backslash, and the characters that they stand for. -/
def shortEscapes : List (Char × Char) :=
  [('"', '"'), ('\\', '\\'), ('/', '/'), ('b', '\x08'), ('f', '\x0c'), ('n', '\n'), ('r', '\r'),
    ('t', '\t')]

/-- A part of a string: a byte of its own, or an escape. -/
inductive IsPart : Bytes → Prop
  | plain {b : UInt8} (h : IsPlain b) : IsPart [b]
  | short {letter c : Char} (h : (letter, c) ∈ shortEscapes) :
      IsPart [Bytes.ascii '\\', Bytes.ascii letter]
  | unit {ds : Bytes} {n : ℕ} (h : IsQuad ds n) :
      IsPart (Bytes.ascii '\\' :: Bytes.ascii 'u' :: ds)

/-- The parts of a string in quotes. -/
def quotedParts (parts : List Bytes) : Bytes :=
  Bytes.ascii '"' :: (parts.flatten ++ [Bytes.ascii '"'])

/-- A text is a string, of whatever characters. -/
def IsString (t : Bytes) : Prop := ∃ parts, (∀ p ∈ parts, IsPart p) ∧ t = quotedParts parts

/-- A text stands for a character inside a string. A character beyond the first plane has a pair of
surrogates for an escape. -/
inductive SpellsChar : Bytes → Char → Prop
  | plain {c : Char} (hquote : c ≠ '"') (hslash : c ≠ '\\') (hcontrol : ¬c.toNat < 0x20) :
      SpellsChar (String.utf8EncodeChar c) c
  | short {letter c : Char} (h : (letter, c) ∈ shortEscapes) :
      SpellsChar [Bytes.ascii '\\', Bytes.ascii letter] c
  | unit {ds : Bytes} {c : Char} (h : IsQuad ds c.toNat) :
      SpellsChar (Bytes.ascii '\\' :: Bytes.ascii 'u' :: ds) c
  | pair {lead trail : Bytes} {high low : ℕ} {c : Char} (hlead : IsQuad lead (0xD800 + high))
      (htrail : IsQuad trail (0xDC00 + low)) (hlow : low < 0x400)
      (hc : c.toNat = 0x10000 + high * 0x400 + low) :
      SpellsChar (Bytes.ascii '\\' :: Bytes.ascii 'u' :: (lead ++
        Bytes.ascii '\\' :: Bytes.ascii 'u' :: trail)) c

/-- A text is a string of the given characters. -/
def Spells (t : Bytes) (s : String) : Prop :=
  ∃ parts, List.Forall₂ SpellsChar parts s.toList ∧ t = quotedParts parts

/-! ## Numbers -/

/-- One digit or more. -/
def IsDigits (ds : Bytes) : Prop := ds ≠ [] ∧ ∀ d ∈ ds, Bytes.isDigit d = true

/-- A point and digits. -/
def IsFraction (t : Bytes) : Prop := ∃ ds, IsDigits ds ∧ t = Bytes.ascii '.' :: ds

/-- The letter of an exponent, a sign if there is one, and digits. -/
def IsExponent (t : Bytes) : Prop :=
  ∃ letter sign ds, letter ∈ [Bytes.ascii 'e', Bytes.ascii 'E'] ∧
    sign ∈ [[], [Bytes.ascii '-'], [Bytes.ascii '+']] ∧ IsDigits ds ∧ t = letter :: (sign ++ ds)

/-- A text is a number. Its digits before the point begin with a zero only for zero. -/
inductive IsNumber : Bytes → Prop
  | intro {sign whole fraction exponent : Bytes} (hsign : sign ∈ [[], [Bytes.ascii '-']])
      (hwhole : IsDigits whole) (hzero : whole.head? = some (Bytes.ascii '0') → whole.length = 1)
      (hfraction : fraction = [] ∨ IsFraction fraction)
      (hexponent : exponent = [] ∨ IsExponent exponent) :
      IsNumber (sign ++ (whole ++ (fraction ++ exponent)))

/-! ## Values -/

/-- The mark that opens a container. -/
def Open.opening : Open → UInt8
  | .list => Bytes.ascii '['
  | .object => Bytes.ascii '{'

/-- A container of written elements or members, with the last blanks before it closes. -/
def Open.enclosed (c : Open) (pieces : List Bytes) (last : Blanks) : Bytes :=
  c.opening :: (separated pieces ++ (last.text ++ [c.mark]))

theorem Open.enclosed_list (pieces : List Bytes) :
    Open.list.enclosed pieces .none = bracketed pieces :=
  rfl

theorem Open.enclosed_object (pieces : List Bytes) :
    Open.object.enclosed pieces .none = braced pieces :=
  rfl

/-- A member of an object as it is written. -/
structure Member where
  name : Padded
  value : Padded

def Member.text (m : Member) : Bytes := m.name.text ++ Bytes.ascii ':' :: m.value.text

theorem Member.text_append (m : Member) (s : Bytes) :
    m.text ++ s = m.name.text ++ Bytes.ascii ':' :: (m.value.text ++ s) := by
  simp [Member.text]

/-- A text is a JSON value. -/
inductive IsValue : Bytes → Prop
  | null : IsValue nullText
  | flag (b : Bool) : IsValue (flagText b)
  | number {t : Bytes} (h : IsNumber t) : IsValue t
  | string {t : Bytes} (h : IsString t) : IsValue t
  | list (es : List Padded) (last : Blanks) (h : ∀ e ∈ es, IsValue e.core) :
      IsValue (Open.list.enclosed (es.map Padded.text) last)
  | object (ms : List Member) (last : Blanks) (hname : ∀ m ∈ ms, IsString m.name.core)
      (hvalue : ∀ m ∈ ms, IsValue m.value.core) :
      IsValue (Open.object.enclosed (ms.map Member.text) last)

theorem startsValue_quotedParts (parts : List Bytes) : StartsValue (quotedParts parts) :=
  ⟨_, _, rfl, by decide⟩

theorem startsValue_enclosed (c : Open) (pieces : List Bytes) (last : Blanks) :
    StartsValue (c.enclosed pieces last) :=
  ⟨_, _, rfl, by cases c <;> decide⟩

theorem IsDigits.exists_cons {ds : Bytes} (h : IsDigits ds) :
    ∃ d ds', ds = d :: ds' ∧ Bytes.isDigit d = true ∧ ∀ d ∈ ds', Bytes.isDigit d = true := by
  obtain ⟨hne, hall⟩ := h
  obtain ⟨d, ds, rfl⟩ := List.exists_cons_of_ne_nil hne
  exact ⟨d, ds, rfl, hall d List.mem_cons_self, fun d' hd' => hall d' (List.mem_cons_of_mem d hd')⟩

/-- No value begins with a blank, or with the mark that closes a list. -/
theorem IsValue.startsText {t : Bytes} (h : IsValue t) : StartsText t := by
  cases h with
  | null => exact Or.inr rfl
  | flag b => cases b <;> exact Or.inl ⟨_, _, rfl, by decide⟩
  | number h =>
    obtain ⟨hsign, hwhole, -, -, -⟩ := h
    obtain ⟨d, ds, rfl, hd, -⟩ := hwhole.exists_cons
    rcases List.mem_pair.mp hsign with rfl | rfl
    · exact Or.inl ⟨d, _, rfl, by simp [opensValue, hd]⟩
    · exact Or.inl ⟨_, _, rfl, by decide⟩
  | string h =>
    obtain ⟨parts, -, rfl⟩ := h
    exact Or.inl (startsValue_quotedParts parts)
  | list => exact Or.inl (startsValue_enclosed ..)
  | object => exact Or.inl (startsValue_enclosed ..)

end Json

end PeerGateway
