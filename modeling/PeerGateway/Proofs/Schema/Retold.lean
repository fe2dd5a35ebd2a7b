import PeerGateway.Proofs.Lists
import PeerGateway.Proofs.Schema.RoundTrip

/-!
# Values retold

What becomes of a value that is written and read (`Schema.parse_bytes_eq_ite`): it is read if every
number that must be there is finite (`Schema.isTold`), and then it is the same but for its numbers,
each of which is what its text is read as (`Schema.retold`). A number that may be null and is not
finite is read as none.
-/

namespace PeerGateway

open Json

namespace Binary64

variable {x : Binary64}

/-- What the text of a finite number is read as. -/
def retold (x : Binary64) : Binary64 := x.reread.toOption.getD x

theorem reread_eq (x : Binary64) :
    x.reread = if x.isFinite then .ok x.retold else .error .mismatched := by
  split_ifs with h
  · obtain ⟨y, hy, -⟩ := exists_reread h
    rw [retold, hy]
    rfl
  · exact Schema.reread_eq_error (Bool.not_eq_true _ ▸ h)

theorem realText_ne_null (h : x.isFinite = true) : realText x ≠ nullText := by
  obtain ⟨-, -, -, hstarts, -⟩ := exists_reread h
  exact fun hnull => not_startsValue_null (hnull ▸ hstarts)

end Binary64

namespace Presence

variable {α : Type} {bytes : α → Bytes} {f : α → Except Fault α} {told : α → Bool} {g : α → α}

/-- Whether a field is read, when its value is told by a condition. -/
def isTold (bytes : α → Bytes) (told : α → Bool) : (p : Presence) → p.Wrap α → Bool
  | .required, a => told a
  | .nullable, v => v.all fun a => decide (bytes a = nullText) || told a
  | .defaulted, v => v.all told

/-- What a field is read as, when it is. -/
def retold (bytes : α → Bytes) (g : α → α) : (p : Presence) → p.Wrap α → p.Wrap α
  | .required, a => g a
  | .nullable, v => (v.filter fun a => decide (bytes a ≠ nullText)).map g
  | .defaulted, v => v.map g

theorem reread_eq_ite (hf : ∀ a, f a = if told a then .ok (g a) else .error .mismatched)
    (p : Presence) (v : p.Wrap α) : p.reread bytes f v =
      if p.isTold bytes told v then .ok (p.retold bytes g v) else .error .mismatched := by
  cases p with
  | required => exact hf v
  | nullable =>
    cases v with
    | none => rfl
    | some a =>
      by_cases hnull : bytes a = nullText
      · simp [reread, isTold, retold, hnull]
      · by_cases htold : told a = true
        · simp [reread, isTold, retold, hf, hnull, htold, Except.map]
        · simp [reread, isTold, hf, hnull, htold, Except.map]
  | defaulted =>
    cases v with
    | none => rfl
    | some a =>
      by_cases htold : told a = true
      · simp [reread, isTold, retold, hf, htold, Except.map]
      · simp [reread, isTold, hf, htold, Except.map]

theorem retold_nullable {v : Option α} (h : ∀ a ∈ v, bytes a ≠ nullText) :
    retold bytes g .nullable v = v.map g := by
  cases v with
  | none => rfl
  | some a => simp [retold, h a rfl]

end Presence

mutual

/-- Whether a value is read from its text: every number that must be there is finite. -/
def Schema.isTold : (s : Schema) → s.Value → Bool
  | .text, _ => true
  | .flag, _ => true
  | .word16, _ => true
  | .word64, _ => true
  | .real, x => x.isFinite
  | .choice _, _ => true
  | .list element, vs => vs.all element.isTold
  | .record _ fields, v => fields.isTold v

def Fields.isTold : (fs : Fields) → fs.Value → Bool
  | .empty, () => true
  | .field _ p schema more, (v, vs) => p.isTold schema.bytes schema.isTold v && more.isTold vs

end

mutual

/-- What the text of a value is read as, when it is. -/
def Schema.retold : (s : Schema) → s.Value → s.Value
  | .text, v => v
  | .flag, v => v
  | .word16, v => v
  | .word64, v => v
  | .real, x => x.retold
  | .choice _, i => i
  | .list element, vs => vs.map element.retold
  | .record _ fields, v => fields.retold v

def Fields.retold : (fs : Fields) → fs.Value → fs.Value
  | .empty, () => ()
  | .field _ p schema more, (v, vs) => (p.retold schema.bytes schema.retold v, more.retold vs)

end

mutual

theorem Schema.reread_eq_ite : ∀ (s : Schema) (v : s.Value),
    s.reread v = if s.isTold v then .ok (s.retold v) else .error .mismatched
  | .text, _ => rfl
  | .flag, _ => rfl
  | .word16, _ => rfl
  | .word64, _ => rfl
  | .real, x => x.reread_eq
  | .choice _, _ => rfl
  | .list element, vs => mapM_eq_ite (Schema.reread_eq_ite element) vs
  | .record _ fields, v => Fields.reread_eq_ite fields v

theorem Fields.reread_eq_ite : ∀ (fs : Fields) (v : fs.Value),
    fs.reread v = if fs.isTold v then .ok (fs.retold v) else .error .mismatched
  | .empty, () => rfl
  | .field _ p schema more, (v, vs) => by
    rw [Fields.reread, Presence.reread_eq_ite (Schema.reread_eq_ite schema),
      Fields.reread_eq_ite more vs, Fields.isTold, Fields.retold]
    cases p.isTold schema.bytes schema.isTold v with
    | false => rfl
    | true => cases more.isTold vs <;> rfl

end

/-- A value of a sound schema is read from its text as `Schema.retold` has it, or is a mismatch. -/
theorem Schema.parse_bytes_eq_ite {s : Schema} (hs : s.IsSound) (v : s.Value) :
    s.parse (s.bytes v) = if s.isTold v then .ok (s.retold v) else .error .mismatched :=
  (Schema.parse_bytes_eq hs v).trans (s.reread_eq_ite v)

end PeerGateway
