import PeerGateway.Schema.Read
import PeerGateway.Proofs.Json.Containers
import PeerGateway.Proofs.Json.Reals
import PeerGateway.Proofs.Lists

/-!
# Values of a schema read back

What the text of a value is read as, `Schema.reread`, follows from what the texts of its binary64
numbers are read as (`Binary64.reread`): a finite number's as a finite number, which may be another
one, and that of any other as no number. All else is read back as it is. The schema must tell its
names apart (`Schema.IsSound`); then the reader comes to that result with every value
(`Schema.readsTo_bytes`, `Schema.parse_bytes_eq`), and to the value itself if its numbers read back
by themselves (`Schema.readsAs_bytes`).

A record is read member by member. `Fields.Leads` says that some members, read one after the
other, lead from one draft to another or to a fault, and what the members of some fields lead to,
more fields in front of them leave alone (`Fields.Leads.lift`).
-/

namespace PeerGateway

open Json

/-! ## Scalars -/

/-- The text of a number is read as that number, and all of the text. -/
def Binary64.ReadsBack (x : Binary64) : Prop :=
  Schema.real.read (realText x).length (realText x) = .ok (x, [])

instance (x : Binary64) : Decidable x.ReadsBack :=
  inferInstanceAs (Decidable (Schema.real.read (realText x).length (realText x) = .ok (x, [])))

namespace Schema

variable {bound : ℕ}

theorem readsAs_text (t : String) : ReadsAs bound (readText bound) (quoted t) t := by
  intro rest _ hbound
  have htext : quoted t ++ rest =
      Bytes.ascii '"' :: (t.toList.flatMap escaped ++ Bytes.ascii '"' :: rest) := by
    simp [quoted]
  rw [htext] at hbound ⊢
  simp only [List.length_cons, List.length_append] at hbound
  rw [readText, skipBlank_cons _ (by decide)]
  exact stringRest_quoted t rest (by omega)

theorem readsAs_flag (b : Bool) : ReadsAs bound (readFlag bound) (flagText b) b := by
  intro rest _ _
  cases b with
  | true =>
    have htext : flagText true = Bytes.ascii 't' :: Bytes.ofString "rue" := by decide
    rw [htext, List.cons_append, readFlag, skipBlank_cons _ (by decide)]
    simp only [if_true, literalRest_append]
  | false =>
    have htext : flagText false = Bytes.ascii 'f' :: Bytes.ofString "alse" := by decide
    have hne : Bytes.ascii 'f' ≠ Bytes.ascii 't' := by decide
    rw [htext, List.cons_append, readFlag, skipBlank_cons _ (by decide)]
    simp only [if_neg hne, if_true, literalRest_append]

theorem opensValue_of_isDigit {b : UInt8} (h : Bytes.isDigit b = true) : opensValue b = true := by
  simp [opensValue, h]

theorem startsValue_decimal (n : ℕ) : StartsValue (decimal n) := by
  obtain ⟨i, t, hi, htext, -⟩ := exists_decimal_eq_cons n
  exact ⟨_, t, htext, opensValue_of_isDigit (isDigit_digitByte i hi)⟩

/-- A word is read back by a reader that takes it as it is. -/
theorem readsAs_decimal {α : Type} {convert : Number → Option α} {n : ℕ} {a : α}
    (hn : n < UInt64.size) (h : convert (.whole (UInt64.ofNat n)) = some a) :
    ReadsAs bound (readNumberAs convert bound) (decimal n) a := by
  intro rest hends _
  obtain ⟨i, t, hi, htext, -⟩ := exists_decimal_eq_cons n
  have hdigit := isDigit_digitByte i hi
  have hminus : digitByte i ≠ Bytes.ascii '-' := by
    intro hminus
    rw [hminus] at hdigit
    exact absurd hdigit (by decide)
  have hread := numberRest_decimal hn hends
  rw [htext, List.cons_append] at hread ⊢
  rw [readNumberAs, skipBlank_of_opensValue _ (opensValue_of_isDigit hdigit)]
  simp only [hdigit, Bool.or_true, if_true, readNumber, if_neg hminus, hread, h]

end Schema

/-! ## Real numbers -/

/-- What the text of a number is read as. -/
def Binary64.reread (x : Binary64) : Except Fault Binary64 :=
  (Schema.real.read (realText x).length (realText x)).map Prod.fst

theorem Binary64.ReadsBack.reread_eq {x : Binary64} (h : x.ReadsBack) : x.reread = .ok x := by
  rw [reread, h]
  rfl

/-- The text of a finite number is read as a finite number, whatever follows. -/
theorem Binary64.exists_reread {x : Binary64} (h : x.isFinite = true) : ∃ y,
    x.reread = .ok y ∧ y.isFinite = true ∧ StartsValue (realText x) ∧
      ∀ bound, ReadsAs bound (Schema.readNumberAs Number.real? bound) (realText x) y := by
  obtain ⟨b, t, y, htext, hfirst, hread, hfinite⟩ := exists_readNumber_realText h
  have hopens : opensValue b = true := by
    rcases Bool.or_eq_true_iff.mp hfirst with hminus | hdigit
    · rw [of_decide_eq_true hminus]
      decide
    · exact Schema.opensValue_of_isDigit hdigit
  have hreads (bound : ℕ) :
      ReadsAs bound (Schema.readNumberAs Number.real? bound) (realText x) y := by
    intro rest hends _
    rw [htext, List.cons_append, Schema.readNumberAs, skipBlank_of_opensValue _ hopens]
    simp only [hfirst, if_true, readNumber_append hends hread, Number.real?, List.nil_append]
  refine ⟨y, ?_, hfinite, ⟨b, t, htext, hopens⟩, hreads⟩
  have halone := hreads (realText x).length [] endsNumber_nil (by simp)
  rw [List.append_nil] at halone
  rw [reread, Schema.read, halone]
  rfl

theorem Binary64.realText_eq_null {x : Binary64} (h : x.isFinite = false) :
    realText x = nullText := by
  rw [realText, Binary64.text?, if_neg (by simp [h])]

namespace Schema

/-- Null is no number. -/
theorem readsTo_null {α : Type} (convert : Number → Option α) :
    ReadsTo bound (readNumberAs convert bound) nullText (.error .mismatched) := by
  intro rest _ _
  have hnull : nullText = Bytes.ascii 'n' :: Bytes.ofString "ull" := by decide
  have hfirst : ¬(Bytes.ascii 'n' = Bytes.ascii '-' || Bytes.isDigit (Bytes.ascii 'n')) = true := by
    decide
  rw [hnull, List.cons_append, readNumberAs, skipBlank_cons _ (by decide)]
  simp only [if_neg hfirst, mismatchAt, if_true, literalRest_append]
  rfl

theorem reread_eq_error {x : Binary64} (h : x.isFinite = false) :
    x.reread = .error .mismatched := by
  have hnull := @readsTo_null nullText.length _ Number.real? [] endsNumber_nil (by simp)
  rw [List.append_nil] at hnull
  rw [Binary64.reread, Binary64.realText_eq_null h, Schema.read, hnull]
  rfl

theorem readsTo_real (x : Binary64) :
    ReadsTo bound (readNumberAs Number.real? bound) (realText x) x.reread := by
  cases hfinite : x.isFinite with
  | true =>
    obtain ⟨y, hy, -, -, hreads⟩ := Binary64.exists_reread hfinite
    rw [hy]
    exact hreads bound
  | false =>
    rw [reread_eq_error hfinite, Binary64.realText_eq_null hfinite]
    exact readsTo_null Number.real?

theorem startsText_real (x : Binary64) : StartsText (realText x) := by
  cases hfinite : x.isFinite with
  | true =>
    obtain ⟨y, -, -, hstarts, -⟩ := Binary64.exists_reread hfinite
    exact Or.inl hstarts
  | false => exact Or.inr (Binary64.realText_eq_null hfinite)

/-! ## Choices -/

theorem startsValue_quoted (t : String) : StartsValue (quoted t) :=
  ⟨_, _, rfl, by decide⟩

theorem readsAs_choice {names : List String} (h : names.Nodup) (i : Fin names.length) :
    ReadsAs bound (readChoice names bound) (quoted (names.get i)) i := by
  intro rest hends hbound
  have hread := readsAs_text (names.get i) rest hends hbound
  rw [show quoted (names.get i) ++ rest = Bytes.ascii '"' ::
    ((names.get i).toList.flatMap escaped ++ [Bytes.ascii '"'] ++ rest) from rfl] at hread ⊢
  rw [readChoice, skipBlank_cons _ (by decide)]
  simp only [decide_true, Bool.true_or, if_true, hread, finIdxOf?_get h]

end Schema

/-! ## Fields that are there -/

namespace Presence

variable {α : Type} {bound : ℕ} {value : Bytes → Except Fault (α × Bytes)} {bytes : α → Bytes}

/-- The values in a field. -/
def values : (p : Presence) → p.Wrap α → List α
  | .required, a => [a]
  | .nullable, a => a.toList
  | .defaulted, a => a.toList

/-- The text of a field's member, unless it is left out. -/
def written? (bytes : α → Bytes) : (p : Presence) → p.Wrap α → Option Bytes
  | .required, a => some (bytes a)
  | .nullable, a => some (a.elim nullText bytes)
  | .defaulted, a => a.map bytes

/-- What a field that is there is read as. Where a field may be null, a value that is written so is
read as none. -/
def reread (bytes : α → Bytes) (f : α → Except Fault α) :
    (p : Presence) → p.Wrap α → Except Fault (p.Wrap α)
  | .required, a => f a
  | .nullable, v =>
    match v with
    | none => .ok none
    | some a => if bytes a = nullText then .ok none else (f a).map some
  | .defaulted, v =>
    match v with
    | none => .ok none
    | some a => (f a).map some

/-- A field is read to what its value is read to. -/
theorem readsTo {f : α → Except Fault α} (p : Presence) (v : p.Wrap α)
    (h : ∀ a ∈ p.values v, ReadsTo bound value (bytes a) (f a) ∧ StartsText (bytes a))
    {text : Bytes} (htext : p.written? bytes v = some text) :
    ReadsTo bound (p.read value) text (p.reread bytes f v) := by
  intro rest hends hbound
  have hnull : nullText = Bytes.ascii 'n' :: Bytes.ofString "ull" := by decide
  cases p with
  | required =>
    obtain rfl := Option.some.inj htext
    exact (h v (by simp [values])).1 rest hends hbound
  | nullable =>
    obtain rfl := Option.some.inj htext
    have hnone : Presence.read value .nullable (nullText ++ rest) = .ok (none, rest) := by
      rw [hnull, List.cons_append, Presence.read, skipBlank_cons _ (by decide)]
      simp only [if_true, literalRest_append]
    cases v with
    | none => exact hnone
    | some a =>
      obtain ⟨hread, hstart⟩ := h a (by simp [values])
      rw [Option.elim] at hbound ⊢
      simp only [reread]
      split_ifs with hwritten
      · rw [hwritten]
        exact hnone
      · obtain ⟨b, t, htext, hopens⟩ := hstart.resolve_right hwritten
        have hne : b ≠ Bytes.ascii 'n' := ne_of_opensValue hopens (by decide)
        have hvalue := hread rest hends hbound
        rw [htext, List.cons_append] at hvalue ⊢
        rw [Presence.read, skipBlank_of_opensValue _ hopens]
        simp only [if_neg hne, hvalue]
        cases f a <;> rfl
  | defaulted =>
    obtain ⟨a, rfl, rfl⟩ := Option.map_eq_some_iff.mp htext
    have hvalue := (h a (by simp [values])).1 rest hends hbound
    simp only [Presence.read, reread, hvalue]
    cases f a <;> rfl

/-- What is read of a field that was written is not missing, and what is left out is missing. -/
theorem map_written?_of_reread {f : α → Except Fault α} {p : Presence} {v w : p.Wrap α}
    (h : p.reread bytes f v = .ok w) :
    ((p.written? bytes v).map fun _ => w) = (p.written? bytes w).map fun _ => w := by
  cases p with
  | required => rfl
  | nullable => rfl
  | defaulted =>
    cases v with
    | none =>
      obtain rfl := Except.ok.inj h
      rfl
    | some a =>
      simp only [reread] at h
      cases hfa : f a with
      | error fault => simp [hfa, Except.map] at h
      | ok b =>
        obtain rfl : some b = w := by simpa [hfa, Except.map] using h
        rfl

theorem reread_of_written?_eq_none {f : α → Except Fault α} {p : Presence} {v : p.Wrap α}
    (h : p.written? bytes v = none) : p.reread bytes f v = .ok v := by
  cases p with
  | required => simp [written?] at h
  | nullable => simp [written?] at h
  | defaulted =>
    obtain rfl := Option.map_eq_none_iff.mp h
    rfl

theorem reread_eq_ok {f : α → Except Fault α} {p : Presence} {v : p.Wrap α}
    (h : ∀ a ∈ p.values v, f a = .ok a ∧ bytes a ≠ nullText) : p.reread bytes f v = .ok v := by
  cases p with
  | required => exact (h v (by simp [values])).1
  | nullable =>
    cases v with
    | none => rfl
    | some a =>
      obtain ⟨hf, hne⟩ := h a (by simp [values])
      simp only [reread, if_neg hne, hf]
      rfl
  | defaulted =>
    cases v with
    | none => rfl
    | some a =>
      simp only [reread, (h a (by simp [values])).1]
      rfl

end Presence

/-! ## Members in a row -/

namespace Fields

section Leads

variable {δ : Type} {known : String → δ → Bytes → Option (Except Fault (δ × Bytes))}
  {bound : ℕ} {names : List String} {d d' : δ} {ms : List Bytes} {r : Except Fault δ}

/-- The members, whose names are among some names, lead from one draft to another, or to the fault
of one of them. -/
inductive Leads (known : String → δ → Bytes → Option (Except Fault (δ × Bytes))) (bound : ℕ)
    (names : List String) : δ → List Bytes → Except Fault δ → Prop
  | nil (d : δ) : Leads known bound names d [] (.ok d)
  | cons {name : String} {value : Bytes} {d d' : δ} {ms : List Bytes} {r : Except Fault δ}
      (hname : name ∈ names)
      (hread : ∀ rest, EndsNumber rest → (value ++ rest).length ≤ bound →
        known name d (Bytes.ascii ':' :: (value ++ rest)) = some (.ok (d', rest)))
      (hms : Leads known bound names d' ms r) :
      Leads known bound names d (memberText name value :: ms) r
  | fail {name : String} {value : Bytes} {d : δ} {f : Fault} (ms : List Bytes)
      (hname : name ∈ names)
      (hread : ∀ rest, EndsNumber rest → (value ++ rest).length ≤ bound →
        known name d (Bytes.ascii ':' :: (value ++ rest)) = some (.error f)) :
      Leads known bound names d (memberText name value :: ms) (.error f)

/-- One more member. -/
theorem readObject_step {fuel : ℕ} {first : Bool} {name : String} {s s' t : Bytes}
    (hnext : nextMember bound first s = .ok (some (name, s')))
    (hknown : known name d s' = some (.ok (d', t))) :
    readObject known bound (fuel + 1) first d s = readObject known bound fuel false d' t := by
  simp only [readObject, hnext, hknown]

/-- The fault of a member. -/
theorem readObject_fail {fuel : ℕ} {first : Bool} {name : String} {s s' : Bytes} {f : Fault}
    (hnext : nextMember bound first s = .ok (some (name, s')))
    (hknown : known name d s' = some (.error f)) :
    readObject known bound (fuel + 1) first d s = .error f := by
  simp only [readObject, hnext, hknown]

/-- A member and what follows it leave a bound for the value and for what follows. -/
theorem length_of_member {name : String} {value s : Bytes}
    (h : (memberText name value ++ s).length ≤ bound) :
    (value ++ s).length ≤ bound ∧ s.length ≤ bound := by
  simp only [memberText, List.length_append, List.length_cons] at h ⊢
  omega

/-- The members after the first one, each behind a comma. -/
theorem Leads.readObject_commas (h : Leads known bound names d ms r) (rest : Bytes) :
    ∀ fuel, ms.length < fuel →
      (ms.flatMap (Bytes.ascii ',' :: ·) ++ Bytes.ascii '}' :: rest).length ≤ bound →
      readObject known bound fuel false d
        (ms.flatMap (Bytes.ascii ',' :: ·) ++ Bytes.ascii '}' :: rest) = r.map (·, rest) := by
  induction h with
  | nil d =>
    intro fuel hfuel _
    obtain ⟨fuel, rfl⟩ := Nat.exists_eq_succ_of_ne_zero (Nat.ne_of_gt hfuel)
    rw [List.flatMap_nil, List.nil_append, readObject, nextMember_brace, closeObject_brace]
    rfl
  | @cons name value d d' ms r _ hread _ ih =>
    intro fuel hfuel hbound
    obtain ⟨fuel, rfl⟩ := Nat.exists_eq_succ_of_ne_zero (Nat.ne_zero_of_lt hfuel)
    rw [List.flatMap_cons, List.append_assoc, List.cons_append] at hbound ⊢
    have hafter := Nat.le_of_succ_le hbound
    obtain ⟨hvalue, hmore⟩ := length_of_member hafter
    have hfirst := hread _ (endsNumber_commas ms (endsNumber_brace rest)) hvalue
    rw [readObject_step (nextMember_next hafter) hfirst]
    exact ih fuel (by rw [List.length_cons] at hfuel; omega) hmore
  | @fail name value d f ms _ hread =>
    intro fuel hfuel hbound
    obtain ⟨fuel, rfl⟩ := Nat.exists_eq_succ_of_ne_zero (Nat.ne_zero_of_lt hfuel)
    rw [List.flatMap_cons, List.append_assoc, List.cons_append] at hbound ⊢
    have hafter := Nat.le_of_succ_le hbound
    have hfirst := hread _ (endsNumber_commas ms (endsNumber_brace rest))
      (length_of_member hafter).1
    exact readObject_fail (nextMember_next hafter) hfirst

/-- An object of some members is read after its opening brace to what the members lead to. -/
theorem Leads.readObject (h : Leads known bound names d ms r) (rest : Bytes)
    (hbound : (separated ms ++ Bytes.ascii '}' :: rest).length ≤ bound) :
    readObject known bound (bound + 1) true d (separated ms ++ Bytes.ascii '}' :: rest) =
      r.map (·, rest) := by
  cases h with
  | nil =>
    rw [separated, List.nil_append, Fields.readObject, nextMember_brace, closeObject_brace]
    rfl
  | @cons name value _ d' ms _ _ hread hms =>
    rw [separated_cons, List.append_assoc] at hbound ⊢
    obtain ⟨hvalue, hmore⟩ := length_of_member hbound
    have hlength := length_le_length_commas ms
    have hfirst := hread _ (endsNumber_commas ms (endsNumber_brace rest)) hvalue
    rw [readObject_step (nextMember_first hbound) hfirst]
    refine hms.readObject_commas rest bound ?_ hmore
    simp only [List.length_append, List.length_cons] at hmore
    omega
  | @fail name value _ f ms _ hread =>
    rw [separated_cons, List.append_assoc] at hbound ⊢
    have hfirst := hread _ (endsNumber_commas ms (endsNumber_brace rest))
      (length_of_member hbound).1
    exact readObject_fail (nextMember_first hbound) hfirst

/-- Members that lead somewhere do so also with a field in front that has none of their names. -/
theorem Leads.lift {name : String} {more : Fields} {d : more.Draft} {r : Except Fault more.Draft}
    (h : Leads (more.readMember bound) bound names d ms r) (hname : name ∉ names) (p : Presence)
    (schema : Schema) (slot : Option (p.Wrap schema.Value)) :
    Leads ((field name p schema more).readMember bound) bound (name :: names)
      (slot, d) ms (r.map (slot, ·)) := by
  induction h with
  | nil d => exact .nil _
  | @cons key value d d' ms r hkey hread _ ih =>
    refine .cons (List.mem_cons_of_mem name hkey) (fun rest hends hbound => ?_) ih
    have hne : key ≠ name := fun h => hname (h ▸ hkey)
    rw [readMember, if_neg hne, hread rest hends hbound]
  | @fail key value d f ms hkey hread =>
    refine .fail ms (List.mem_cons_of_mem name hkey) (fun rest hends hbound => ?_)
    have hne : key ≠ name := fun h => hname (h ▸ hkey)
    rw [readMember, if_neg hne, hread rest hends hbound]

end Leads

/-- The names of the fields. -/
@[simp] def names : Fields → List String
  | .empty => []
  | .field name _ _ more => name :: more.names

/-- The draft of a record that was read: only what was left out is missing. -/
def filled : (fs : Fields) → fs.Value → fs.Draft
  | .empty, () => ()
  | .field _ p schema more, (v, vs) =>
    ((p.written? schema.bytes v).map fun _ => v, more.filled vs)

theorem memberBytes_field (name : String) (p : Presence) (schema : Schema) (more : Fields)
    (v : p.Wrap schema.Value) (vs : more.Value) :
    (field name p schema more).memberBytes (v, vs) =
      ((p.written? schema.bytes v).map (memberText name)).toList ++ more.memberBytes vs := by
  cases p with
  | required => rfl
  | nullable => cases v <;> rfl
  | defaulted => cases v <;> rfl

/-- What was left out of a record stands for what it had. -/
theorem finish?_filled : ∀ (fs : Fields) (v : fs.Value), fs.finish? (fs.filled v) = some v
  | .empty, () => rfl
  | .field _ p schema more, (v, vs) => by
    have hslot : ((p.written? schema.bytes v).map fun _ => v).or
        (p.absent? schema.Value) = some v := by
      cases p with
      | required => rfl
      | nullable => rfl
      | defaulted => cases v <;> rfl
    rw [filled, finish?, hslot, finish?_filled more vs]

end Fields

/-! ## Values of a schema -/

mutual

/-- The names of a choice are different, and so are those of the fields of a record. -/
@[simp] def Schema.IsSound : Schema → Prop
  | .text => True
  | .flag => True
  | .word16 => True
  | .word64 => True
  | .real => True
  | .choice names => names.Nodup
  | .list element => element.IsSound
  | .record _ fields => fields.IsSound

@[simp] def Fields.IsSound : Fields → Prop
  | .empty => True
  | .field name _ schema more => name ∉ more.names ∧ schema.IsSound ∧ more.IsSound

end

mutual

/-- Every binary64 number in a value reads back. -/
@[simp] def Schema.NumbersReadBack : (s : Schema) → s.Value → Prop
  | .text, _ => True
  | .flag, _ => True
  | .word16, _ => True
  | .word64, _ => True
  | .real, x => x.ReadsBack
  | .choice _, _ => True
  | .list element, vs => ∀ v ∈ vs, element.NumbersReadBack v
  | .record _ fields, v => fields.NumbersReadBack v

@[simp] def Fields.NumbersReadBack : (fs : Fields) → fs.Value → Prop
  | .empty, () => True
  | .field _ p schema more, (v, vs) =>
    (∀ a ∈ p.values v, schema.NumbersReadBack a) ∧ more.NumbersReadBack vs

end

mutual

/-- What the text of a value is read as. -/
def Schema.reread : (s : Schema) → s.Value → Except Fault s.Value
  | .text, v => .ok v
  | .flag, v => .ok v
  | .word16, v => .ok v
  | .word64, v => .ok v
  | .real, x => x.reread
  | .choice _, i => .ok i
  | .list element, vs => vs.mapM element.reread
  | .record _ fields, v => fields.reread v

/-- What the members of a record are read as: the first fault of one, or their values. -/
def Fields.reread : (fs : Fields) → fs.Value → Except Fault fs.Value
  | .empty, () => .ok ()
  | .field _ p schema more, (v, vs) =>
    (p.reread schema.bytes schema.reread v).bind fun w => (more.reread vs).map (w, ·)

end

theorem Schema.startsText_bytes (s : Schema) (v : s.Value) : StartsText (s.bytes v) := by
  cases s with
  | text => exact Or.inl (startsValue_quoted v)
  | flag => cases v <;> exact Or.inl ⟨_, _, rfl, by decide⟩
  | word16 => exact Or.inl (startsValue_decimal v.toNat)
  | word64 => exact Or.inl (startsValue_decimal v.toNat)
  | real => exact startsText_real v
  | choice names => exact Or.inl (startsValue_quoted (names.get v))
  | list element => exact Or.inl ⟨_, _, rfl, by decide⟩
  | record listed fields => exact Or.inl ⟨_, _, rfl, by decide⟩

mutual

/-- The reader comes to `Schema.reread` with the text of a value, whatever follows. -/
theorem Schema.readsTo_bytes (bound : ℕ) : ∀ (s : Schema) (v : s.Value), s.IsSound →
    ReadsTo bound (s.read bound) (s.bytes v) (s.reread v)
  | .text, v, _ => (Schema.readsAs_text v).readsTo
  | .flag, v, _ => (Schema.readsAs_flag v).readsTo
  | .word16, v, _ => by
    have hsize : v.toNat < UInt64.size := Nat.lt_trans v.toNat_lt (by decide)
    refine (Schema.readsAs_decimal hsize ?_).readsTo
    rw [Number.word16?, UInt64.toNat_ofNat_of_lt' hsize, if_pos v.toNat_lt, UInt16.ofNat_toNat]
  | .word64, v, _ => by
    refine (Schema.readsAs_decimal v.toNat_lt ?_).readsTo
    rw [UInt64.ofNat_toNat]
    rfl
  | .real, x, _ => Schema.readsTo_real x
  | .choice _, i, hs => (Schema.readsAs_choice hs i).readsTo
  | .list element, vs, hs => by
    intro rest hends hbound
    have htext : (Schema.list element).bytes vs ++ rest = Bytes.ascii '[' ::
        (separated (vs.map element.bytes) ++ Bytes.ascii ']' :: rest) := by
      simp [Schema.bytes, bracketed]
    rw [htext] at hbound ⊢
    rw [Schema.read, skipBlank_cons _ (by decide)]
    refine elements_separated (fun v _ => ⟨Schema.readsTo_bytes bound element v hs,
      Schema.startsText_bytes element v⟩) ?_
    rw [List.length_cons] at hbound
    omega
  | .record listed fields, v, hs => by
    intro rest hends hbound
    have htext : (Schema.record listed fields).bytes v ++ rest = Bytes.ascii '{' ::
        (separated (fields.memberBytes v) ++ Bytes.ascii '}' :: rest) := by
      simp [Schema.bytes, braced]
    rw [htext] at hbound ⊢
    have hread := (Fields.leads_memberBytes bound fields v hs).readObject rest
      (by rw [List.length_cons] at hbound; omega)
    have hbrace : ¬(Bytes.ascii '{' = Bytes.ascii '[' && listed) = true := by
      cases listed <;> decide
    rw [Schema.read, skipBlank_cons _ (by decide)]
    simp only [if_neg hbrace, if_true, hread, Schema.reread]
    cases fields.reread v with
    | error f => rfl
    | ok w =>
      simp only [Except.map, fields.finish?_filled w]

/-- The members of a record lead from a blank draft to that of the record that they are read as. -/
theorem Fields.leads_memberBytes (bound : ℕ) : ∀ (fs : Fields) (v : fs.Value), fs.IsSound →
    Fields.Leads (fs.readMember bound) bound fs.names fs.blank (fs.memberBytes v)
      ((fs.reread v).map fs.filled)
  | .empty, (), _ => .nil _
  | .field name p schema more, (v, vs), ⟨hname, hschema, hmore⟩ => by
    have hrest := (Fields.leads_memberBytes bound more vs hmore).lift hname p schema
    have hfilled : ∀ {w : p.Wrap schema.Value} {slot : Option (p.Wrap schema.Value)},
        ((p.written? schema.bytes w).map fun _ => w) = slot →
          ((more.reread vs).map (w, ·)).map (Fields.field name p schema more).filled =
            ((more.reread vs).map more.filled).map (slot, ·) := by
      intro w slot hslot
      cases more.reread vs with
      | error f => rfl
      | ok ws => rw [← hslot]; rfl
    rw [Fields.memberBytes_field, Fields.reread]
    cases htext : p.written? schema.bytes v with
    | none =>
      rw [Presence.reread_of_written?_eq_none htext]
      show Fields.Leads _ _ _ _ _ (Except.map _ (Except.map _ _))
      rw [hfilled (by rw [htext])]
      exact hrest none
    | some text =>
      have hread := p.readsTo v (fun a _ => ⟨Schema.readsTo_bytes bound schema a hschema,
        Schema.startsText_bytes schema a⟩) htext
      cases hfield : p.reread schema.bytes schema.reread v with
      | error f =>
        refine .fail _ List.mem_cons_self (fun rest hends hbound => ?_)
        have hvalue := hread rest hends hbound
        simp only [hfield, Except.map] at hvalue
        simp only [Fields.readMember, if_true, Fields.blank, Option.isSome_none, Bool.false_eq_true,
          if_false, colon_cons, hvalue]
      | ok w =>
        have hslot := Presence.map_written?_of_reread hfield
        rw [htext] at hslot
        show Fields.Leads _ _ _ _ _ (Except.map _ (Except.map _ _))
        rw [hfilled hslot.symm]
        refine .cons List.mem_cons_self (fun rest hends hbound => ?_) (hrest (some w))
        have hvalue := hread rest hends hbound
        simp only [hfield, Except.map] at hvalue
        simp only [Fields.readMember, if_true, Fields.blank, Option.isSome_none, Bool.false_eq_true,
          if_false, colon_cons, hvalue]

end

/-- Whole texts are read as their values are. -/
theorem Schema.parse_bytes_eq {s : Schema} (hs : s.IsSound) (v : s.Value) :
    s.parse (s.bytes v) = s.reread v := by
  have hread := s.readsTo_bytes (s.bytes v).length v hs [] endsNumber_nil (by simp)
  rw [List.append_nil] at hread
  simp only [parse, whole, hread]
  cases s.reread v <;> rfl

/-! ## Values whose numbers read back -/

theorem Binary64.ReadsBack.isFinite {x : Binary64} (h : x.ReadsBack) : x.isFinite = true := by
  cases hfinite : x.isFinite with
  | true => rfl
  | false => exact nomatch (h.reread_eq.symm.trans (Schema.reread_eq_error hfinite))

theorem Schema.bytes_ne_null (s : Schema) (v : s.Value) (hv : s.NumbersReadBack v) :
    s.bytes v ≠ nullText := by
  cases s with
  | real =>
    obtain ⟨-, -, -, hstarts, -⟩ := Binary64.exists_reread hv.isFinite
    exact fun h => not_startsValue_null (h ▸ hstarts)
  | flag => cases v <;> decide
  | text => exact fun h => not_startsValue_null (h ▸ startsValue_quoted v)
  | word16 => exact fun h => not_startsValue_null (h ▸ startsValue_decimal v.toNat)
  | word64 => exact fun h => not_startsValue_null (h ▸ startsValue_decimal v.toNat)
  | choice names => exact fun h => not_startsValue_null (h ▸ startsValue_quoted (names.get v))
  | list element => exact fun h => by cases h
  | record listed fields => exact fun h => by cases h

mutual

theorem Schema.reread_eq_ok : ∀ (s : Schema) (v : s.Value), s.NumbersReadBack v →
    s.reread v = .ok v
  | .text, _, _ => rfl
  | .flag, _, _ => rfl
  | .word16, _, _ => rfl
  | .word64, _, _ => rfl
  | .real, _, hx => hx.reread_eq
  | .choice _, _, _ => rfl
  | .list element, vs, hv => by
    have hall : ∀ v ∈ vs, element.reread v = .ok v := fun v hmem =>
      Schema.reread_eq_ok element v (hv v hmem)
    rw [Schema.reread]
    clear hv
    induction vs with
    | nil => rfl
    | cons v vs ih =>
      rw [List.mapM_cons, hall v List.mem_cons_self,
        ih fun w hw => hall w (List.mem_cons_of_mem v hw)]
      rfl
  | .record _ fields, v, hv => Fields.reread_eq_ok fields v hv

theorem Fields.reread_eq_ok : ∀ (fs : Fields) (v : fs.Value), fs.NumbersReadBack v →
    fs.reread v = .ok v
  | .empty, (), _ => rfl
  | .field name p schema more, (v, vs), ⟨hv, hvs⟩ => by
    have hfield := Presence.reread_eq_ok (fun a ha =>
      ⟨Schema.reread_eq_ok schema a (hv a ha), schema.bytes_ne_null a (hv a ha)⟩)
    rw [Fields.reread, hfield, Except.bind, Fields.reread_eq_ok more vs hvs]
    rfl

end

/-- A value of a schema is read back from its text, whatever follows. -/
theorem Schema.readsAs_bytes (bound : ℕ) (s : Schema) (v : s.Value) (hs : s.IsSound)
    (hv : s.NumbersReadBack v) : ReadsAs bound (s.read bound) (s.bytes v) v := by
  have hread := s.readsTo_bytes bound v hs
  rw [s.reread_eq_ok v hv] at hread
  exact hread

/-- A value of a schema is read back from its text. -/
theorem Schema.parse_bytes {s : Schema} {v : s.Value} (hs : s.IsSound)
    (hv : s.NumbersReadBack v) : s.parse (s.bytes v) = .ok v :=
  (Schema.parse_bytes_eq hs v).trans (s.reread_eq_ok v hv)

end PeerGateway
