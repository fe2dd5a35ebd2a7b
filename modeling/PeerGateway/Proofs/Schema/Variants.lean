import PeerGateway.Proofs.Json.Skipping
import PeerGateway.Proofs.Schema.RoundTrip
import Mathlib.Data.List.Perm.Basic

/-!
# Variants of a value's text

Peers of other versions write the same value in other ways. A *variant* of a value's text
(`Schema.IsVariant`) has any blanks between its tokens, and its objects have their members in any
order: those of the fields, of which one without a value may be left out, and any members of other
names, with any values. A variant is read as the value itself (`Schema.readsAs_variant`).

While an object is read, its draft has just the fields whose names came so far (`Fields.partly`),
each with the value that it has in the end. A member of a field adds its name to them
(`Fields.takes_variant`), and so does a member of any other name (`Fields.advances_other`), since no
field has that. In the end the draft is that of all names (`Fields.readObject_listed`), in whatever
order they came.
-/

namespace PeerGateway

open Json

/-! ## Fields -/

namespace Presence

variable {α : Type} {variant : α → Bytes → Prop} {bound : ℕ}
  {value : Bytes → Except Fault (α × Bytes)}

/-- A field may be left out of an object: it has no value. -/
def MayLack : (p : Presence) → p.Wrap α → Prop
  | .required, _ => False
  | .nullable, v => v = none
  | .defaulted, v => v = none

/-- A text is one of a field that is there: a variant of its value's, or null for none. -/
def IsVariant (variant : α → Bytes → Prop) : (p : Presence) → p.Wrap α → Bytes → Prop
  | .required, a, t => variant a t
  | .nullable, none, t => t = nullText
  | .nullable, some a, t => variant a t
  | .defaulted, none, _ => False
  | .defaulted, some a, t => variant a t

theorem mayLack_of_written? {bytes : α → Bytes} {p : Presence} {v : p.Wrap α}
    (h : p.written? bytes v = none) : p.MayLack v := by
  cases p with
  | required => cases h
  | nullable => cases h
  | defaulted => exact Option.map_eq_none_iff.mp h

theorem absent?_of_mayLack {p : Presence} {v : p.Wrap α} (h : p.MayLack v) :
    p.absent? α = some v := by
  cases p with
  | required => exact h.elim
  | nullable => exact congrArg some h.symm
  | defaulted => exact congrArg some h.symm

theorem read_blanks (hvalue : ∀ (bl : Blanks) (s : Bytes), value (bl.text ++ s) = value s)
    (p : Presence) (bl : Blanks) (s : Bytes) : p.read value (bl.text ++ s) = p.read value s := by
  cases p with
  | required => exact hvalue bl s
  | nullable => simp only [Presence.read, skipBlank_blanks]
  | defaulted => simp only [Presence.read, hvalue]

theorem IsVariant.written? {p : Presence} {v : p.Wrap α} {t : Bytes} (h : p.IsVariant variant v t) :
    p.written? (fun _ => t) v = some t := by
  cases p with
  | required => rfl
  | nullable =>
    cases v with
    | none => exact congrArg some h.symm
    | some a => rfl
  | defaulted =>
    cases v with
    | none => exact h.elim
    | some a => rfl

theorem IsVariant.of_mem_values {p : Presence} {v : p.Wrap α} {t : Bytes}
    (h : p.IsVariant variant v t) {a : α} (ha : a ∈ p.values v) : variant a t := by
  cases p with
  | required => exact List.mem_singleton.mp ha ▸ h
  | nullable =>
    cases v with
    | none => cases ha
    | some b => exact List.mem_singleton.mp ha ▸ h
  | defaulted =>
    cases v with
    | none => cases ha
    | some b => exact List.mem_singleton.mp ha ▸ h

/-- A field that is there is read as what it is, if its value is. -/
theorem readsAs_variant {p : Presence} {v : p.Wrap α} {t : Bytes}
    (hread : ∀ a ∈ p.values v, variant a t → ReadsAs bound value t a ∧ StartsValue t)
    (h : p.IsVariant variant v t) : ReadsAs bound (p.read value) t v := by
  have hvalues a (ha : a ∈ p.values v) := hread a ha (h.of_mem_values ha)
  have hfield : ReadsTo bound (p.read value) t (p.reread (fun _ => t) .ok v) :=
    p.readsTo v (fun a ha => ⟨(hvalues a ha).1.readsTo, Or.inl (hvalues a ha).2⟩) h.written?
  have hsame : p.reread (fun _ => t) .ok v = .ok v :=
    reread_eq_ok fun a ha => ⟨rfl, fun hnull => not_startsValue_null (hnull ▸ (hvalues a ha).2)⟩
  rw [hsame] at hfield
  exact hfield

end Presence

/-! ## Variants -/

mutual

/-- A text is a variant of the text of a value. An object has the members of its record's fields and
others that are no fields, in any order. -/
def Schema.IsVariant : (s : Schema) → s.Value → Bytes → Prop
  | .text, v, t => t = Schema.text.bytes v
  | .flag, v, t => t = Schema.flag.bytes v
  | .word16, v, t => t = Schema.word16.bytes v
  | .word64, v, t => t = Schema.word64.bytes v
  | .real, v, t => t = Schema.real.bytes v
  | .choice names, v, t => t = (Schema.choice names).bytes v
  | .list element, vs, t =>
    ∃ (es : List Padded) (last : Blanks),
      List.Forall₂ (fun v e => element.IsVariant v e.core) vs es ∧
      t = Open.list.enclosed (es.map Padded.text) last
  | .record _ fields, v, t =>
    ∃ (own others ms : List Named) (last : Blanks), fields.AreVariant v own ∧
      (∀ m ∈ others, m.key ∉ fields.names ∧ IsValue m.value.core) ∧ ms.Perm (own ++ others) ∧
      t = Open.object.enclosed (texts ms) last

/-- The members are those of the fields in order, some of which may be left out. -/
def Fields.AreVariant : (fs : Fields) → fs.Value → List Named → Prop
  | .empty, (), ms => ms = []
  | .field name p schema more, (v, vs), ms =>
    (p.MayLack v ∧ more.AreVariant vs ms) ∨
      ∃ m ms', ms = m :: ms' ∧ m.key = name ∧ p.IsVariant schema.IsVariant v m.value.core ∧
        more.AreVariant vs ms'

end

theorem Presence.isVariant_written {α : Type} {variant : α → Bytes → Prop} {bytes : α → Bytes}
    {p : Presence} {v : p.Wrap α} {t : Bytes} (hbytes : ∀ a ∈ p.values v, variant a (bytes a))
    (h : p.written? bytes v = some t) : p.IsVariant variant v t := by
  cases p with
  | required =>
    obtain rfl := Option.some.inj h
    exact hbytes v (by simp [values])
  | nullable =>
    obtain rfl := Option.some.inj h
    cases v with
    | none => rfl
    | some a => exact hbytes a (by simp [values])
  | defaulted =>
    obtain ⟨a, rfl, rfl⟩ := Option.map_eq_some_iff.mp h
    exact hbytes a (by simp [values])

mutual

/-- The text that a value is written as is one of its variants. -/
theorem Schema.isVariant_bytes : ∀ (s : Schema) (v : s.Value), s.IsVariant v (s.bytes v)
  | .text, _ => rfl
  | .flag, _ => rfl
  | .word16, _ => rfl
  | .word64, _ => rfl
  | .real, _ => rfl
  | .choice _, _ => rfl
  | .list element, vs => by
    refine ⟨vs.map fun v => .bare (element.bytes v), .none, ?_, ?_⟩
    · rw [List.forall₂_map_right_iff]
      exact List.forall₂_same.mpr fun v _ => Schema.isVariant_bytes element v
    · rw [Open.enclosed_list, Schema.bytes, List.map_map]
      exact congrArg bracketed (List.map_congr_left fun v _ => (Padded.text_bare _).symm)
  | .record listed fields, v => by
    obtain ⟨own, hown, htexts⟩ := Fields.exists_areVariant fields v
    refine ⟨own, [], own, .none, hown, List.forall_mem_nil _, by simp, ?_⟩
    rw [Open.enclosed_object, Schema.bytes, htexts]

/-- The members that a record is written with. -/
theorem Fields.exists_areVariant : ∀ (fs : Fields) (v : fs.Value),
    ∃ own, fs.AreVariant v own ∧ fs.memberBytes v = texts own
  | .empty, () => ⟨[], rfl, rfl⟩
  | .field name p schema more, (v, vs) => by
    obtain ⟨own, hown, htexts⟩ := Fields.exists_areVariant more vs
    rw [Fields.memberBytes_field, htexts]
    cases hwritten : p.written? schema.bytes v with
    | none => exact ⟨own, Or.inl ⟨Presence.mayLack_of_written? hwritten, hown⟩, rfl⟩
    | some t =>
      refine ⟨.bare name t :: own, Or.inr ⟨.bare name t, own, rfl, rfl, ?_, hown⟩, ?_⟩
      · exact Presence.isVariant_written (fun a _ => Schema.isVariant_bytes schema a) hwritten
      · rw [texts_cons, Named.text_bare]
        rfl

end

theorem Schema.startsValue_variant {s : Schema} {v : s.Value} {t : Bytes}
    (hv : s.NumbersReadBack v) (h : s.IsVariant v t) : StartsValue t := by
  have hbytes : StartsValue (s.bytes v) :=
    (s.startsText_bytes v).resolve_right (s.bytes_ne_null v hv)
  cases s with
  | list element =>
    obtain ⟨es, last, -, rfl⟩ := h
    exact startsValue_enclosed ..
  | record listed fields =>
    obtain ⟨own, others, ms, last, -, -, -, rfl⟩ := h
    exact startsValue_enclosed ..
  | text => exact h ▸ hbytes
  | flag => exact h ▸ hbytes
  | word16 => exact h ▸ hbytes
  | word64 => exact h ▸ hbytes
  | real => exact h ▸ hbytes
  | choice names => exact h ▸ hbytes

theorem Schema.read_blanks (bound : ℕ) (s : Schema) (bl : Blanks) (t : Bytes) :
    s.read bound (bl.text ++ t) = s.read bound t := by
  cases s with
  | text => simp only [Schema.read, Schema.readText, skipBlank_blanks]
  | flag => simp only [Schema.read, Schema.readFlag, skipBlank_blanks]
  | word16 => simp only [Schema.read, Schema.readNumberAs, skipBlank_blanks]
  | word64 => simp only [Schema.read, Schema.readNumberAs, skipBlank_blanks]
  | real => simp only [Schema.read, Schema.readNumberAs, skipBlank_blanks]
  | choice names => simp only [Schema.read, Schema.readChoice, skipBlank_blanks]
  | list element => simp only [Schema.read, skipBlank_blanks]
  | record listed fields => simp only [Schema.read, skipBlank_blanks]

namespace Fields

/-! ## Members in any order -/

section Members

variable {δ : Type} {known : String → δ → Bytes → Option (Except Fault (δ × Bytes))} {bound : ℕ}
  {m : Named} {d d' : δ}

theorem readObject_blanks (bl : Blanks) (fuel : ℕ) (first : Bool) (d : δ) (s : Bytes) :
    readObject known bound fuel first d (bl.text ++ s) = readObject known bound fuel first d s := by
  cases fuel with
  | zero => rfl
  | succ fuel => simp only [readObject, nextMember_blanks, closeObject_blanks]

/-- A member is read at the front of what is left of an object, and changes the draft. -/
def Advances (known : String → δ → Bytes → Option (Except Fault (δ × Bytes))) (bound : ℕ)
    (m : Named) (d d' : δ) : Prop :=
  ∀ fuel first rest, EndsNumber rest → (m.text ++ rest).length ≤ bound →
    readObject known bound (fuel + 1) first d (comma first ++ (m.text ++ rest)) =
      readObject known bound fuel false d' rest

/-- The colon and the value of a member are read, and change the draft. -/
def Takes (known : String → δ → Bytes → Option (Except Fault (δ × Bytes))) (bound : ℕ) (m : Named)
    (d d' : δ) : Prop :=
  ∀ rest, EndsNumber rest → (m.value.text ++ rest).length ≤ bound →
    known m.key d (m.name.after.text ++ Bytes.ascii ':' :: (m.value.text ++ rest)) =
      some (.ok (d', m.value.after.text ++ rest))

theorem Takes.advances (h : Takes known bound m d d') : Advances known bound m d d' := by
  intro fuel first rest hends hbound
  have hknown := h rest hends (length_of_text hbound).1
  rw [readObject_step (nextMember_comma m first rest hbound) hknown, readObject_blanks]

/-- A member whose name is not known is skipped. -/
theorem advances_of_unknown (h : ∀ t, known m.key d t = none) (hvalue : IsValue m.value.core) :
    Advances known bound m d d := by
  intro fuel first rest hends hbound
  have hskip := skipValue_value m.value.before hvalue (endsNumber_blanks m.value.after hends)
    (length_of_text hbound).2
  rw [readObject, nextMember_comma m first rest hbound]
  simp only [h, colon_name, Padded.text_append, hskip, readObject_blanks]

/-- The members of an object are read one after the other. If a member leads from the draft of some
names to that of one name more, but for a name among some that was read before, and no such name
comes twice, then all members together lead to the draft of all names. -/
theorem readObject_listed {draft : List String → δ} {names : List String} (last : Blanks)
    (rest : Bytes) : ∀ (ms : List Named) (fuel : ℕ) (first : Bool) (keys : List String),
    (∀ m ∈ ms, ∀ keys, (m.key ∈ names → m.key ∉ keys) →
      Advances known bound m (draft keys) (draft (m.key :: keys))) →
    ms.Pairwise (fun m m' => m.key = m'.key → m.key ∉ names) →
    (∀ m ∈ ms, m.key ∈ names → m.key ∉ keys) → ms.length < fuel →
    (listed first (texts ms) ++ (last.text ++ Bytes.ascii '}' :: rest)).length ≤ bound →
    readObject known bound fuel first (draft keys)
      (listed first (texts ms) ++ (last.text ++ Bytes.ascii '}' :: rest)) =
        .ok (draft ((ms.map Named.key).reverse ++ keys), rest)
  | [], fuel + 1, first, keys, _, _, _, _, _ => by
    show readObject known bound (fuel + 1) first (draft keys) (last.text ++ _) = _
    rw [readObject_blanks, readObject, nextMember_brace, closeObject_brace]
    rfl
  | m :: ms, fuel + 1, first, keys, hadvances, hpair, hread, hfuel, hbound => by
    obtain ⟨hm, hms⟩ := List.pairwise_cons.mp hpair
    rw [texts_cons, listed, List.append_assoc, List.append_assoc] at hbound ⊢
    simp only [List.length_append, List.length_cons] at hbound hfuel
    have hends := endsNumber_listed (texts ms) (endsNumber_blanks last (endsNumber_brace rest))
    have hfirst := hadvances m List.mem_cons_self keys (hread m List.mem_cons_self) fuel first _
      hends (by simp only [List.length_append, List.length_cons]; omega)
    have hnew : ∀ m' ∈ ms, m'.key ∈ names → m'.key ∉ m.key :: keys := by
      intro m' hm' hname hmem
      rcases List.mem_cons.mp hmem with heq | hold
      · exact hm m' hm' heq.symm (heq ▸ hname)
      · exact hread m' (List.mem_cons_of_mem m hm') hname hold
    rw [hfirst, readObject_listed last rest ms fuel false (m.key :: keys)
      (fun m' hm' => hadvances m' (List.mem_cons_of_mem m hm')) hms hnew (by omega)
      (by simp only [List.length_append, List.length_cons]; omega)]
    simp

end Members

/-! ## Drafts of some fields -/

/-- The draft of a record of which only the fields of some names were read. -/
def partly : (fs : Fields) → fs.Value → List String → fs.Draft
  | .empty, (), _ => ()
  | .field name _ _ more, (v, vs), keys =>
    (if name ∈ keys then some v else none, more.partly vs keys)

theorem partly_nil : ∀ (fs : Fields) (v : fs.Value), fs.partly v [] = fs.blank
  | .empty, () => rfl
  | .field name p schema more, (v, vs) => by
    rw [partly, if_neg List.not_mem_nil, partly_nil more vs, blank]

theorem partly_cons_of_not_mem {key : String} (keys : List String) : ∀ (fs : Fields) (v : fs.Value),
    key ∉ fs.names → fs.partly v (key :: keys) = fs.partly v keys
  | .empty, (), _ => rfl
  | .field name p schema more, (v, vs), h => by
    have hne : name ≠ key := fun heq => h (heq ▸ List.mem_cons_self)
    have hmore := partly_cons_of_not_mem keys more vs fun hmem => h (List.mem_cons_of_mem name hmem)
    simp only [partly, List.mem_cons, hne, false_or, hmore]

theorem readMember_of_not_mem (bound : ℕ) {key : String} :
    ∀ (fs : Fields) (d : fs.Draft) (t : Bytes), key ∉ fs.names → fs.readMember bound key d t = none
  | .empty, _, _, _ => rfl
  | .field name p schema more, (slot, slots), t, h => by
    have hne : key ≠ name := fun heq => h (heq ▸ List.mem_cons_self)
    rw [readMember, if_neg hne, readMember_of_not_mem bound more slots t
      fun hmem => h (List.mem_cons_of_mem name hmem)]

theorem nodup_names : ∀ fs : Fields, fs.IsSound → fs.names.Nodup
  | .empty, _ => List.nodup_nil
  | .field _ _ _ more, ⟨hname, _, hmore⟩ => List.nodup_cons.mpr ⟨hname, nodup_names more hmore⟩

/-- The members of the fields have their names, in order. -/
theorem AreVariant.sublist : ∀ {fs : Fields} {v : fs.Value} {ms : List Named}, fs.AreVariant v ms →
    (ms.map Named.key).Sublist fs.names
  | .empty, (), _, h => by
    obtain rfl : _ = [] := h
    exact List.Sublist.slnil
  | .field name p schema more, (v, vs), ms, h => by
    rcases h with ⟨-, hmore⟩ | ⟨m, ms', rfl, rfl, -, hmore⟩
    · exact hmore.sublist.cons name
    · exact hmore.sublist.cons_cons m.key

theorem AreVariant.mem_names {fs : Fields} {v : fs.Value} {ms : List Named} (h : fs.AreVariant v ms)
    {m : Named} (hm : m ∈ ms) : m.key ∈ fs.names :=
  h.sublist.subset (List.mem_map_of_mem hm)

/-- Once all members were read, the draft is that of the record. -/
theorem AreVariant.finish? : ∀ {fs : Fields} {v : fs.Value} {ms : List Named}, fs.AreVariant v ms →
    ∀ keys : List String, (∀ m ∈ ms, m.key ∈ keys) → fs.finish? (fs.partly v keys) = some v
  | .empty, (), _, _, _, _ => rfl
  | .field name p schema more, (v, vs), ms, h, keys, hread => by
    rcases h with ⟨hlack, hmore⟩ | ⟨m, ms', rfl, rfl, -, hmore⟩
    · have hslot : (if name ∈ keys then some v else none).or (p.absent? schema.Value) = some v := by
        rw [Presence.absent?_of_mayLack hlack]
        split_ifs <;> rfl
      rw [partly, Fields.finish?, hslot, hmore.finish? keys hread]
    · have hms : ∀ m' ∈ ms', m'.key ∈ keys := fun m' hm' => hread m' (List.mem_cons_of_mem m hm')
      rw [partly, Fields.finish?, if_pos (hread m List.mem_cons_self), Option.some_or,
        hmore.finish? keys hms]

/-- A member of a name that no field has leaves the draft as it is. -/
theorem advances_other {fs : Fields} {v : fs.Value} {bound : ℕ} {m : Named} {keys : List String}
    (hkey : m.key ∉ fs.names) (hvalue : IsValue m.value.core) :
    Advances (fs.readMember bound) bound m (fs.partly v keys) (fs.partly v (m.key :: keys)) := by
  rw [partly_cons_of_not_mem keys fs v hkey]
  exact advances_of_unknown (fun t => fs.readMember_of_not_mem bound _ t hkey) hvalue

/-- The names of a record's members come once each, but those of others. -/
theorem pairwise_perm {fs : Fields} {v : fs.Value} {own others ms : List Named} (hs : fs.IsSound)
    (hown : fs.AreVariant v own) (hothers : ∀ m ∈ others, m.key ∉ fs.names)
    (hperm : ms.Perm (own ++ others)) :
    ms.Pairwise (fun m m' => m.key = m'.key → m.key ∉ fs.names) := by
  have hsymm : ∀ {m m' : Named}, (m.key = m'.key → m.key ∉ fs.names) →
      m'.key = m.key → m'.key ∉ fs.names := fun h heq => heq ▸ h heq.symm
  have hkeys := hown.sublist.nodup (nodup_names fs hs)
  refine (hperm.pairwise_iff hsymm).mpr (List.pairwise_append.mpr ⟨?_, ?_, ?_⟩)
  · exact (List.pairwise_map.mp hkeys).imp fun hne heq => absurd heq hne
  · exact List.pairwise_of_forall_mem_list fun m hm _ _ _ => hothers m hm
  · exact fun m _ m' hm' heq => heq ▸ hothers m' hm'

end Fields

/-! ## Variants read -/

mutual

/-- A variant of a value's text is read as the value, whatever follows. -/
theorem Schema.readsAs_variant (bound : ℕ) : ∀ (s : Schema) (v : s.Value) (t : Bytes), s.IsSound →
    s.NumbersReadBack v → s.IsVariant v t → ReadsAs bound (s.read bound) t v
  | .text, v, _, hs, hv, h => h ▸ Schema.text.readsAs_bytes bound v hs hv
  | .flag, v, _, hs, hv, h => h ▸ Schema.flag.readsAs_bytes bound v hs hv
  | .word16, v, _, hs, hv, h => h ▸ Schema.word16.readsAs_bytes bound v hs hv
  | .word64, v, _, hs, hv, h => h ▸ Schema.word64.readsAs_bytes bound v hs hv
  | .real, v, _, hs, hv, h => h ▸ Schema.real.readsAs_bytes bound v hs hv
  | .choice names, v, _, hs, hv, h => h ▸ (Schema.choice names).readsAs_bytes bound v hs hv
  | .list element, vs, t, hs, hv, h => by
    obtain ⟨es, last, hes, rfl⟩ := h
    intro rest _ hbound
    rw [enclosed_append] at hbound ⊢
    have helements : List.Forall₂ (fun v e => ReadsAs bound (element.read bound) e.core v ∧
        StartsText e.core) vs es := by
      have hvariants := (List.forall₂_and_left vs es).mpr ⟨fun _ hmem => hmem, hes⟩
      refine hvariants.imp fun v e ⟨hmem, he⟩ => ?_
      exact ⟨Schema.readsAs_variant bound element v e.core hs (hv v hmem) he,
        Or.inl (Schema.startsValue_variant (hv v hmem) he)⟩
    have hlength := length_le_length_listed true (es.map Padded.text)
    simp only [List.length_cons, List.length_append, List.length_map] at hbound hlength
    show Schema.read bound (.list element) (Bytes.ascii '[' :: _) = _
    rw [Schema.read, skipBlank_cons _ (by decide)]
    simp only [if_true]
    exact elements_listed helements last rest _ true [] (by omega)
      (by simp only [List.length_append, List.length_cons]; omega)
  | .record listed fields, v, t, hs, hv, h => by
    obtain ⟨own, others, ms, last, hown, hothers, hperm, rfl⟩ := h
    intro rest _ hbound
    rw [enclosed_append] at hbound ⊢
    have hlength := length_le_length_listed true (texts ms)
    simp only [List.length_cons, List.length_append, length_texts] at hbound hlength
    have hadvances : ∀ m ∈ ms, ∀ keys, (m.key ∈ fields.names → m.key ∉ keys) →
        Fields.Advances (fields.readMember bound) bound m (fields.partly v keys)
          (fields.partly v (m.key :: keys)) := by
      intro m hm keys hkeys
      rcases List.mem_append.mp (hperm.mem_iff.mp hm) with hm | hm
      · exact (Fields.takes_variant bound fields v own hs hv hown m hm keys
          (hkeys (hown.mem_names hm))).advances
      · exact Fields.advances_other (hothers m hm).1 (hothers m hm).2
    have hpair := Fields.pairwise_perm hs hown (fun m hm => (hothers m hm).1) hperm
    have hread := Fields.readObject_listed last rest ms (bound + 1) true [] hadvances hpair
      (fun _ _ _ => List.not_mem_nil) (by omega)
      (by simp only [List.length_append, List.length_cons]; omega)
    rw [Fields.partly_nil] at hread
    have hfinish := hown.finish? ((ms.map Named.key).reverse ++ []) fun m hm => by
      simpa using ⟨m, hperm.mem_iff.mpr (List.mem_append_left others hm), rfl⟩
    have hbrace : ¬(Bytes.ascii '{' = Bytes.ascii '[' && listed) = true := by
      cases listed <;> decide
    show Schema.read bound (.record listed fields) (Bytes.ascii '{' :: _) = _
    rw [Schema.read, skipBlank_cons _ (by decide)]
    simp only [if_neg hbrace, if_true]
    rw [show Open.object.mark = Bytes.ascii '}' from rfl, hread]
    simp only [hfinish]

/-- A member of a field that was not read adds its name to those that were. -/
theorem Fields.takes_variant (bound : ℕ) : ∀ (fs : Fields) (v : fs.Value) (ms : List Named),
    fs.IsSound → fs.NumbersReadBack v → fs.AreVariant v ms → ∀ m ∈ ms, ∀ keys, m.key ∉ keys →
      Fields.Takes (fs.readMember bound) bound m (fs.partly v keys) (fs.partly v (m.key :: keys))
  | .empty, (), ms, _, _, h => by
    obtain rfl : ms = [] := h
    exact fun m hm => absurd hm List.not_mem_nil
  | .field name p schema more, (v, vs), ms, ⟨hname, hschema, hmore⟩, ⟨hv, hvs⟩, h => by
    -- The member of another field is read by the fields after this one.
    have hlater {ms' : List Named} (hms' : more.AreVariant vs ms') (m : Named) (hm : m ∈ ms')
        (keys : List String) (hkeys : m.key ∉ keys) :
        Fields.Takes ((Fields.field name p schema more).readMember bound) bound m
          ((Fields.field name p schema more).partly (v, vs) keys)
          ((Fields.field name p schema more).partly (v, vs) (m.key :: keys)) := by
      have hne : m.key ≠ name := fun heq => hname (heq ▸ hms'.mem_names hm)
      intro rest hends hbound
      have hread := Fields.takes_variant bound more vs ms' hmore hvs hms' m hm keys hkeys rest
        hends hbound
      simp only [Fields.partly, Fields.readMember, if_neg hne, hread, List.mem_cons, hne.symm,
        false_or]
    rcases h with ⟨-, hms⟩ | ⟨m, ms', rfl, rfl, hvalue, hms'⟩
    · exact hlater hms
    · intro m' hm' keys hkeys
      rcases List.mem_cons.mp hm' with rfl | hm'
      · intro rest hends hbound
        have hpresence := Presence.readsAs_variant (fun a ha ht =>
          ⟨Schema.readsAs_variant bound schema a _ hschema (hv a ha) ht,
            Schema.startsValue_variant (hv a ha) ht⟩) hvalue
        rw [Padded.text_append] at hbound
        have hread := hpresence _ (endsNumber_blanks m'.value.after hends)
          (by rw [List.length_append] at hbound; omega)
        have hpartly := Fields.partly_cons_of_not_mem keys more vs hname
        simp only [Fields.partly, Fields.readMember, if_true, if_neg hkeys, Option.isSome_none,
          Bool.false_eq_true, if_false, colon_name, Padded.text_append,
          Presence.read_blanks (schema.read_blanks bound), hread, List.mem_cons_self, hpartly]
      · exact hlater hms' m' hm' keys hkeys

end

end PeerGateway
