import PeerGateway.Schema.Kept
import PeerGateway.Proofs.Json.Finite
import PeerGateway.Proofs.Lists
import PeerGateway.Proofs.Schema.RoundTrip

/-!
# Values that are read have finite numbers

All binary64 numbers of a value that is read from a text (`Schema.gives_read`), or made from a JSON
value that was (`Schema.numbersAreFinite_of_ofJson?`), are finite. Of a record that is read member
by member this holds of the draft at every step (`Fields.gives_readObject`).
-/

namespace PeerGateway

open Json

mutual

/-- All binary64 numbers in a value are finite. -/
@[simp] def Schema.NumbersAreFinite : (s : Schema) → s.Value → Prop
  | .text, _ => True
  | .flag, _ => True
  | .word16, _ => True
  | .word64, _ => True
  | .real, x => x.isFinite = true
  | .choice _, _ => True
  | .list element, vs => ∀ v ∈ vs, element.NumbersAreFinite v
  | .record _ fields, v => fields.NumbersAreFinite v

@[simp] def Fields.NumbersAreFinite : (fs : Fields) → fs.Value → Prop
  | .empty, () => True
  | .field _ p schema more, (v, vs) =>
    (∀ a ∈ p.values v, schema.NumbersAreFinite a) ∧ more.NumbersAreFinite vs

end

/-- All binary64 numbers in what was read of a record are finite. -/
def Fields.DraftIsFinite : (fs : Fields) → fs.Draft → Prop
  | .empty, () => True
  | .field _ p schema more, (slot, slots) =>
    (∀ v ∈ slot, ∀ a ∈ p.values v, schema.NumbersAreFinite a) ∧ more.DraftIsFinite slots

/-! ## Fields -/

namespace Presence

variable {α : Type} {P : α → Prop} {p : Presence}

/-- The values in a field that is read have the property of all that are read. -/
theorem gives_read {value : Bytes → Except Fault (α × Bytes)} (hvalue : ∀ s, Gives P (value s))
    (p : Presence) (s : Bytes) :
    Gives (fun v : p.Wrap α => ∀ a ∈ p.values v, P a) (p.read value s) := by
  cases p with
  | required => exact fun a rest h => by simpa [values] using hvalue s a rest h
  | nullable =>
    simp only [Presence.read]
    split
    · exact gives_error _
    · split
      · split
        · exact gives_error _
        · exact gives_ok (by simp [values])
      · split
        · exact gives_error _
        · rename_i a s h
          exact gives_ok (by simpa [values] using hvalue _ a s h)
  | defaulted =>
    simp only [Presence.read]
    split
    · exact gives_error _
    · rename_i a s h
      exact gives_ok (by simpa [values] using hvalue _ a s h)

theorem forall_of_ofJson? {value : Json → Option α} {j : Json} {v : p.Wrap α}
    (hvalue : ∀ a, value j = some a → P a) (h : p.ofJson? value j = some v) :
    ∀ a ∈ p.values v, P a := by
  cases p with
  | required => simpa [values] using hvalue v h
  | nullable =>
    cases j with
    | null =>
      obtain rfl := Option.some.inj h
      simp [values]
    | _ =>
      obtain ⟨a, ha, rfl⟩ := Option.map_eq_some_iff.mp h
      simpa [values] using hvalue a ha
  | defaulted =>
    obtain ⟨a, ha, rfl⟩ := Option.map_eq_some_iff.mp h
    simpa [values] using hvalue a ha

theorem values_of_absent? {v : p.Wrap α} (h : p.absent? α = some v) : p.values v = [] := by
  cases p with
  | required => simp [absent?] at h
  | nullable => obtain rfl := Option.some.inj h; rfl
  | defaulted => obtain rfl := Option.some.inj h; rfl

theorem values_of_absentFromList? {v : p.Wrap α} (h : p.absentFromList? α = some v) :
    p.values v = [] := by
  cases p with
  | required => simp [absentFromList?] at h
  | nullable => simp [absentFromList?] at h
  | defaulted => obtain rfl := Option.some.inj h; rfl

end Presence

namespace Fields

theorem draftIsFinite_blank : ∀ fs : Fields, fs.DraftIsFinite fs.blank
  | .empty => trivial
  | .field _ _ _ more => ⟨by simp, draftIsFinite_blank more⟩

theorem numbersAreFinite_of_finish? : ∀ (fs : Fields) {d : fs.Draft} {v : fs.Value},
    fs.DraftIsFinite d → fs.finish? d = some v → fs.NumbersAreFinite v
  | .empty, _, _, _, _ => trivial
  | .field _ p schema more, (slot, slots), v, ⟨hslot, hslots⟩, h => by
    rw [finish?] at h
    split at h
    · rename_i w ws hw hws
      obtain rfl := Option.some.inj h
      refine ⟨?_, numbersAreFinite_of_finish? more hslots hws⟩
      rcases Option.or_eq_some_iff.mp hw with hread | ⟨-, habsent⟩
      · exact hslot w hread
      · simp [Presence.values_of_absent? habsent]
    · cases h

/-- What holds of a draft at the start and after every member that is known holds at the end. -/
theorem gives_readObject {δ : Type} {I : δ → Prop} {bound : ℕ}
    {known : String → δ → Bytes → Option (Except Fault (δ × Bytes))}
    (hknown : ∀ name d s r, I d → known name d s = some r → Gives I r) (fuel : ℕ) :
    ∀ (first : Bool) (d : δ) (s : Bytes), I d →
      Gives I (readObject known bound fuel first d s) := by
  induction fuel with
  | zero => exact fun _ _ _ _ => gives_error _
  | succ fuel ih =>
    intro first d s hd
    unfold readObject
    split
    · exact gives_error _
    · split
      · exact gives_error _
      · exact gives_ok hd
    · split
      · exact gives_error _
      · rename_i d' s' hread
        exact ih _ _ _ (hknown _ _ _ _ hd hread d' s' rfl)
      · split
        · exact gives_error _
        · split
          · exact gives_error _
          · exact ih _ _ _ hd

end Fields

/-! ## Values from texts -/

theorem Schema.gives_readNumberAs {bound : ℕ} (s : Bytes) :
    Gives (fun x : Binary64 => x.isFinite = true) (readNumberAs Number.real? bound s) := by
  unfold readNumberAs
  split
  · exact gives_error _
  · split
    · split
      · exact gives_error _
      · split
        · rename_i n _ hread _ x hx
          exact gives_ok (gives_readNumber n _ hread x hx)
        · exact gives_error _
    · exact gives_error _

mutual

/-- All binary64 numbers in a value that is read from a text are finite. -/
theorem Schema.gives_read (bound : ℕ) : ∀ (s : Schema) (t : Bytes),
    Gives s.NumbersAreFinite (s.read bound t)
  | .text, _ => fun _ _ _ => trivial
  | .flag, _ => fun _ _ _ => trivial
  | .word16, _ => fun _ _ _ => trivial
  | .word64, _ => fun _ _ _ => trivial
  | .real, t => Schema.gives_readNumberAs t
  | .choice _, _ => fun _ _ _ => trivial
  | .list element, t => by
    unfold Schema.read
    split
    · exact gives_error _
    · split
      · exact gives_elements (Schema.gives_read bound element) _ _ [] _ (by simp)
      · exact gives_error _
  | .record listed fields, t => by
    unfold Schema.read
    split
    · exact gives_error _
    · split
      · split
        · exact gives_error _
        · rename_i v t hv
          split
          · exact gives_error _
          · exact gives_ok (Fields.gives_readElements bound fields _ _ v t hv)
      · split
        · split
          · exact gives_error _
          · rename_i d t hd
            have hdraft : fields.DraftIsFinite d := Fields.gives_readObject
              (fun name d s r => Fields.gives_readMember bound fields) _ _ _ _
              fields.draftIsFinite_blank d t hd
            split
            · rename_i v hv
              exact gives_ok (fields.numbersAreFinite_of_finish? hdraft hv)
            · exact gives_error _
        · exact gives_error _

theorem Fields.gives_readMember (bound : ℕ) : ∀ (fs : Fields) {key : String} {d : fs.Draft}
    {t : Bytes} {r : Except Fault (fs.Draft × Bytes)}, fs.DraftIsFinite d →
      fs.readMember bound key d t = some r → Gives fs.DraftIsFinite r
  | .empty, _, _, _, _, _, h => nomatch h
  | .field name p schema more, key, (slot, slots), t, r, ⟨hslot, hslots⟩, h => by
    unfold Fields.readMember at h
    split at h
    · obtain rfl := Option.some.inj h
      split
      · exact gives_error _
      · split
        · exact gives_error _
        · split
          · exact gives_error _
          · rename_i v t hv
            have hvalues := Presence.gives_read (Schema.gives_read bound schema) p _ v t hv
            exact gives_ok ⟨fun w hw => Option.some.inj hw ▸ hvalues, hslots⟩
    · split at h
      · cases h
      · obtain rfl := Option.some.inj h
        exact gives_error _
      · rename_i ws t hws
        obtain rfl := Option.some.inj h
        exact gives_ok ⟨hslot, Fields.gives_readMember bound more hslots hws ws t rfl⟩

theorem Fields.gives_readElements (bound : ℕ) : ∀ (fs : Fields) (first : Bool) (t : Bytes),
    Gives fs.NumbersAreFinite (fs.readElements bound first t)
  | .empty, _, _ => fun _ _ _ => trivial
  | .field _ p schema more, first, t => by
    unfold Fields.readElements
    split
    · exact gives_error _
    · split
      · exact gives_error _
      · exact gives_error _
      · rename_i v vs t habsent hvs
        refine gives_ok ⟨?_, Fields.gives_readElements bound more _ _ vs t hvs⟩
        simp [Presence.values_of_absentFromList? habsent]
    · split
      · exact gives_error _
      · rename_i v t hv
        split
        · exact gives_error _
        · rename_i vs t hvs
          exact gives_ok ⟨Presence.gives_read (Schema.gives_read bound schema) p _ v _ hv,
            Fields.gives_readElements bound more _ _ vs t hvs⟩

end

/-! ## Values from JSON values -/

mutual

/-- All binary64 numbers in a value that is made from a JSON value are finite if those are. -/
theorem Schema.numbersAreFinite_of_ofJson? : ∀ (s : Schema) {j : Json} {v : s.Value},
    j.NumbersAreFinite → s.ofJson? j = some v → s.NumbersAreFinite v
  | .text, _, _, _, _ => trivial
  | .flag, _, _, _, _ => trivial
  | .word16, _, _, _, _ => trivial
  | .word64, _, _, _, _ => trivial
  | .real, j, x, hj, h => by
    unfold Schema.ofJson? at h
    split at h
    · exact hj x h
    · cases h
  | .choice _, _, _, _, _ => trivial
  | .list element, j, vs, hj, h => by
    unfold Schema.ofJson? at h
    split at h
    · intro v hv
      obtain ⟨e, he, hve⟩ := exists_of_mem_mapM h v hv
      exact Schema.numbersAreFinite_of_ofJson? element (elementsAreFinite_iff.mp hj e he) hve
    · cases h
  | .record listed fields, j, v, hj, h => by
    unfold Schema.ofJson? at h
    split at h
    · rename_i ms
      split at h
      · rename_i d hd
        refine fields.numbersAreFinite_of_finish? ?_ h
        refine invariant_foldlM (fun m hm d d' hd => ?_) fields.draftIsFinite_blank hd
        exact Fields.draftIsFinite_of_setMember? fields (membersAreFinite_iff.mp hj m hm) hd
      · cases h
    · split at h
      · exact Fields.numbersAreFinite_of_ofElements? fields (elementsAreFinite_iff.mp hj) h
      · cases h
    · cases h

theorem Fields.draftIsFinite_of_setMember? : ∀ (fs : Fields) {key : String} {j : Json}
    {d d' : fs.Draft}, j.NumbersAreFinite → fs.DraftIsFinite d → fs.setMember? key j d = some d' →
      fs.DraftIsFinite d'
  | .empty, _, _, _, _, _, _, _ => trivial
  | .field _ p schema more, key, j, (slot, slots), d', hj, ⟨hslot, hslots⟩, h => by
    unfold Fields.setMember? at h
    split at h
    · split at h
      · cases h
      · obtain ⟨v, hv, rfl⟩ := Option.map_eq_some_iff.mp h
        refine ⟨fun w hw => ?_, hslots⟩
        obtain rfl := Option.some.inj hw
        exact Presence.forall_of_ofJson?
          (fun a => Schema.numbersAreFinite_of_ofJson? schema hj) hv
    · obtain ⟨ws, hws, rfl⟩ := Option.map_eq_some_iff.mp h
      exact ⟨hslot, Fields.draftIsFinite_of_setMember? more hj hslots hws⟩

theorem Fields.numbersAreFinite_of_ofElements? : ∀ (fs : Fields) {es : List Json} {v : fs.Value},
    (∀ e ∈ es, e.NumbersAreFinite) → fs.ofElements? es = some v → fs.NumbersAreFinite v
  | .empty, _, _, _, _ => trivial
  | .field _ p schema more, [], v, hes, h => by
    unfold Fields.ofElements? at h
    split at h
    · rename_i w ws hw hws
      obtain rfl := Option.some.inj h
      refine ⟨?_, Fields.numbersAreFinite_of_ofElements? more hes hws⟩
      simp [Presence.values_of_absentFromList? hw]
    · cases h
  | .field _ p schema more, e :: es, v, hes, h => by
    obtain ⟨he, hes⟩ := List.forall_mem_cons.mp hes
    unfold Fields.ofElements? at h
    split at h
    · rename_i w ws hw hws
      obtain rfl := Option.some.inj h
      exact ⟨Presence.forall_of_ofJson?
        (fun a => Schema.numbersAreFinite_of_ofJson? schema he) hw,
        Fields.numbersAreFinite_of_ofElements? more hes hws⟩
    · cases h

end

end PeerGateway
