import PeerGateway.Proofs.Json.Numerals
import PeerGateway.Proofs.Json.Strings

/-!
# Lists and members read back

A reader reads a text as a value if it takes exactly that text off the front of what follows
(`Json.ReadsAs`). What follows must end a number, and all of it must lie within the bound on the
number of steps. More generally a reader comes to a result with a text (`Json.ReadsTo`): to a value,
or to a fault that the text has whatever follows it.

If each element of a list is read to a result, the list is read to the first fault among them, or to
the values (`Json.elements_separated`). Between the
members of an object stand commas, and `Json.nextMember` moves from one to the next
(`Json.nextMember_first`, `Json.nextMember_next`) up to the brace (`Json.nextMember_brace`).
-/

namespace PeerGateway

namespace Json

/-- The reader takes the text off the front of what follows, as a value. -/
def ReadsAs {α : Type} (bound : ℕ) (read : Bytes → Except Fault (α × Bytes)) (text : Bytes)
    (a : α) : Prop :=
  ∀ rest, EndsNumber rest → (text ++ rest).length ≤ bound → read (text ++ rest) = .ok (a, rest)

/-- The reader comes to a result with the text; what follows is left. -/
def ReadsTo {α : Type} (bound : ℕ) (read : Bytes → Except Fault (α × Bytes)) (text : Bytes)
    (result : Except Fault α) : Prop :=
  ∀ rest, EndsNumber rest → (text ++ rest).length ≤ bound →
    read (text ++ rest) = result.map (·, rest)

theorem ReadsAs.readsTo {α : Type} {bound : ℕ} {read : Bytes → Except Fault (α × Bytes)}
    {text : Bytes} {a : α} (h : ReadsAs bound read text a) : ReadsTo bound read text (.ok a) :=
  h

/-! ## First bytes -/

/-- A byte with which a value other than null begins. -/
def opensValue (b : UInt8) : Bool :=
  Bytes.isDigit b || b == Bytes.ascii '-' || b == Bytes.ascii '"' || b == Bytes.ascii '[' ||
    b == Bytes.ascii '{' || b == Bytes.ascii 't' || b == Bytes.ascii 'f'

/-- The text of a value other than null begins with one of its bytes. -/
def StartsValue (text : Bytes) : Prop := ∃ b t, text = b :: t ∧ opensValue b = true

/-- The text of a value begins with one of its bytes, or it is null. -/
def StartsText (text : Bytes) : Prop := StartsValue text ∨ text = nullText

theorem ne_of_opensValue {b c : UInt8} (hb : opensValue b = true) (hc : opensValue c = false) :
    b ≠ c := by
  rintro rfl
  rw [hb] at hc
  exact Bool.noConfusion hc

/-- Only blanks are skipped. -/
theorem skipBlank_cons {b : UInt8} (s : Bytes)
    (h : b ≠ 0x20 ∧ b ≠ 0x0A ∧ b ≠ 0x09 ∧ b ≠ 0x0D) : skipBlank (b :: s) = b :: s := by
  obtain ⟨h1, h2, h3, h4⟩ := h
  simp [skipBlank, h1, h2, h3, h4]

theorem skipBlank_of_opensValue {b : UInt8} (s : Bytes) (h : opensValue b = true) :
    skipBlank (b :: s) = b :: s :=
  skipBlank_cons s ⟨ne_of_opensValue h (by decide), ne_of_opensValue h (by decide),
    ne_of_opensValue h (by decide), ne_of_opensValue h (by decide)⟩

theorem not_startsValue_null : ¬StartsValue nullText := by
  rintro ⟨b, t, htext, hb⟩
  have hnull : nullText = Bytes.ascii 'n' :: Bytes.ofString "ull" := by decide
  obtain ⟨rfl, -⟩ := List.cons.inj (hnull.symm.trans htext)
  exact absurd hb (by decide)

/-- A text begins with a byte that is no blank and closes no list. -/
theorem StartsText.exists_cons {text : Bytes} (h : StartsText text) : ∃ b t, text = b :: t ∧
    b ≠ Bytes.ascii ']' ∧ ∀ s, skipBlank (b :: s) = b :: s := by
  rcases h with ⟨b, t, rfl, hb⟩ | rfl
  · exact ⟨b, t, rfl, ne_of_opensValue hb (by decide), fun s => skipBlank_of_opensValue s hb⟩
  · exact ⟨Bytes.ascii 'n', Bytes.ofString "ull", by decide, by decide,
      fun s => skipBlank_cons s (by decide)⟩

/-! ## Marks -/

theorem literalRest_append (s : Bytes) : ∀ cs : Bytes, literalRest cs (cs ++ s) = .ok s
  | [] => rfl
  | c :: cs => by
    rw [List.cons_append, literalRest, if_pos rfl, literalRest_append s cs]

theorem endsNumber_cons {b : UInt8} (s : Bytes) (h : Bytes.isDigit b = false ∧
    b ≠ Bytes.ascii '.' ∧ b ≠ Bytes.ascii 'e' ∧ b ≠ Bytes.ascii 'E') : EndsNumber (b :: s) := by
  intro c hc
  obtain rfl := Option.some.inj hc
  exact h

theorem endsNumber_comma (s : Bytes) : EndsNumber (Bytes.ascii ',' :: s) :=
  endsNumber_cons s (by decide)

theorem endsNumber_bracket (s : Bytes) : EndsNumber (Bytes.ascii ']' :: s) :=
  endsNumber_cons s (by decide)

theorem endsNumber_brace (s : Bytes) : EndsNumber (Bytes.ascii '}' :: s) :=
  endsNumber_cons s (by decide)

theorem skipBlank_comma (s : Bytes) : skipBlank (Bytes.ascii ',' :: s) = Bytes.ascii ',' :: s :=
  skipBlank_cons s (by decide)

theorem closeList_bracket (s : Bytes) : closeList (Bytes.ascii ']' :: s) = .ok s := by
  rw [closeList, skipBlank_cons s (by decide)]
  rfl

theorem closeObject_brace (s : Bytes) : closeObject (Bytes.ascii '}' :: s) = .ok s := by
  rw [closeObject, skipBlank_cons s (by decide)]
  rfl

theorem colon_cons (s : Bytes) : colon (Bytes.ascii ':' :: s) = .ok s := by
  rw [colon, skipBlank_cons s (by decide)]
  rfl

theorem separated_cons (t : Bytes) : ∀ ts : List Bytes,
    separated (t :: ts) = t ++ ts.flatMap (Bytes.ascii ',' :: ·)
  | [] => by simp [separated]
  | u :: ts => by
    rw [separated, separated_cons u ts, List.flatMap_cons, List.cons_append]

/-- What follows is a comma, or what closes the list or object. -/
theorem endsNumber_commas (ts : List Bytes) {s : Bytes} (hs : EndsNumber s) :
    EndsNumber (ts.flatMap (Bytes.ascii ',' :: ·) ++ s) := by
  cases ts with
  | nil => exact hs
  | cons t ts => exact endsNumber_comma _

/-- Every text behind a comma has the comma at least. -/
theorem length_le_length_commas (ts : List Bytes) :
    ts.length ≤ (ts.flatMap (Bytes.ascii ',' :: ·)).length := by
  induction ts with
  | nil => exact Nat.zero_le _
  | cons t ts ih =>
    simp only [List.flatMap_cons, List.length_append, List.length_cons]
    omega

/-! ## Lists -/

theorem nextElement_bracket (first : Bool) (s : Bytes) :
    nextElement first (Bytes.ascii ']' :: s) = .ok none := by
  rw [nextElement, skipBlank_cons s (by decide)]
  rfl

theorem nextElement_first {text : Bytes} (s : Bytes) (h : StartsText text) :
    nextElement true (text ++ s) = .ok (some (text ++ s)) := by
  obtain ⟨b, t, rfl, hclose, hskip⟩ := h.exists_cons
  rw [List.cons_append, nextElement, hskip]
  simp only [if_neg hclose, if_true]

theorem nextElement_next {text : Bytes} (s : Bytes) (h : StartsText text) :
    nextElement false (Bytes.ascii ',' :: (text ++ s)) = .ok (some (text ++ s)) := by
  obtain ⟨b, t, rfl, hclose, hskip⟩ := h.exists_cons
  have hcomma : Bytes.ascii ',' ≠ Bytes.ascii ']' := by decide
  rw [List.cons_append, nextElement, skipBlank_comma]
  simp only [if_neg hcomma, if_true, hskip, if_neg hclose, Bool.false_eq_true, if_false]

section List

variable {α β : Type} {bound : ℕ} {element : Bytes → Except Fault (α × Bytes)} {text : β → Bytes}
  {result : β → Except Fault α}

/-- One more element, or its fault. -/
theorem elements_step {fuel : ℕ} {first : Bool} {read : List α} {r : Except Fault α}
    {s s' t : Bytes} (hnext : nextElement first s = .ok (some s'))
    (helement : element s' = r.map (·, t)) : elements element (fuel + 1) first read s =
      r.bind fun a => elements element fuel false (a :: read) t := by
  simp only [elements, hnext, helement]
  cases r <;> rfl

/-- The elements after the first one, each behind a comma. -/
theorem elements_commas (rest : Bytes) : ∀ (vs : List β) (fuel : ℕ) (read : List α),
    (∀ v ∈ vs, ReadsTo bound element (text v) (result v) ∧ StartsText (text v)) →
    vs.length < fuel →
    ((vs.map text).flatMap (Bytes.ascii ',' :: ·) ++ Bytes.ascii ']' :: rest).length ≤ bound →
    elements element fuel false read
      ((vs.map text).flatMap (Bytes.ascii ',' :: ·) ++ Bytes.ascii ']' :: rest) =
        (vs.mapM result).map fun ws => (read.reverse ++ ws, rest)
  | [], fuel + 1, read, _, _, _ => by
    rw [List.map_nil, List.flatMap_nil, List.nil_append, elements, nextElement_bracket,
      closeList_bracket, List.mapM_nil]
    simp [Except.map, pure, Except.pure]
  | v :: vs, fuel + 1, read, h, hfuel, hbound => by
    obtain ⟨hread, hstart⟩ := h v List.mem_cons_self
    have hvs := fun w hw => h w (List.mem_cons_of_mem v hw)
    rw [List.map_cons, List.flatMap_cons, List.append_assoc, List.cons_append] at hbound ⊢
    simp only [List.length_cons, List.length_append] at hbound hfuel
    have hcommas : ((vs.map text).flatMap (Bytes.ascii ',' :: ·) ++
        Bytes.ascii ']' :: rest).length ≤ bound := by
      simp only [List.length_append, List.length_cons]
      omega
    have hfirst := hread _ (endsNumber_commas (vs.map text) (endsNumber_bracket rest))
      (by simp only [List.length_append, List.length_cons]; omega)
    rw [elements_step (nextElement_next _ hstart) hfirst, List.mapM_cons]
    cases result v with
    | error f => rfl
    | ok a =>
      have hmore := elements_commas rest vs fuel (a :: read) hvs (by omega) hcommas
      rw [Except.bind, hmore]
      cases vs.mapM result with
      | error f => rfl
      | ok ws => simp [Except.map, bind, Except.bind, pure, Except.pure]

/-- A list is read after its opening bracket to what its elements are read to. -/
theorem elements_separated {vs : List β} {rest : Bytes}
    (h : ∀ v ∈ vs, ReadsTo bound element (text v) (result v) ∧ StartsText (text v))
    (hbound : (separated (vs.map text) ++ Bytes.ascii ']' :: rest).length ≤ bound) :
    elements element (bound + 1) true [] (separated (vs.map text) ++ Bytes.ascii ']' :: rest) =
      (vs.mapM result).map (·, rest) := by
  cases vs with
  | nil =>
    rw [List.map_nil, separated, List.nil_append, elements, nextElement_bracket,
      closeList_bracket, List.mapM_nil]
    rfl
  | cons v vs =>
    obtain ⟨hread, hstart⟩ := h v List.mem_cons_self
    have hvs := fun w hw => h w (List.mem_cons_of_mem v hw)
    rw [List.map_cons, separated_cons, List.append_assoc] at hbound ⊢
    have hfirst := hread _ (endsNumber_commas (vs.map text) (endsNumber_bracket rest)) hbound
    have hlength := length_le_length_commas (vs.map text)
    rw [List.length_map] at hlength
    simp only [List.length_append, List.length_cons] at hbound
    have hcommas : ((vs.map text).flatMap (Bytes.ascii ',' :: ·) ++
        Bytes.ascii ']' :: rest).length ≤ bound := by
      simp only [List.length_append, List.length_cons]
      omega
    rw [elements_step (nextElement_first _ hstart) hfirst, List.mapM_cons]
    cases result v with
    | error f => rfl
    | ok a =>
      have hmore := elements_commas rest vs bound [a] hvs (by omega) hcommas
      rw [Except.bind, hmore]
      cases vs.mapM result <;> rfl

end List

/-! ## Members -/

section Members

variable {bound : ℕ} {name : String} {value s : Bytes}

theorem nextMember_brace (bound : ℕ) (first : Bool) (s : Bytes) :
    nextMember bound first (Bytes.ascii '}' :: s) = .ok none := by
  rw [nextMember, skipBlank_cons s (by decide)]
  rfl

/-- The name of a member is read back after its opening quote. -/
theorem stringRest_memberText (h : (memberText name value ++ s).length ≤ bound) :
    ∃ t, memberText name value ++ s = Bytes.ascii '"' :: t ∧
      stringRest bound t = .ok (name, Bytes.ascii ':' :: (value ++ s)) := by
  have htext : memberText name value ++ s = Bytes.ascii '"' ::
      (name.toList.flatMap escaped ++ Bytes.ascii '"' :: Bytes.ascii ':' :: (value ++ s)) := by
    simp [memberText, quoted]
  refine ⟨_, htext, stringRest_quoted name _ ?_⟩
  rw [htext] at h
  simp only [List.length_cons, List.length_append] at h
  omega

theorem nextMember_first (h : (memberText name value ++ s).length ≤ bound) :
    nextMember bound true (memberText name value ++ s) =
      .ok (some (name, Bytes.ascii ':' :: (value ++ s))) := by
  obtain ⟨t, htext, hname⟩ := stringRest_memberText h
  have hbrace : Bytes.ascii '"' ≠ Bytes.ascii '}' := by decide
  rw [htext, nextMember, skipBlank_cons t (by decide)]
  simp only [if_neg hbrace, if_true, hname]

theorem nextMember_next (h : (memberText name value ++ s).length ≤ bound) :
    nextMember bound false (Bytes.ascii ',' :: (memberText name value ++ s)) =
      .ok (some (name, Bytes.ascii ':' :: (value ++ s))) := by
  obtain ⟨t, htext, hname⟩ := stringRest_memberText h
  have hbrace : Bytes.ascii ',' ≠ Bytes.ascii '}' := by decide
  have hquote : skipBlank (Bytes.ascii '"' :: t) = Bytes.ascii '"' :: t :=
    skipBlank_cons t (by decide)
  rw [nextMember, skipBlank_comma]
  simp only [if_neg hbrace, if_true, htext, hquote, hname, Bool.false_eq_true, if_false]

end Members

end Json

end PeerGateway
