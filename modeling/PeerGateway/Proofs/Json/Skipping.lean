import PeerGateway.Proofs.Json.Spaced

/-!
# Values skipped

A member whose name has no meaning is skipped without being kept. The skipper steps over any JSON
value to exactly the byte behind it (`Json.skipValue_value`), however deep the value is nested: it
goes through a container piece by piece on a stack of those that are open, and is back on the same
stack when the container closes (`Json.skips_enclosed`). Every byte takes at most two steps, so the
bound on its steps is never reached.
-/

namespace PeerGateway

namespace Json

/-! ## Strings -/

theorem skipString_part {p : Bytes} (h : IsPart p) (fuel : ℕ) (s : Bytes) :
    skipString (fuel + 1) (p ++ s) = skipString fuel s := by
  have hslash : Bytes.ascii '\\' ≠ Bytes.ascii '"' := by decide
  cases h with
  | plain h =>
    obtain ⟨hquote, hslash, hcontrol⟩ := h
    simp only [List.singleton_append, skipString, if_neg hquote, if_neg hslash, if_neg hcontrol]
  | short h =>
    obtain ⟨hshort, hletter, -⟩ := shortEscape?_of_mem _ h
    simp only [List.cons_append, List.nil_append, skipString, if_neg hslash, if_true,
      if_neg hletter, hshort]
  | unit h =>
    simp only [List.cons_append, skipString, if_neg hslash, if_true, hexQuad_append h]

theorem IsPart.length_pos {p : Bytes} (h : IsPart p) : 0 < p.length := by
  cases h <;> simp

theorem skipString_parts (rest : Bytes) : ∀ (parts : List Bytes) (fuel : ℕ),
    (∀ p ∈ parts, IsPart p) → parts.flatten.length < fuel →
    skipString fuel (parts.flatten ++ Bytes.ascii '"' :: rest) = .ok rest
  | [], fuel + 1, _, _ => by
    simp only [List.flatten_nil, List.nil_append, skipString, if_true]
  | p :: parts, fuel, h, hfuel => by
    have hp := h p List.mem_cons_self
    have hpos := hp.length_pos
    rw [List.flatten_cons, List.length_append] at hfuel
    obtain ⟨fuel, rfl⟩ := Nat.exists_eq_succ_of_ne_zero (Nat.ne_zero_of_lt hfuel)
    rw [List.flatten_cons, List.append_assoc, skipString_part hp]
    exact skipString_parts rest parts fuel (fun q hq => h q (List.mem_cons_of_mem p hq)) (by omega)

/-- A string is skipped after its opening quote. -/
theorem skipString_string {bound : ℕ} {t : Bytes} (h : IsString t) (rest : Bytes)
    (hbound : t.length ≤ bound) : ∃ t', t ++ rest = Bytes.ascii '"' :: t' ∧
      skipString (bound + 1) t' = .ok rest := by
  obtain ⟨parts, hparts, rfl⟩ := h
  refine ⟨parts.flatten ++ Bytes.ascii '"' :: rest, by simp [quotedParts], ?_⟩
  simp only [quotedParts, List.length_cons, List.length_append] at hbound
  exact skipString_parts rest parts _ hparts (by omega)

/-! ## Numbers -/

section Numbers

variable {ds s t : Bytes}

/-- Digits are passed up to what is no digit. -/
theorem dropWhile_digits (hds : ∀ d ∈ ds, Bytes.isDigit d = true)
    (hs : s.head?.any Bytes.isDigit = false) : (ds ++ s).dropWhile Bytes.isDigit = s := by
  rw [List.dropWhile_append_of_pos hds]
  cases s with
  | nil => rfl
  | cons b s => exact List.dropWhile_cons_of_neg (by simpa using hs)

theorem EndsNumber.any_isDigit (h : EndsNumber s) : s.head?.any Bytes.isDigit = false := by
  cases s with
  | nil => rfl
  | cons b s => exact h.head.1

theorem IsDigits.any_isDigit (h : IsDigits ds) (s : Bytes) :
    (ds ++ s).head?.any Bytes.isDigit = true := by
  obtain ⟨d, ds, rfl, hd, -⟩ := h.exists_cons
  exact hd

theorem skipExponent_exponent (h : IsExponent t) (hs : EndsNumber s) : ∃ letter t',
    t = letter :: t' ∧ (letter = Bytes.ascii 'e' || letter = Bytes.ascii 'E') = true ∧
      skipExponent (t' ++ s) = .ok s := by
  obtain ⟨letter, sign, ds, hletter, hsign, hds, rfl⟩ := h
  refine ⟨letter, _, rfl, by simpa using hletter, ?_⟩
  have hskip : (ds ++ s).dropWhile Bytes.isDigit = s := dropWhile_digits hds.2 hs.any_isDigit
  have hany := hds.any_isDigit s
  have hend (u : Bytes) (hu : u = ds ++ s) : (if u.head?.any Bytes.isDigit then
      Except.ok (u.dropWhile Bytes.isDigit) else .error Fault.malformed) = .ok s := by
    rw [hu, hany, hskip]
    rfl
  refine hend _ ?_
  simp only [List.mem_cons, List.not_mem_nil, or_false] at hsign
  rcases hsign with rfl | rfl | rfl
  · -- A digit is no sign.
    obtain ⟨d, ds, rfl, hd, -⟩ := hds.exists_cons
    have hsign : ¬(d = Bytes.ascii '-' || d = Bytes.ascii '+') = true := by
      intro hsign
      rcases Bool.or_eq_true_iff.mp hsign with h | h <;> rw [of_decide_eq_true h] at hd <;>
        exact absurd hd (by decide)
    simp only [List.nil_append, List.cons_append, if_neg hsign]
  · rfl
  · rfl

/-- What may follow the digits before a point. -/
theorem any_isDigit_behind {fraction exponent : Bytes}
    (hfraction : fraction = [] ∨ IsFraction fraction)
    (hexponent : exponent = [] ∨ IsExponent exponent) (hs : EndsNumber s) :
    (fraction ++ (exponent ++ s)).head?.any Bytes.isDigit = false := by
  rcases hfraction with rfl | ⟨ds, -, rfl⟩
  · rcases hexponent with rfl | hexponent
    · exact hs.any_isDigit
    · obtain ⟨letter, sign, ds, hletter, -, -, rfl⟩ := hexponent
      rcases List.mem_pair.mp hletter with rfl | rfl <;> rfl
  · rfl

theorem skipNumber_whole {fraction exponent : Bytes} {whole : Bytes} (hwhole : IsDigits whole)
    (hzero : whole.head? = some (Bytes.ascii '0') → whole.length = 1)
    (hfraction : fraction = [] ∨ IsFraction fraction)
    (hexponent : exponent = [] ∨ IsExponent exponent) (hs : EndsNumber s) :
    skipNumber (whole ++ (fraction ++ (exponent ++ s))) = .ok s := by
  obtain ⟨d, ds, rfl, hd, hds⟩ := hwhole.exists_cons
  have hbehind := any_isDigit_behind hfraction hexponent hs
  have hlead : ¬(d = Bytes.ascii '0' &&
      (ds ++ (fraction ++ (exponent ++ s))).head?.any Bytes.isDigit) = true := by
    intro hlead
    obtain ⟨h0, hmore⟩ := Bool.and_eq_true_iff.mp hlead
    have hnil : ds = [] := by simpa using hzero (congrArg some (of_decide_eq_true h0))
    rw [hnil, List.nil_append, hbehind] at hmore
    cases hmore
  rw [List.cons_append, skipNumber, if_neg (by simp [hd]), if_neg hlead,
    dropWhile_digits hds hbehind]
  rcases hfraction with rfl | ⟨fs, hfs, rfl⟩
  · rcases hexponent with rfl | hexponent
    · cases s with
      | nil => rfl
      | cons b s =>
        obtain ⟨-, hpoint, he, hE⟩ := hs.head
        simp [hpoint, he, hE]
    · obtain ⟨letter, t, rfl, hletter, hskip⟩ := skipExponent_exponent hexponent hs
      have hpoint : letter ≠ Bytes.ascii '.' := by
        rintro rfl
        exact absurd hletter (by decide)
      simp only [List.nil_append, List.cons_append, if_neg hpoint, hletter, if_true, hskip]
  · have hend := any_isDigit_behind (Or.inl rfl) hexponent hs
    rw [List.nil_append] at hend
    have hdigits := dropWhile_digits hfs.2 hend
    simp only [List.cons_append, if_true, hfs.any_isDigit, hdigits]
    rcases hexponent with rfl | hexponent
    · cases s with
      | nil => rfl
      | cons b s =>
        obtain ⟨-, -, he, hE⟩ := hs.head
        simp [he, hE]
    · obtain ⟨letter, t, rfl, hletter, hskip⟩ := skipExponent_exponent hexponent hs
      simp only [List.cons_append, hletter, if_true, hskip]

end Numbers

/-! ## Steps over a value -/

section Steps

variable {bound : ℕ} {c : Open} {s t : Bytes}

/-- The skipper steps over a text as a value that is due, on any open containers, in at most two
steps for each byte. -/
def Skips (bound : ℕ) (t : Bytes) : Prop :=
  ∃ n ≤ 2 * t.length, ∀ fuel stack rest, EndsNumber rest → (t ++ rest).length ≤ bound →
    skipSteps bound (fuel + n) stack .value (t ++ rest) = skipSteps bound fuel stack .done rest

theorem skips_scalar (hpos : 0 < t.length) (h : ∀ rest, EndsNumber rest →
    (t ++ rest).length ≤ bound → skipStart bound (t ++ rest) = .ok (none, rest)) :
    Skips bound t := by
  refine ⟨1, by omega, fun fuel stack rest hends hbound => ?_⟩
  rw [skipSteps, h rest hends hbound]

theorem skips_null : Skips bound nullText := by
  have htext : nullText = Bytes.ascii 'n' :: Bytes.ofString "ull" := by decide
  refine skips_scalar (by simp [htext]) fun rest _ _ => ?_
  rw [htext, List.cons_append, skipStart, skipBlank_cons _ (by decide)]
  simp only [if_true, literalRest_append]

theorem skips_flag (b : Bool) : Skips bound (flagText b) := by
  cases b with
  | true =>
    have htext : flagText true = Bytes.ascii 't' :: Bytes.ofString "rue" := by decide
    have hnull : Bytes.ascii 't' ≠ Bytes.ascii 'n' := by decide
    refine skips_scalar (by simp [htext]) fun rest _ _ => ?_
    rw [htext, List.cons_append, skipStart, skipBlank_cons _ (by decide)]
    simp only [if_neg hnull, if_true, literalRest_append]
  | false =>
    have htext : flagText false = Bytes.ascii 'f' :: Bytes.ofString "alse" := by decide
    have hnull : Bytes.ascii 'f' ≠ Bytes.ascii 'n' := by decide
    have htrue : Bytes.ascii 'f' ≠ Bytes.ascii 't' := by decide
    refine skips_scalar (by simp [htext]) fun rest _ _ => ?_
    rw [htext, List.cons_append, skipStart, skipBlank_cons _ (by decide)]
    simp only [if_neg hnull, if_neg htrue, if_true, literalRest_append]

theorem skips_string (h : IsString t) : Skips bound t := by
  have hpos : 0 < t.length := by
    obtain ⟨parts, -, rfl⟩ := h
    simp [quotedParts]
  refine skips_scalar hpos fun rest _ hbound => ?_
  rw [List.length_append] at hbound
  obtain ⟨t', ht', hskip⟩ := @skipString_string bound t h rest (by omega)
  have hnull : Bytes.ascii '"' ≠ Bytes.ascii 'n' := by decide
  have htrue : Bytes.ascii '"' ≠ Bytes.ascii 't' := by decide
  have hfalse : Bytes.ascii '"' ≠ Bytes.ascii 'f' := by decide
  have hminus : Bytes.ascii '"' ≠ Bytes.ascii '-' := by decide
  have hdigit : ¬Bytes.isDigit (Bytes.ascii '"') = true := by decide
  rw [ht', skipStart, skipBlank_cons _ (by decide)]
  simp only [if_neg hnull, if_neg htrue, if_neg hfalse, if_neg hminus, if_neg hdigit, if_true,
    hskip]

theorem skips_number (h : IsNumber t) : Skips bound t := by
  obtain @⟨sign, whole, fraction, exponent, hsign, hwhole, hzero, hfraction, hexponent⟩ := h
  obtain ⟨d, ds, hcons, hd, -⟩ := hwhole.exists_cons
  have hpos : 0 < (sign ++ (whole ++ (fraction ++ exponent))).length := by
    simp only [hcons, List.length_append, List.length_cons]
    omega
  refine skips_scalar hpos fun rest hends _ => ?_
  have hskip := skipNumber_whole hwhole hzero hfraction hexponent hends
  simp only [List.append_assoc]
  rcases List.mem_pair.mp hsign with rfl | rfl
  · have hopens : opensValue d = true := by simp [opensValue, hd]
    have hne {c : UInt8} (hc : Bytes.isDigit c = false) : d ≠ c := by
      rintro rfl
      rw [hd] at hc
      cases hc
    have hnull : d ≠ Bytes.ascii 'n' := hne (by decide)
    have htrue : d ≠ Bytes.ascii 't' := hne (by decide)
    have hfalse : d ≠ Bytes.ascii 'f' := hne (by decide)
    have hminus : d ≠ Bytes.ascii '-' := hne (by decide)
    rw [hcons, List.cons_append] at hskip
    rw [List.nil_append, hcons, List.cons_append, skipStart, skipBlank_of_opensValue _ hopens]
    simp only [if_neg hnull, if_neg htrue, if_neg hfalse, if_neg hminus, hd, if_true, hskip]
  · have hnull : Bytes.ascii '-' ≠ Bytes.ascii 'n' := by decide
    have htrue : Bytes.ascii '-' ≠ Bytes.ascii 't' := by decide
    have hfalse : Bytes.ascii '-' ≠ Bytes.ascii 'f' := by decide
    rw [List.singleton_append, skipStart, skipBlank_cons _ (by decide)]
    simp only [if_neg hnull, if_neg htrue, if_neg hfalse, if_true, hskip]

/-! ## Containers -/

theorem skipSteps_value_blanks (bl : Blanks) (fuel : ℕ) (stack : List Open) (s : Bytes) :
    skipSteps bound fuel stack .value (bl.text ++ s) = skipSteps bound fuel stack .value s := by
  cases fuel with
  | zero => rfl
  | succ fuel => simp only [skipSteps, skipStart, skipBlank_blanks]

theorem skipSteps_done_blanks (bl : Blanks) (fuel : ℕ) (stack : List Open) (s : Bytes) :
    skipSteps bound fuel (c :: stack) .done (bl.text ++ s) =
      skipSteps bound fuel (c :: stack) .done s := by
  cases fuel with
  | zero => rfl
  | succ fuel => simp only [skipSteps, skipBlank_blanks]

/-- Goes on in an open container with the piece that comes next, past the name of a member. -/
def enter (bound fuel : ℕ) (stack : List Open) (c : Open) (s : Bytes) : Except Fault Bytes :=
  match c with
  | .list => skipSteps bound fuel (.list :: stack) .value s
  | .object =>
    match skipName bound s with
    | .error f => .error f
    | .ok s => skipSteps bound fuel (.object :: stack) .value s

theorem skipBlank_mark (c : Open) (s : Bytes) : skipBlank (c.mark :: s) = c.mark :: s :=
  skipBlank_cons s (by cases c <;> decide)

theorem endsNumber_mark (c : Open) (s : Bytes) : EndsNumber (c.mark :: s) :=
  endsNumber_cons s (by cases c <;> decide)

theorem skipSteps_opening (fuel : ℕ) (stack : List Open) (s : Bytes) :
    skipSteps bound (fuel + 1) stack .value (c.opening :: s) =
      skipSteps bound fuel stack (.opened c) s := by
  have hstart : skipStart bound (c.opening :: s) = .ok (some c, s) := by
    rw [skipStart, skipBlank_cons s (by cases c <;> decide)]
    cases c <;> rfl
  rw [skipSteps, hstart]

theorem skipSteps_opened {b : UInt8} (fuel : ℕ) (stack : List Open) (hs : skipBlank s = b :: t)
    (hb : b ≠ c.mark) : skipSteps bound (fuel + 1) stack (.opened c) s =
      enter bound fuel stack c s := by
  cases c with
  | list => simp only [skipSteps, hs, if_neg hb, enter]
  | object =>
    simp only [skipSteps, hs, if_neg hb]
    rfl

theorem skipSteps_empty (fuel : ℕ) (stack : List Open) (last : Blanks) (s : Bytes) :
    skipSteps bound (fuel + 1) stack (.opened c) (last.text ++ c.mark :: s) =
      skipSteps bound fuel stack .done s := by
  simp only [skipSteps, skipBlank_blanks, skipBlank_mark, if_true]

theorem skipSteps_mark (fuel : ℕ) (stack : List Open) (last : Blanks) (s : Bytes) :
    skipSteps bound (fuel + 1) (c :: stack) .done (last.text ++ c.mark :: s) =
      skipSteps bound fuel stack .done s := by
  simp only [skipSteps, skipBlank_blanks, skipBlank_mark, if_true]

theorem skipSteps_comma (fuel : ℕ) (stack : List Open) (s : Bytes) :
    skipSteps bound (fuel + 1) (c :: stack) .done (Bytes.ascii ',' :: s) =
      enter bound fuel stack c s := by
  have hmark : Bytes.ascii ',' ≠ c.mark := by cases c <;> decide
  rw [skipSteps, skipBlank_comma]
  cases c with
  | list => simp only [if_neg hmark, if_true, enter]
  | object =>
    simp only [if_neg hmark, if_true]
    rfl

/-- A piece of a container does not begin as the container closes, and is stepped over. -/
structure Passes (bound : ℕ) (c : Open) (p : Bytes) : Prop where
  starts : ∀ rest, ∃ b s, skipBlank (p ++ rest) = b :: s ∧ b ≠ c.mark
  skips : ∃ n ≤ 2 * p.length, ∀ fuel stack rest, EndsNumber rest → (p ++ rest).length ≤ bound →
    enter bound (fuel + n) stack c (p ++ rest) = skipSteps bound fuel (c :: stack) .done rest

/-- The blanks around a value are skipped with it. -/
theorem Skips.padded {p : Padded} (h : Skips bound p.core) : ∃ n ≤ 2 * p.text.length,
    ∀ fuel stack rest, EndsNumber rest → (p.text ++ rest).length ≤ bound →
      skipSteps bound (fuel + n) (c :: stack) .value (p.text ++ rest) =
        skipSteps bound fuel (c :: stack) .done rest := by
  obtain ⟨n, hn, hskip⟩ := h
  refine ⟨n, ?_, fun fuel stack rest hends hbound => ?_⟩
  · simp only [Padded.text, List.length_append]
    omega
  · rw [Padded.text_append] at hbound ⊢
    rw [skipSteps_value_blanks, hskip fuel _ _ (endsNumber_blanks p.after hends),
      skipSteps_done_blanks]
    rw [List.length_append] at hbound
    omega

theorem passes_element {e : Padded} (hstart : StartsText e.core) (h : Skips bound e.core) :
    Passes bound .list e.text where
  starts rest := by
    obtain ⟨b, t, hcore, hb, hskip⟩ := hstart.exists_cons
    rw [Padded.text_append, skipBlank_blanks, hcore]
    exact ⟨b, _, hskip _, hb⟩
  skips := h.padded

/-- A member's name and colon are skipped. -/
theorem skipName_member {m : Member} (h : IsString m.name.core) (rest : Bytes)
    (hbound : (m.text ++ rest).length ≤ bound) :
    skipName bound (m.text ++ rest) = .ok (m.value.text ++ rest) := by
  rw [Member.text_append, Padded.text_append] at hbound ⊢
  simp only [List.length_append] at hbound
  obtain ⟨t, ht, hskip⟩ := @skipString_string bound m.name.core h
    (m.name.after.text ++ Bytes.ascii ':' :: (m.value.text ++ rest)) (by omega)
  rw [skipName, skipBlank_blanks, ht, skipBlank_cons _ (by decide)]
  simp only [if_true, hskip, colon_blanks, colon_cons]

theorem passes_member {m : Member} (hname : IsString m.name.core) (h : Skips bound m.value.core) :
    Passes bound .object m.text where
  starts rest := by
    obtain ⟨parts, -, hcore⟩ := hname
    rw [Member.text_append, Padded.text_append, skipBlank_blanks, hcore]
    exact ⟨Bytes.ascii '"', _, skipBlank_cons _ (by decide), by decide⟩
  skips := by
    obtain ⟨n, hn, hskip⟩ := h.padded
    refine ⟨n, ?_, fun fuel stack rest hends hbound => ?_⟩
    · simp only [Member.text, List.length_append, List.length_cons]
      omega
    · simp only [enter, skipName_member hname rest hbound]
      exact hskip fuel stack rest hends (length_of_text hbound).1

/-- The pieces of a container after the first one are stepped over, and the mark that closes it. -/
theorem skips_listed (last : Blanks) : ∀ ps : List Bytes, (∀ p ∈ ps, Passes bound c p) →
    ∃ n ≤ 2 * (listed false ps).length + 1, ∀ fuel stack rest,
      (listed false ps ++ (last.text ++ c.mark :: rest)).length ≤ bound →
      skipSteps bound (fuel + n) (c :: stack) .done
        (listed false ps ++ (last.text ++ c.mark :: rest)) = skipSteps bound fuel stack .done rest
  | [], _ => ⟨1, by simp, fun fuel stack rest _ => skipSteps_mark fuel stack last rest⟩
  | p :: ps, h => by
    obtain ⟨n, hn, hskip⟩ := (h p List.mem_cons_self).skips
    obtain ⟨k, hk, hmore⟩ := skips_listed last ps fun q hq => h q (List.mem_cons_of_mem p hq)
    have htext (s : Bytes) :
        listed false (p :: ps) ++ s = Bytes.ascii ',' :: (p ++ (listed false ps ++ s)) := by
      simp [listed, comma]
    refine ⟨k + n + 1, ?_, fun fuel stack rest hbound => ?_⟩
    · simp only [listed, comma, List.length_append, Bool.false_eq_true, if_false,
        List.length_singleton]
      omega
    · rw [htext] at hbound ⊢
      simp only [List.length_cons, List.length_append] at hbound
      have hends := endsNumber_listed ps (endsNumber_blanks last (endsNumber_mark c rest))
      rw [← Nat.add_assoc, ← Nat.add_assoc, skipSteps_comma, hskip _ _ _ hends, hmore]
      · simp only [List.length_cons, List.length_append]
        omega
      · simp only [List.length_cons, List.length_append]
        omega

/-- A container is stepped over if its pieces are. -/
theorem skips_enclosed {ps : List Bytes} (last : Blanks) (h : ∀ p ∈ ps, Passes bound c p) :
    Skips bound (c.enclosed ps last) := by
  cases ps with
  | nil =>
    refine ⟨2, ?_, fun fuel stack rest _ _ => ?_⟩
    · simp only [Open.enclosed, List.length_cons, List.length_append]
      omega
    rw [enclosed_append, listed, List.nil_append, skipSteps_opening, skipSteps_empty]
  | cons p ps =>
    obtain ⟨hstart, n, hn, hskip⟩ := h p List.mem_cons_self
    obtain ⟨k, hk, hmore⟩ := skips_listed last ps fun q hq => h q (List.mem_cons_of_mem p hq)
    have htext (s : Bytes) : listed true (p :: ps) ++ s = p ++ (listed false ps ++ s) := by
      simp [listed, comma]
    refine ⟨k + n + 1 + 1, ?_, fun fuel stack rest _ hbound => ?_⟩
    · rw [Open.enclosed, separated_eq_listed]
      simp only [listed, comma, List.length_cons, List.length_append, if_true, List.length_nil]
      omega
    · rw [enclosed_append, htext] at hbound ⊢
      simp only [List.length_cons, List.length_append] at hbound
      obtain ⟨b, t, hblank, hb⟩ := hstart (listed false ps ++ (last.text ++ c.mark :: rest))
      have hends := endsNumber_listed ps (endsNumber_blanks last (endsNumber_mark c rest))
      rw [← Nat.add_assoc, ← Nat.add_assoc, ← Nat.add_assoc, skipSteps_opening,
        skipSteps_opened _ _ hblank hb, hskip _ _ _ hends, hmore]
      · simp only [List.length_cons, List.length_append]
        omega
      · simp only [List.length_cons, List.length_append]
        omega

/-! ## Values -/

/-- Every value is stepped over. -/
theorem skips_value (h : IsValue t) : Skips bound t := by
  induction h with
  | null => exact skips_null
  | flag b => exact skips_flag b
  | number h => exact skips_number h
  | string h => exact skips_string h
  | list es last h ih =>
    refine skips_enclosed last fun p hp => ?_
    obtain ⟨e, he, rfl⟩ := List.mem_map.mp hp
    exact passes_element (h e he).startsText (ih e he)
  | object ms last hname hvalue ih =>
    refine skips_enclosed last fun p hp => ?_
    obtain ⟨m, hm, rfl⟩ := List.mem_map.mp hp
    exact passes_member (hname m hm) (ih m hm)

/-- A value is skipped to exactly the byte behind it, with the blanks in front of it. -/
theorem skipValue_value (before : Blanks) (h : IsValue t) {rest : Bytes} (hrest : EndsNumber rest)
    (hbound : (t ++ rest).length ≤ bound) :
    skipValue bound (before.text ++ (t ++ rest)) = .ok rest := by
  obtain ⟨n, hn, hskip⟩ := @skips_value bound t h
  rw [List.length_append] at hbound
  obtain ⟨fuel, hfuel⟩ : ∃ fuel, 2 * bound + 2 = fuel + 1 + n := ⟨2 * bound + 1 - n, by omega⟩
  rw [skipValue, hfuel, skipSteps_value_blanks, hskip _ _ _ hrest, skipSteps]
  rw [List.length_append]
  exact hbound

end Steps

end Json

end PeerGateway
